import ChipEight.Fault

/-!
# Bit fields of integers

Integers of any size and sign as infinite rows of bits in two's complement, bit 0 the least significant. `field`
cuts a piece out of such a row, `slice` does so inside a word of stated width, and `join` puts a number above the
low bits of another.
-/

namespace ChipEight.Bits

/-- The width of a word unless stated otherwise. -/
def wordWidth : Int := 16

/-- The width of a low part unless stated otherwise. -/
def byteWidth : Int := 8

/-- The value of bit `i`. -/
def weight (i : Nat) : Nat := 1 <<< i

/-- Bits `[start, stop)` of `value`, moved down to bit 0. -/
def field (value : Int) (start stop : Nat) : Nat :=
  ((value >>> start) % weight (stop - start)).toNat

/-- Bits `[start, stop)` of a word of `width` bits, which they have to lie in. -/
def slice (value start stop width : Int) : Except Fault Nat :=
  if start < 0 ∨ start > stop ∨ start ≥ width ∨ stop > width then
    .error (.bitRange start stop width)
  else
    .ok (field value start.toNat stop.toNat)

/-- The number `high` above the lowest `lowWidth` bits of `low`; at least one bit has to be taken from `low`. -/
def join (high low lowWidth : Int) : Except Fault Int :=
  if lowWidth < 0 then .error .negativeShift
  else (slice low 0 lowWidth lowWidth).map fun lowBits => high * weight lowWidth.toNat + lowBits

end ChipEight.Bits
