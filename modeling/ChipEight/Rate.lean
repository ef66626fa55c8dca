/-!
# Rates

A number of events over a time in seconds, and the texts for it: rounded to one decimal place, or cut off to an
integer. The quotient is taken in floating point, as a value `mantissa * 2 ^ exponent`, and what follows is exact;
a tie between two decimals goes to the even one.
-/

namespace ChipEight

/-- A number that is not negative, as a whole number times a power of two. -/
structure Dyadic where
  mantissa : Nat
  exponent : Int
deriving DecidableEq

namespace Dyadic

/-- The value of a floating point number, apart from its sign; an infinite one has none. -/
def ofFloat? (x : Float) : Option Dyadic :=
  let bits := x.toBits.toNat
  let exponent : Nat := bits >>> 52 % 0x800
  let fraction : Nat := bits % 0x10000000000000
  if exponent = 0x7FF then none
  else if exponent = 0 then some ⟨fraction, -1074⟩
  else some ⟨0x10000000000000 + fraction, (exponent : Int) - 1075⟩

/-- The numerator of the value as a fraction. -/
def numerator (d : Dyadic) : Nat := d.mantissa <<< d.exponent.toNat

/-- The denominator of the value as a fraction, a power of two. -/
def denominator (d : Dyadic) : Nat := 1 <<< (-d.exponent).toNat

/-- The value without its fractional part. -/
def floor (d : Dyadic) : Nat := d.numerator / d.denominator

/-- The integer nearest to a quotient, the even one of two. -/
def roundEven (num den : Nat) : Nat :=
  let q := num / den
  let r := 2 * (num % den)
  if r < den then q
  else if den < r then q + 1
  else if q % 2 = 0 then q
  else q + 1

/-- The value with one decimal place. -/
def oneDecimal (d : Dyadic) : String :=
  let tenths := roundEven (10 * d.numerator) d.denominator
  toString (tenths / 10) ++ "." ++ toString (tenths % 10)

end Dyadic

/-- Events per second. -/
def rate? (events : Nat) (seconds : Float) : Option Dyadic :=
  Dyadic.ofFloat? (Float.ofNat events / seconds)

end ChipEight
