import ChipEight.Bits

/-!
# Opcodes

An opcode is a word of 16 bits, held as an integer of any size; its fields look at the lowest 16 bits only.

* `family` is the first digit and tells the groups of instructions apart;
* `x` and `y`, the second and third digit, name registers;
* `n` is the last digit, `nn` the low byte, and `nnn`, the low 12 bits, an address.
-/

namespace ChipEight

/-- An integer read as an opcode. -/
structure Opcode where
  value : Int
deriving DecidableEq

namespace Opcode

/-- The opcode of two bytes, the first one the more significant. -/
def ofBytes (high low : Int) : Opcode := ⟨high * 256 + Bits.field low 0 8⟩

/-- The digit from bit `start` on. -/
def digit (op : Opcode) (start : Nat) : Fin 16 := Fin.ofNat 16 (Bits.field op.value start (start + 4))

def family (op : Opcode) : Fin 16 := op.digit 12

def x (op : Opcode) : Fin 16 := op.digit 8

def y (op : Opcode) : Fin 16 := op.digit 4

def n (op : Opcode) : Fin 16 := op.digit 0

def nn (op : Opcode) : UInt8 := UInt8.ofNat (Bits.field op.value 0 8)

def nnn (op : Opcode) : Fin 4096 := Fin.ofNat 4096 (Bits.field op.value 0 12)

/-- Four upper-case digits, more if the value needs them. -/
def text (op : Opcode) : String := Text.hexPadded 4 op.value

end Opcode

end ChipEight
