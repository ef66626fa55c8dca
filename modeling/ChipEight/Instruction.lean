import ChipEight.Opcode

/-!
# The instruction set

The 34 instructions with their operands, and `decode?`, which reads an instruction off an opcode. Instructions of
family 0 are known by their whole value, those of families 5, 8 and 9 by the last digit, and those of families E
and F by the low byte.
-/

namespace ChipEight

/-- An instruction. `x` and `y` name registers, `nn` is a byte and `nnn` an address. -/
inductive Instruction where
  | clearScreen
  | ret
  | jump (nnn : Fin 4096)
  | call (nnn : Fin 4096)
  | skipIfByte (x : Fin 16) (nn : UInt8)
  | skipUnlessByte (x : Fin 16) (nn : UInt8)
  | skipIfSame (x y : Fin 16)
  | setByte (x : Fin 16) (nn : UInt8)
  | addByte (x : Fin 16) (nn : UInt8)
  | copy (x y : Fin 16)
  | bitOr (x y : Fin 16)
  | bitAnd (x y : Fin 16)
  | bitXor (x y : Fin 16)
  | add (x y : Fin 16)
  /-- VX becomes VX minus VY. -/
  | subtract (x y : Fin 16)
  | shiftRight (x y : Fin 16)
  /-- VX becomes VY minus VX. -/
  | subtractFrom (x y : Fin 16)
  | shiftLeft (x y : Fin 16)
  | skipUnlessSame (x y : Fin 16)
  | setIndex (nnn : Fin 4096)
  /-- A jump with an offset; `x` is the first digit of `nnn`. -/
  | jumpOffset (x : Fin 16) (nnn : Fin 4096)
  | random (x : Fin 16) (nn : UInt8)
  /-- Draws a sprite of `n` rows. -/
  | draw (x y n : Fin 16)
  | skipIfKey (x : Fin 16)
  | skipUnlessKey (x : Fin 16)
  | readDelay (x : Fin 16)
  | waitForKey (x : Fin 16)
  | setDelay (x : Fin 16)
  | setSound (x : Fin 16)
  | addToIndex (x : Fin 16)
  /-- The index becomes the address of the glyph for a digit. -/
  | pointAtGlyph (x : Fin 16)
  /-- Stores the three decimal digits of VX. -/
  | storeDecimal (x : Fin 16)
  /-- Stores V0 to VX. -/
  | storeRegisters (x : Fin 16)
  /-- Loads V0 to VX. -/
  | loadRegisters (x : Fin 16)
deriving DecidableEq

namespace Instruction

/-- The instruction of family 8 with the last digit `n`. -/
def arithmetic? (x y n : Fin 16) : Option Instruction :=
  match n.val with
  | 0x0 => some (copy x y)
  | 0x1 => some (bitOr x y)
  | 0x2 => some (bitAnd x y)
  | 0x3 => some (bitXor x y)
  | 0x4 => some (add x y)
  | 0x5 => some (subtract x y)
  | 0x6 => some (shiftRight x y)
  | 0x7 => some (subtractFrom x y)
  | 0xE => some (shiftLeft x y)
  | _ => none

/-- The instruction of family F with the low byte `nn`. -/
def miscellaneous? (x : Fin 16) (nn : UInt8) : Option Instruction :=
  match nn.toNat with
  | 0x07 => some (readDelay x)
  | 0x0A => some (waitForKey x)
  | 0x15 => some (setDelay x)
  | 0x18 => some (setSound x)
  | 0x1E => some (addToIndex x)
  | 0x29 => some (pointAtGlyph x)
  | 0x33 => some (storeDecimal x)
  | 0x55 => some (storeRegisters x)
  | 0x65 => some (loadRegisters x)
  | _ => none

/-- The instruction that an opcode stands for. -/
def decode? (op : Opcode) : Option Instruction :=
  match op.family.val with
  | 0x0 =>
    if op.value = 0x00E0 then some clearScreen
    else if op.value = 0x00EE then some ret
    else none
  | 0x1 => some (jump op.nnn)
  | 0x2 => some (call op.nnn)
  | 0x3 => some (skipIfByte op.x op.nn)
  | 0x4 => some (skipUnlessByte op.x op.nn)
  | 0x5 => if op.n.val = 0 then some (skipIfSame op.x op.y) else none
  | 0x6 => some (setByte op.x op.nn)
  | 0x7 => some (addByte op.x op.nn)
  | 0x8 => arithmetic? op.x op.y op.n
  | 0x9 => if op.n.val = 0 then some (skipUnlessSame op.x op.y) else none
  | 0xA => some (setIndex op.nnn)
  | 0xB => some (jumpOffset op.x op.nnn)
  | 0xC => some (random op.x op.nn)
  | 0xD => some (draw op.x op.y op.n)
  | 0xE =>
    if op.nn = 0x9E then some (skipIfKey op.x)
    else if op.nn = 0xA1 then some (skipUnlessKey op.x)
    else none
  | _ => miscellaneous? op.x op.nn

/-- How instruction tables write the opcodes of an instruction: small letters stand for operands. -/
def pattern : Instruction → String
  | clearScreen => "00E0"
  | ret => "00EE"
  | jump _ => "1nnn"
  | call _ => "2nnn"
  | skipIfByte .. => "3xkk"
  | skipUnlessByte .. => "4xkk"
  | skipIfSame .. => "5xy0"
  | setByte .. => "6xkk"
  | addByte .. => "7xkk"
  | copy .. => "8xy0"
  | bitOr .. => "8xy1"
  | bitAnd .. => "8xy2"
  | bitXor .. => "8xy3"
  | add .. => "8xy4"
  | subtract .. => "8xy5"
  | shiftRight .. => "8xy6"
  | subtractFrom .. => "8xy7"
  | shiftLeft .. => "8xyE"
  | skipUnlessSame .. => "9xy0"
  | setIndex _ => "Annn"
  | jumpOffset .. => "Bnnn"
  | random .. => "Cxkk"
  | draw .. => "Dxyn"
  | skipIfKey _ => "Ex9E"
  | skipUnlessKey _ => "ExA1"
  | readDelay _ => "Fx07"
  | waitForKey _ => "Fx0A"
  | setDelay _ => "Fx15"
  | setSound _ => "Fx18"
  | addToIndex _ => "Fx1E"
  | pointAtGlyph _ => "Fx29"
  | storeDecimal _ => "Fx33"
  | storeRegisters _ => "Fx55"
  | loadRegisters _ => "Fx65"

end Instruction

end ChipEight
