import ChipEight.Machine.Cycle

/-!
# Traces of instructions

One line of text for an instruction that was executed, from the machines before and after its cycle. Registers are
named by an upper-case digit, addresses have at least three upper-case digits, values are decimal. A skip has a
line only if it was taken.
-/

namespace ChipEight.Trace

/-- The name of a register. -/
def reg (x : Fin 16) : String := "V" ++ Text.hex x.val

/-- An address in at least three digits. -/
def address (n : Int) : String := Text.hexPadded 3 n

/-- A byte in decimal. -/
def byte (b : UInt8) : String := toString b.toNat

/-- The value of a register in decimal. -/
def value (m : Machine) (x : Fin 16) : String := byte (m.v x)

/-- The value of VF in decimal. -/
def flagValue (m : Machine) : String := value m Registers.flag

/-- The line of a skip, if it moved the counter over two opcodes. -/
def skipLine (before after : Machine) (condition : String) : Option String :=
  if after.counter = before.counter + 4 then some ("Skip next instruction: " ++ condition) else none

/-- The line of an operation that combines two registers into the first one. -/
def combineLine (after : Machine) (x y : Fin 16) (name : String) : String :=
  reg x ++ " = " ++ reg x ++ " " ++ name ++ " " ++ reg y ++ " -> " ++ value after x

/-- The key that ends a wait, or that the wait goes on. -/
def awaitedKey (before : Machine) : String :=
  match before.waiting, before.keypad.pending with
  | some _, some key => Text.hex key
  | _, _ => "waiting"

/-- The line for an instruction, if it has one. -/
def line? (before after : Machine) : Instruction → Option String
  | .clearScreen => some "Clear the display (all pixels turned off)"
  | .ret => some ("Return to " ++ address after.counter)
  | .jump nnn => some ("Jump to memory address " ++ address nnn.val)
  | .call nnn =>
    some ("Call subroutine at address " ++ address nnn.val ++ " (return to " ++ address (before.counter + 2) ++ ")")
  | .skipIfByte x nn => skipLine before after (reg x ++ " == " ++ byte nn)
  | .skipUnlessByte x nn => skipLine before after (reg x ++ " != " ++ byte nn)
  | .skipIfSame x y => skipLine before after (reg x ++ " == " ++ reg y)
  | .setByte x nn => some ("Set " ++ reg x ++ " = " ++ byte nn)
  | .addByte x nn =>
    some ("Add " ++ byte nn ++ " to " ++ reg x ++ ": " ++ value before x ++ " + " ++ byte nn ++ " -> " ++
      value after x)
  | .copy x y => some ("Copy value of " ++ reg y ++ " (" ++ value after y ++ ") into " ++ reg x)
  | .bitOr x y => some (combineLine after x y "OR")
  | .bitAnd x y => some (combineLine after x y "AND")
  | .bitXor x y => some (combineLine after x y "XOR")
  | .add x y =>
    some ("Add " ++ reg y ++ " to " ++ reg x ++ ": result " ++ value after x ++ ", carry=" ++ flagValue after)
  | .subtract x y =>
    some ("Subtract " ++ reg y ++ " from " ++ reg x ++ ": result " ++ value after x ++ ", NOT borrow=" ++
      flagValue after)
  | .shiftRight x _ =>
    some ("Shift " ++ reg x ++ " right by 1: " ++ value after x ++ ", least significant bit=" ++ flagValue after)
  | .subtractFrom x y =>
    some ("Set " ++ reg x ++ " = " ++ reg y ++ " - " ++ reg x ++ ": result " ++ value after x ++ ", NOT borrow=" ++
      flagValue after)
  | .shiftLeft x _ =>
    some ("Shift " ++ reg x ++ " left by 1: " ++ value after x ++ ", most significant bit=" ++ flagValue after)
  | .skipUnlessSame x y => skipLine before after (reg x ++ " != " ++ reg y)
  | .setIndex _ => some ("Set memory pointer I = " ++ address after.index)
  | .jumpOffset x nnn =>
    some ("Jump to address " ++ reg (before.offsetRegister x) ++ " + " ++ address nnn.val ++ " = " ++
      address after.counter)
  | .random x nn => some ("Set " ++ reg x ++ " = random_byte & " ++ byte nn ++ " -> " ++ value after x)
  | .draw x y n =>
    some ("Drew sprite at (" ++ toString ((before.v x).toNat % 64) ++ "," ++ toString ((before.v y).toNat % 32) ++
      "), height=" ++ toString n.val ++ ", collision=" ++ flagValue after)
  | .skipIfKey x => skipLine before after ("key " ++ Text.hex ((before.v x).toNat % 16) ++ " is pressed")
  | .skipUnlessKey x => skipLine before after ("key " ++ Text.hex ((before.v x).toNat % 16) ++ " is NOT pressed")
  | .readDelay x => some ("Set " ++ reg x ++ " = delay timer (" ++ value after x ++ ")")
  | .waitForKey x => some ("Wait for key press -> " ++ reg x ++ ": " ++ awaitedKey before)
  | .setDelay x => some ("Set delay timer = " ++ reg x ++ " (" ++ value after x ++ ")")
  | .setSound x => some ("Set sound timer = " ++ reg x ++ " (" ++ value after x ++ ")")
  | .addToIndex x =>
    some ("Increment I by " ++ reg x ++ ": " ++ address before.index ++ " -> " ++ address after.index)
  | .pointAtGlyph x =>
    some ("Set I to the memory location of sprite for digit " ++ Text.hex ((before.v x).toNat % 16) ++ " (" ++
      address after.index ++ ")")
  | .storeDecimal x => some ("Store BCD of " ++ reg x ++ " (" ++ value before x ++ ") at I, I+1, I+2")
  | .storeRegisters x =>
    some ("Store registers V0.." ++ reg x ++ " in memory starting at I (" ++ address before.index ++ ")")
  | .loadRegisters x =>
    some ("Load registers V0.." ++ reg x ++ " from memory starting at I (" ++ address before.index ++ ")")

end ChipEight.Trace
