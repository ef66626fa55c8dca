import ChipEight.Instruction
import ChipEight.Machine.Basic

/-!
# What the instructions do

`execute` is the effect of an instruction on a machine whose counter has already moved past its opcode. An
instruction that can be refused is checked before anything changes. Where an instruction sets a flag, VF is set
after VX, so an instruction on VF leaves the flag there.
-/

namespace ChipEight.Machine

/-- The three decimal digits of a byte. -/
def decimalDigits (b : UInt8) : List UInt8 := [b / 100, b / 10 % 10, b % 10]

/-- The register that a shift reads. -/
def shiftSource (m : Machine) (x y : Fin 16) : UInt8 := if m.dialect.shiftReadsY then m.v y else m.v x

/-- The register that a jump with an offset adds. -/
def offsetRegister (m : Machine) (x : Fin 16) : Fin 16 := if m.dialect.jumpAddsX then x else Registers.base

/-- Draws a sprite at VX and VY, and tells by VF whether a pixel went dark. -/
def drawSprite (m : Machine) (x y : Fin 16) (sprite : List UInt8) : Machine :=
  let pattern := Sprite.place (m.v x) (m.v y) sprite
  { m with screen := m.screen.toggle pattern }.setFlag (m.screen.meets pattern)

/-- The key wait. It begins by forgetting an earlier press, and stays on its opcode until there is a new one. -/
def awaitKey (m : Machine) (x : Fin 16) : Machine :=
  match m.waiting, m.keypad.pending with
  | some _, some key => { m with keypad := m.keypad.take, waiting := none }.setV x (UInt8.ofInt key)
  | some _, none => { m with counter := m.counter - 2 }
  | none, _ => { m with keypad := m.keypad.take, waiting := some x, counter := m.counter - 2 }

/-- The effect of an instruction, or the fault that refuses it. -/
def execute (m : Machine) : Instruction → Except Fault Machine
  | .clearScreen => .ok { m with screen := m.screen.clear }
  | .ret => m.stack.pop.map fun popped => { m with counter := popped.1.toNat, stack := popped.2 }
  | .jump nnn => .ok { m with counter := nnn.val }
  | .call nnn => (m.stack.push m.counter).map fun stack => { m with counter := nnn.val, stack := stack }
  | .skipIfByte x nn => .ok (m.skipIf (m.v x = nn))
  | .skipUnlessByte x nn => .ok (m.skipIf (m.v x ≠ nn))
  | .skipIfSame x y => .ok (m.skipIf (m.v x = m.v y))
  | .setByte x nn => .ok (m.setV x nn)
  | .addByte x nn => .ok (m.setV x (m.v x + nn))
  | .copy x y => .ok (m.setV x (m.v y))
  | .bitOr x y => .ok (m.setV x (m.v x ||| m.v y))
  | .bitAnd x y => .ok (m.setV x (m.v x &&& m.v y))
  | .bitXor x y => .ok (m.setV x (m.v x ^^^ m.v y))
  | .add x y => .ok ((m.setV x (m.v x + m.v y)).setFlag ((m.v x).toNat + (m.v y).toNat > 255))
  | .subtract x y => .ok ((m.setV x (m.v x - m.v y)).setFlag (m.v y ≤ m.v x))
  | .shiftRight x y =>
    let source := m.shiftSource x y
    .ok ((m.setV x (source >>> 1)).setFlag (source &&& 1 ≠ 0))
  | .subtractFrom x y => .ok ((m.setV x (m.v y - m.v x)).setFlag (m.v x ≤ m.v y))
  | .shiftLeft x y =>
    let source := m.shiftSource x y
    .ok ((m.setV x (source <<< 1)).setFlag (source &&& 0x80 ≠ 0))
  | .skipUnlessSame x y => .ok (m.skipIf (m.v x ≠ m.v y))
  | .setIndex nnn => .ok { m with index := nnn.val }
  | .jumpOffset x nnn => .ok { m with counter := nnn.val + (m.v (m.offsetRegister x)).toNat }
  | .random x nn => .ok ({ m with random := m.random.advance }.setV x (UInt8.ofInt m.random.next &&& nn))
  | .draw x y n => (m.memory.read m.index n.val).map fun sprite => m.drawSprite x y sprite
  | .skipIfKey x => .ok (m.skipIf (m.keypad.isDown (m.v x).toNat))
  | .skipUnlessKey x => .ok (m.skipIf (!m.keypad.isDown (m.v x).toNat))
  | .readDelay x => .ok (m.setV x m.timers.delay)
  | .waitForKey x => .ok (m.awaitKey x)
  | .setDelay x => .ok { m with timers := m.timers.setDelay (m.v x).toNat }
  | .setSound x => .ok { m with timers := m.timers.setSound (m.v x).toNat }
  | .addToIndex x =>
    let total := m.index + (m.v x).toNat
    let moved := { m with index := total % 65536 }
    .ok (if m.dialect.indexSetsFlag then moved.setFlag (total > 65535) else moved)
  | .pointAtGlyph x => .ok { m with index := Font.glyphAddress ((m.v x).toNat % 16) }
  | .storeDecimal x =>
    (m.memory.store m.index (decimalDigits (m.v x))).map fun memory => { m with memory := memory }
  | .storeRegisters x =>
    (m.memory.store m.index (Registers.first m.registers (x + 1))).map fun memory =>
      { m with memory := memory }.passBlock x
  | .loadRegisters x =>
    (m.memory.read m.index (x + 1)).map fun values =>
      { m with registers := Registers.replaceFirst m.registers values }.passBlock x

end ChipEight.Machine
