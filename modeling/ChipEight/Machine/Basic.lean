import ChipEight.Dialect
import ChipEight.Keypad
import ChipEight.Memory
import ChipEight.ReturnStack
import ChipEight.Screen
import ChipEight.Timers
import ChipEight.Wheel

/-!
# The machine

The state of a machine: memory, sixteen registers of a byte, the index and the counter as addresses, the return
stack, and the devices. The counter is not bounded; an address past the end of memory is refused when the next
opcode is read there.
-/

namespace ChipEight

/-- The registers V0 to VF. -/
abbrev Registers := Vector UInt8 16

namespace Registers

/-- The number of V0, which a jump with an offset may add. -/
def base : Fin 16 := ⟨0, by decide⟩

/-- The number of VF, which holds flags. -/
def flag : Fin 16 := ⟨15, by decide⟩

/-- The first `count` registers. -/
def first (r : Registers) (count : Nat) : List UInt8 := r.toList.take count

/-- The registers with as many of the first ones replaced as there are values. -/
def replaceFirst (r : Registers) (values : List UInt8) : Registers :=
  Vector.ofFn fun i : Fin 16 => values[i.val]?.getD (r.get i)

theorem get_replaceFirst (r : Registers) (values : List UInt8) (i : Fin 16) :
    (r.replaceFirst values).get i = values[i.val]?.getD (r.get i) :=
  Vector.getElem_ofFn i.isLt

end Registers

/-- A machine, fresh unless stated otherwise. -/
structure Machine where
  memory : Memory := Memory.fresh
  registers : Registers := Vector.replicate 16 0
  /-- The address that instructions on memory work at. -/
  index : Int := 0
  /-- The address of the next opcode. -/
  counter : Int := Memory.programStart
  stack : ReturnStack := ReturnStack.empty ReturnStack.standardDepth
  dialect : Dialect := Dialect.modern
  screen : Screen := {}
  keypad : Keypad := {}
  timers : Timers := {}
  random : Wheel := {}
  /-- The register that a key press is awaited for. -/
  waiting : Option (Fin 16) := none
  /-- The cycles begun, those that ended by a fault included. -/
  cycles : Nat := 0
deriving DecidableEq

namespace Machine

/-- The value of a register. -/
def v (m : Machine) (x : Fin 16) : UInt8 := m.registers.get x

/-- The machine with a register set. -/
def setV (m : Machine) (x : Fin 16) (value : UInt8) : Machine :=
  { m with registers := setAt m.registers x value }

/-- Sets VF to 1 or 0. -/
def setFlag (m : Machine) (flag : Bool) : Machine := m.setV Registers.flag (if flag then 1 else 0)

/-- Moves the counter past the next opcode if the condition holds. -/
def skipIf (m : Machine) (condition : Bool) : Machine :=
  if condition then { m with counter := m.counter + 2 } else m

/-- Moves the index past a block of registers that ends with VX, in the dialects that do so. -/
def passBlock (m : Machine) (x : Fin 16) : Machine :=
  if m.dialect.blockMovesIndex then { m with index := (m.index + x + 1) % 65536 } else m

/-- Copies a program to where programs start. -/
def loadRom (m : Machine) (rom : List UInt8) : Except Fault Machine :=
  (m.memory.loadRom rom).map fun memory => { m with memory := memory }

/-- One tick of the timers. -/
def tick (m : Machine) : Machine := { m with timers := m.timers.tick }

end Machine

end ChipEight
