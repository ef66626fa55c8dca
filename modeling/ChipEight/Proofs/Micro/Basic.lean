import ChipEight.Machine.Trace
import Mathlib.Data.Int.Bitwise

/-!
# Micro-operations

A machine on bare cells: tables of plain integers that nothing but the operations keep in bounds. A
micro-operation reads or writes one cell, one run of cells or one number of the `Store`; each access is checked on
its own, and what was written before an operation is refused stays written.

The tables can change their size: a write to a run of cells (`splice`) puts any number of values in the place of
any other number. That memory stays as long as it is, that a register stays a byte, that no index misses its table
and that a refused instruction has changed nothing is therefore not built in here. It follows for the microprograms
of `ChipEight.Proofs.Micro.Program` from `ChipEight.Proofs.Micro.Simulation`.
-/

namespace ChipEight.Micro

/-- What ends a microprogram before its end. -/
inductive Trap where
  | refused (fault : Fault)
  /-- No row of the table of instructions is for this family. -/
  | noRow (family : Nat)
  /-- A read returned another number of bytes than an opcode has. -/
  | oddRead (count : Nat)
  /-- A number was to be printed, but there was none. -/
  | noNumber
deriving DecidableEq

/-- The cells of a machine, the switch for tracing, and what was printed. -/
structure Store where
  memory : List UInt8
  registers : List Int
  index : Int
  counter : Int
  /-- The slots for return addresses; only those below `top` are in use. -/
  slots : List UInt16
  top : Nat
  dialect : Dialect
  /-- The rows of the screen, 0 for a dark pixel. -/
  pixels : List (List Nat)
  dirty : Bool
  layout : Layout
  /-- The keys, 0 for one that is up. -/
  keys : List Nat
  pending : Option Int
  delay : Int
  sound : Int
  random : Wheel
  waiting : Option Int
  cycles : Nat
  logging : Bool
  printed : List String
deriving DecidableEq

/-- A piece of a microprogram: it changes the store, and has a result or ends in a trap. -/
abbrev Code (α : Type) := ExceptT Trap (StateM Store) α

/-- Goes on with the result of a check. -/
def accept {α : Type} : Except Fault α → Code α
  | .ok a => pure a
  | .error fault => throw (.refused fault)

/-! ### Tables -/

/-- The element at an index; the axis is for the report only. -/
def element {α : Type} (axis : Nat) (table : List α) (index : Int) : Except Fault α :=
  (position axis table.length index).map table.get

/-- The table with another element at an index. -/
def replace {α : Type} (axis : Nat) (table : List α) (index : Int) (a : α) : Except Fault (List α) :=
  (position axis table.length index).map fun i => table.set i a

/-- The end of a run of cells: a negative one counts back from the end, and none is outside the table. -/
def clamp (size : Nat) (index : Int) : Nat :=
  if index < 0 then (index + size).toNat else min index.toNat size

/-- The run of cells from `start` up to but not including `stop`. -/
def slice {α : Type} (table : List α) (start stop : Int) : List α :=
  (table.take (clamp table.length stop)).drop (clamp table.length start)

/-- The table with values in the place of a run of cells, be they as many or not. -/
def splice {α : Type} (table : List α) (start stop : Int) (values : List α) : List α :=
  let first := clamp table.length start
  table.take first ++ values ++ table.drop (max first (clamp table.length stop))

/-! ### Registers -/

def readRegister (x : Int) : Code Int := do
  accept (element 0 (← get).registers x)

def writeRegister (x : Int) (value : Int) : Code Unit := do
  let registers ← accept (replace 0 (← get).registers x value)
  modify fun s => { s with registers := registers }

/-- Puts values in the place of the first `count` registers. -/
def writeFirst (count : Int) (values : List Int) : Code Unit :=
  modify fun s => { s with registers := splice s.registers 0 count values }

/-! ### Memory -/

/-- Refuses an access to `count` bytes from `address` on that leaves memory. -/
def checkAccess (address count : Int) : Code Unit :=
  if address < 0 ∨ address + count > 4096 then throw (.refused (.memoryBounds address count)) else pure ()

def readMemory (address count : Int) : Code (List UInt8) := do
  checkAccess address count
  return slice (← get).memory address (address + count)

/-- Writes numbers, which have to be bytes whatever the address. -/
def writeMemory (address : Int) (values : List Int) : Code Unit := do
  if values.all fun v => 0 ≤ v ∧ v < 256 then
    checkAccess address values.length
    modify fun s =>
      { s with memory := splice s.memory address (address + values.length) (values.map UInt8.ofInt) }
  else throw (.refused .byteRange)

/-! ### The stack -/

def push (address : Int) : Code Unit := do
  let s ← get
  if s.slots.length ≤ s.top then throw (.refused .stackOverflow)
  else if 0 ≤ address ∧ address < 65536 then
    let slots ← accept (replace 0 s.slots s.top (UInt16.ofInt address))
    modify fun s => { s with slots := slots }
    modify fun s => { s with top := s.top + 1 }
  else throw (.refused (.addressRange address))

def pop : Code Int := do
  if (← get).top = 0 then throw (.refused .stackUnderflow)
  else
    modify fun s => { s with top := s.top - 1 }
    let s ← get
    let address ← accept (element 0 s.slots s.top)
    return address.toNat

/-- The youngest return address, if there is one. -/
def peek : Code (Option Int) := do
  let s ← get
  if s.top = 0 then return none
  else
    let address ← accept (element 0 s.slots (s.top - 1 : Int))
    return some address.toNat

/-! ### The screen -/

def readPixel (x y : Int) : Code Bool := do
  let row ← accept (element 0 (← get).pixels y)
  let pixel ← accept (element 1 row x)
  return pixel ≠ 0

def writePixel (x y : Int) (on : Bool) : Code Unit := do
  let s ← get
  let row ← accept (element 0 s.pixels y)
  let row ← accept (replace 1 row x (if on then 1 else 0))
  let pixels ← accept (replace 0 s.pixels y row)
  modify fun s => { s with pixels := pixels }
  modify fun s => { s with dirty := true }

def clearPixels : Code Unit := do
  modify fun s => { s with pixels := s.pixels.map fun row => row.map fun _ => 0 }
  modify fun s => { s with dirty := true }

/-! ### Keys -/

/-- Whether the key numbered by the low four bits of `key` is down. -/
def keyDown (key : Int) : Code Bool := do
  let state ← accept (element 0 (← get).keys (key % 16))
  return state ≠ 0

def pressKey (key : Int) : Code Unit := do
  let state ← accept (element 0 (← get).keys key)
  if state = 0 ∧ (← get).pending = none then
    modify fun s => { s with pending := some key }
  let keys ← accept (replace 0 (← get).keys key 1)
  modify fun s => { s with keys := keys }

def releaseKey (key : Int) : Code Unit := do
  let keys ← accept (replace 0 (← get).keys key 0)
  modify fun s => { s with keys := keys }

/-- The pending press, which is then no longer pending. -/
def takePress : Code (Option Int) := do
  let s ← get
  modify fun s => { s with pending := none }
  return s.pending

def resetKeys : Code Unit := do
  modify fun s => { s with keys := s.keys.map fun _ => 0 }
  modify fun s => { s with pending := none }

/-! ### Timers -/

def setDelay (value : Int) : Code Unit := modify fun s => { s with delay := value % 256 }

def setSound (value : Int) : Code Unit := modify fun s => { s with sound := value % 256 }

def countDelay : Code Unit := do
  if (← get).delay > 0 then modify fun s => { s with delay := s.delay - 1 }

def countSound : Code Unit := do
  if (← get).sound > 0 then modify fun s => { s with sound := s.sound - 1 }

def tick : Code Unit := do
  countDelay
  countSound

/-! ### Addresses, the key wait, and random numbers -/

def setCounter (address : Int) : Code Unit := modify fun s => { s with counter := address }

/-- Moves the counter past one opcode. -/
def skip : Code Unit := modify fun s => { s with counter := s.counter + 2 }

/-- Moves the counter back by one opcode. -/
def stepBack : Code Unit := modify fun s => { s with counter := s.counter - 2 }

def moveIndex (address : Int) : Code Unit := modify fun s => { s with index := address }

def await (register : Option Int) : Code Unit := modify fun s => { s with waiting := register }

def countCycle : Code Unit := modify fun s => { s with cycles := s.cycles + 1 }

/-- A random byte. -/
def randomByte : Code Int := do
  let s ← get
  modify fun s => { s with random := s.random.advance }
  return s.random.next % 256

/-! ### Printing -/

def say (line : String) : Code Unit := modify fun s => { s with printed := s.printed ++ [line] }

/-- Prints a line while tracing is on. -/
def log (line : String) : Code Unit := do
  if (← get).logging then say line

/-- A number that is to be printed. -/
def number : Option Int → Code Int
  | some n => pure n
  | none => throw .noNumber

end ChipEight.Micro
