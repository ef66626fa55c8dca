import ChipEight.Machine.Run

/-!
# Sessions

A session is a machine under the hands of a host, with the switch that turns tracing on. The host works it by
commands: it runs cycles, loads programs, presses keys, and reads and sets every part of the machine. A command
that is refused leaves behind what it had done until then, which for all but runs of cycles is nothing.
-/

namespace ChipEight

/-- A machine and the switch for tracing. -/
structure Session where
  machine : Machine := {}
  logging : Bool := false
deriving DecidableEq

/-- What a host can ask of a session. -/
inductive Command where
  | cycle
  /-- A number of cycles. -/
  | run (n : Int)
  /-- A tick of the timers and a number of cycles. -/
  | frame (n : Int)
  | tick
  | load (rom : List UInt8)
  | setRegisters (values : List UInt8)
  | setRegister (x : Fin 16) (value : UInt8)
  | setIndex (address : Int)
  | setCounter (address : Int)
  | writeMemory (address : Int) (values : List Int)
  | readMemory (address count : Int)
  | press (key : Int)
  | release (key : Int)
  | takePress
  | resetKeys
  | setDelay (value : Int)
  | setSound (value : Int)
  | setPixel (x y : Int) (on : Bool)
  | clearScreen
  | markShown
  | push (address : Int)
  | pop
  | peek
  | toggleLogging
deriving DecidableEq

/-- What a command answers. -/
inductive Answer where
  | nothing
  | number (n : Int)
  | bytes (values : List UInt8)
  | flag (b : Bool)
deriving DecidableEq

/-- The outcome of a command: the session after it, the lines it printed, and its answer or the fault. -/
structure Reply where
  session : Session
  lines : Array String := #[]
  answer : Except Fault Answer := .ok .nothing

namespace Session

/-- The session goes on with another machine. -/
def withMachine (s : Session) (m : Machine) : Session := { s with machine := m }

/-- A silent command that answers something. -/
def tell (s : Session) (m : Machine) (answer : Answer) : Reply :=
  { session := s.withMachine m, answer := .ok answer }

/-- A silent command that cannot be refused and answers nothing. -/
def accept (s : Session) (m : Machine) : Reply := s.tell m .nothing

/-- A silent command that changes the machine unless it is refused. -/
def attempt (s : Session) (result : Except Fault Machine) : Reply :=
  match result with
  | .ok m => s.accept m
  | .error fault => { session := s, answer := .error fault }

/-- A run as the outcome of a command. -/
def ofRun (s : Session) (r : Run) : Reply :=
  { session := s.withMachine r.machine
    lines := r.lines
    answer := match r.fault with
      | some fault => .error fault
      | none => .ok .nothing }

/-- The line for a program of `size` bytes that was loaded. -/
def loadedLine (size : Nat) : String :=
  "Loaded " ++ toString size ++ " bytes at 0x" ++ Text.hexPadded 3 Memory.programStart

/-- Loads a program and traces it. -/
def load (s : Session) (rom : List UInt8) : Reply :=
  match s.machine.loadRom rom with
  | .ok m =>
    { session := s.withMachine m, lines := if s.logging then #[loadedLine rom.length] else #[] }
  | .error fault => { session := s, answer := .error fault }

/-- Turns tracing on or off and says so. -/
def toggleLogging (s : Session) : Reply :=
  { session := { s with logging := !s.logging }
    lines := #["logsOn: " ++ Text.truth (!s.logging)]
    answer := .ok (.flag (!s.logging)) }

/-- A number that may be absent as an answer. -/
def numberOrNothing : Option Int → Answer
  | some n => .number n
  | none => .nothing

/-- Takes the youngest address off the stack. -/
def pop (s : Session) : Reply :=
  match s.machine.stack.pop with
  | .ok (address, stack) => s.tell { s.machine with stack := stack } (.number address.toNat)
  | .error fault => { session := s, answer := .error fault }

/-- Reads bytes of memory. -/
def readMemory (s : Session) (address count : Int) : Reply :=
  { session := s, answer := (s.machine.memory.read address count).map .bytes }

/-- What a command does. -/
def perform (s : Session) (c : Command) : Reply :=
  let m := s.machine
  match c with
  | .cycle => s.ofRun (m.run s.logging 1)
  | .run n => s.ofRun (m.run s.logging n)
  | .frame n => s.ofRun (m.frame s.logging n)
  | .tick => s.accept m.tick
  | .load rom => s.load rom
  | .setRegisters values => s.accept { m with registers := Registers.replaceFirst m.registers values }
  | .setRegister x value => s.accept (m.setV x value)
  | .setIndex address => s.accept { m with index := address }
  | .setCounter address => s.accept { m with counter := address }
  | .writeMemory address values =>
    s.attempt ((m.memory.write address values).map fun memory => { m with memory := memory })
  | .readMemory address count => s.readMemory address count
  | .press key => s.attempt ((m.keypad.press key).map fun keypad => { m with keypad := keypad })
  | .release key => s.attempt ((m.keypad.release key).map fun keypad => { m with keypad := keypad })
  | .takePress => s.tell { m with keypad := m.keypad.take } (numberOrNothing m.keypad.pending)
  | .resetKeys => s.accept { m with keypad := m.keypad.reset }
  | .setDelay value => s.accept { m with timers := m.timers.setDelay value }
  | .setSound value => s.accept { m with timers := m.timers.setSound value }
  | .setPixel x y on => s.attempt ((m.screen.set x y on).map fun screen => { m with screen := screen })
  | .clearScreen => s.accept { m with screen := m.screen.clear }
  | .markShown => s.accept { m with screen := m.screen.shown }
  | .push address => s.attempt ((m.stack.push address).map fun stack => { m with stack := stack })
  | .pop => s.pop
  | .peek => s.tell m (numberOrNothing (m.stack.peek?.map fun a => (a.toNat : Int)))
  | .toggleLogging => s.toggleLogging

end Session

end ChipEight
