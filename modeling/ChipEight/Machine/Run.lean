import ChipEight.Machine.Trace

/-!
# Runs

A run is a machine on its way, with the lines it printed and the fault that stopped it, if one did. An opcode that
stands for no instruction is always reported; instructions are traced only while logging is on. A frame is one
tick of the timers and a number of cycles.
-/

namespace ChipEight

/-- A machine on its way, with what it printed and what stopped it. -/
structure Run where
  machine : Machine
  lines : Array String := #[]
  fault : Option Fault := none
deriving DecidableEq

namespace Run

/-- The lines that a cycle prints. -/
def cycleLines (logging : Bool) (before after : Machine) : Except Fault Step → List String
  | .error _ => []
  | .ok (.unknown op) => ["Unknown opcode: " ++ op.text]
  | .ok (.known instruction) => if logging then (Trace.line? before after instruction).toList else []

/-- One more cycle, whatever stopped the run before. -/
def step (logging : Bool) (r : Run) : Run :=
  let (after, result) := r.machine.cycle
  { machine := after
    lines := r.lines ++ cycleLines logging r.machine after result
    fault := match result with
      | .error fault => some fault
      | .ok _ => none }

/-- At most `n` more cycles, until a fault stops the run. -/
def go (logging : Bool) : Nat → Run → Run
  | 0, r => r
  | n + 1, r =>
    match r.fault with
    | some _ => r
    | none => go logging n (r.step logging)

end Run

namespace Machine

/-- The usual number of cycles per second. -/
def usualHertz : Nat := 720

/-- The usual number of cycles per frame. -/
def usualFrame : Nat := usualHertz / Timers.hertz

/-- Runs `n` cycles; a negative number counts as none. -/
def run (m : Machine) (logging : Bool) (n : Int) : Run := Run.go logging n.toNat { machine := m }

/-- One frame: a tick of the timers, then `n` cycles. -/
def frame (m : Machine) (logging : Bool) (n : Int) : Run := m.tick.run logging n

end Machine

end ChipEight
