import ChipEight.Machine.Execute

/-!
# Cycles

A cycle reads the opcode at the counter, moves the counter past it, and executes the instruction it stands for. An
opcode that stands for none is passed over. A cycle is counted even if a fault ends it; a fault of reading leaves
the counter, a fault of an instruction leaves it behind the opcode.
-/

namespace ChipEight

/-- What a cycle came upon. -/
inductive Step where
  | unknown (op : Opcode)
  | known (instruction : Instruction)
deriving DecidableEq

namespace Machine

/-- The opcode at the counter. -/
def fetch (m : Machine) : Except Fault Opcode :=
  if Memory.Fits m.counter 2 then
    let address := m.counter.toNat
    .ok (Opcode.ofBytes (m.memory.byteAt address).toNat (m.memory.byteAt (address + 1)).toNat)
  else .error (.memoryBounds m.counter 2)

/-- The machine with one more cycle begun. -/
def count (m : Machine) : Machine := { m with cycles := m.cycles + 1 }

/-- The machine with its counter past the opcode. -/
def pass (m : Machine) : Machine := { m with counter := m.counter + 2 }

/-- One cycle: the machine after it, and what it came upon or why it failed. -/
def cycle (m : Machine) : Machine × Except Fault Step :=
  match m.fetch with
  | .error fault => (m.count, .error fault)
  | .ok op =>
    match Instruction.decode? op with
    | none => (m.count.pass, .ok (.unknown op))
    | some instruction =>
      match m.count.pass.execute instruction with
      | .error fault => (m.count.pass, .error fault)
      | .ok after => (after, .ok (.known instruction))

end Machine

end ChipEight
