import ChipEight.Fault

/-!
# The return stack

A bounded list of 16-bit return addresses, the oldest first.
-/

namespace ChipEight

/-- Return addresses, the oldest first, at most `depth` of them. -/
structure ReturnStack where
  depth : Nat
  entries : List UInt16
  length_le : entries.length ≤ depth
deriving DecidableEq

namespace ReturnStack

/-- The depth of a machine's stack. -/
def standardDepth : Nat := 16

/-- The empty stack with room for `depth` addresses. -/
def empty (depth : Nat) : ReturnStack := ⟨depth, [], Nat.zero_le _⟩

/-- The empty stack of a depth given as an integer. -/
def ofDepth (depth : Int) : Except Fault ReturnStack :=
  if depth < 0 then .error .negativeDepth else .ok (empty depth.toNat)

private theorem length_push_le {entries : List UInt16} {depth : Nat} (a : UInt16) (h : entries.length < depth) :
    (entries ++ [a]).length ≤ depth := by
  rw [List.length_append]
  exact h

private theorem length_dropLast_le {entries : List UInt16} {depth : Nat} (h : entries.length ≤ depth) :
    entries.dropLast.length ≤ depth := by
  rw [List.length_dropLast]
  exact Nat.le_trans (Nat.sub_le _ _) h

/-- Adds an address; that the stack is full comes before a fault of the address. -/
def push (s : ReturnStack) (address : Int) : Except Fault ReturnStack :=
  if h : s.entries.length < s.depth then
    if 0 ≤ address ∧ address < 65536 then
      .ok ⟨s.depth, s.entries ++ [UInt16.ofInt address], length_push_le _ h⟩
    else .error (.addressRange address)
  else .error .stackOverflow

/-- Takes the youngest address off. -/
def pop (s : ReturnStack) : Except Fault (UInt16 × ReturnStack) :=
  match s.entries.getLast? with
  | none => .error .stackUnderflow
  | some address => .ok (address, ⟨s.depth, s.entries.dropLast, length_dropLast_le s.length_le⟩)

/-- The youngest address. -/
def peek? (s : ReturnStack) : Option UInt16 := s.entries.getLast?

end ReturnStack

end ChipEight
