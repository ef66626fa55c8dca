import ChipEight.Fault

/-!
# Positions along an axis

A position on an axis of `size` places is a number from 0, or a negative number counting back from the end.
-/

namespace ChipEight

/-- The vector with another element at a place. -/
def setAt {α : Type} {n : Nat} (xs : Vector α n) (i : Fin n) (a : α) : Vector α n := xs.set i a

private theorem toNat_lt {size : Nat} {index : Int} (h : 0 ≤ index ∧ index < size) : index.toNat < size := by
  omega

private theorem toNat_add_lt {size : Nat} {index : Int} (h : -(size : Int) ≤ index ∧ index < 0) :
    (index + size).toNat < size := by
  omega

/-- The place that an index means on an axis; the number of the axis is for the report only. -/
def position (axis size : Nat) (index : Int) : Except Fault (Fin size) :=
  if h : 0 ≤ index ∧ index < size then .ok ⟨index.toNat, toNat_lt h⟩
  else if h : -(size : Int) ≤ index ∧ index < 0 then .ok ⟨(index + size).toNat, toNat_add_lt h⟩
  else .error (.indexBounds index axis size)

end ChipEight
