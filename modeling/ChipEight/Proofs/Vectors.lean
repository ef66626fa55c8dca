import ChipEight.Position
import Mathlib.Data.List.Basic

/-!
# Vectors, tables and lists taken apart

Registers, keys and rows of the screen are vectors that are read with `get` and written with `setAt`. What one says
about the other is `get_setAt`; the place that a number in range means is `position_val`. A table of pairs is read from
its first entry on (`lookup_cons_ite`), and a list of events from its last event back (`split_concat_iff`,
`since_concat`).
-/

namespace ChipEight

theorem get_eq_getElem {α : Type} {n : Nat} (xs : Vector α n) (i : Fin n) :
    xs.get i = getElem xs i.val i.isLt := rfl

theorem get_setAt {α : Type} {n : Nat} (xs : Vector α n) (i j : Fin n) (a : α) :
    (setAt xs i a).get j = if j = i then a else xs.get j := by
  rw [get_eq_getElem, get_eq_getElem]
  by_cases h : j = i
  · subst h
    simp [setAt]
  · have hval : i.val ≠ j.val := fun he => h (Fin.ext he.symm)
    simp [setAt, h, hval]

@[simp] theorem setAt_setAt {α : Type} {n : Nat} (xs : Vector α n) (i : Fin n) (a b : α) :
    setAt (setAt xs i a) i b = setAt xs i b := by
  simp [setAt]

theorem position_val (axis : Nat) {size : Nat} (i : Fin size) : position axis size (i.val : Int) = .ok i := by
  have h : 0 ≤ (i.val : Int) ∧ (i.val : Int) < size := by omega
  simp only [position, h, and_self, dite_true, Int.toNat_natCast]

theorem lookup_cons_ite {κ α : Type} [DecidableEq κ] (key first : κ) (a : α) (table : List (κ × α)) :
    ((first, a) :: table).lookup key = if key = first then some a else table.lookup key := by
  by_cases h : key = first
  · rw [if_pos h, h, List.lookup_cons_self]
  · rw [if_neg h, List.lookup_cons, beq_false_of_ne h]

/-- A list with one more element is split there, or the element has the property of all that come later and the list
was split before. -/
theorem split_concat_iff {α : Type} {p : α → Prop} {xs earlier : List α} {x a : α} :
    (∃ later, xs ++ [x] = earlier ++ a :: later ∧ ∀ b ∈ later, p b) ↔
      (earlier = xs ∧ x = a) ∨ (p x ∧ ∃ later, xs = earlier ++ a :: later ∧ ∀ b ∈ later, p b) := by
  constructor
  · rintro ⟨later, heq, hlater⟩
    rcases List.eq_nil_or_concat' later with rfl | ⟨later, last, rfl⟩
    · obtain ⟨rfl, hlast⟩ := List.append_inj' heq rfl
      exact .inl ⟨rfl, List.singleton_inj.1 hlast⟩
    · rw [← List.cons_append, ← List.append_assoc] at heq
      obtain ⟨hxs, hlast⟩ := List.append_inj' heq rfl
      rw [List.forall_mem_append, ← hlast, List.forall_mem_singleton] at hlater
      exact .inr ⟨hlater.2, later, hxs, hlater.1⟩
  · rintro (⟨rfl, rfl⟩ | ⟨hx, later, rfl, hlater⟩)
    · exact ⟨[], rfl, nofun⟩
    · refine ⟨later ++ [x], by rw [List.append_assoc, List.cons_append], ?_⟩
      rw [List.forall_mem_append, List.forall_mem_singleton]
      exact ⟨hlater, hx⟩

/-- A list with one more element has `a` somewhere, and since then neither `b` nor `c`. -/
theorem since_concat {α : Type} {xs : List α} {x a b c : α} :
    (∃ earlier later, xs ++ [x] = earlier ++ a :: later ∧ b ∉ later ∧ c ∉ later) ↔
      x = a ∨ (∃ earlier later, xs = earlier ++ a :: later ∧ b ∉ later ∧ c ∉ later) ∧ x ≠ b ∧ x ≠ c := by
  simp only [← List.forall_mem_ne', ← forall₂_and, split_concat_iff]
  constructor
  · rintro ⟨earlier, ⟨-, hx⟩ | ⟨hx, hsince⟩⟩
    · exact .inl hx
    · exact .inr ⟨⟨earlier, hsince⟩, hx⟩
  · rintro (hx | ⟨⟨earlier, hsince⟩, hx⟩)
    · exact ⟨xs, .inl ⟨rfl, hx⟩⟩
    · exact ⟨earlier, .inr ⟨hx, hsince⟩⟩

end ChipEight
