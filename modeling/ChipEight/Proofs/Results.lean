/-!
# Results that may be faults

What lies behind a result: the one that it was made of (`Except.map_eq_ok`, `Except.map_eq_error_iff`), and the first
or the last of several steps (`Except.foldlM_cons_eq_ok`, `Except.foldlM_concat_eq_ok`).
-/

namespace Except

variable {ε α β : Type}

theorem map_eq_ok {f : α → β} {r : Except ε α} {b : β} (h : r.map f = .ok b) : ∃ a, r = .ok a ∧ f a = b := by
  cases r with
  | error e => cases h
  | ok a => exact ⟨a, rfl, Except.ok.inj h⟩

theorem map_eq_error_iff {f : α → β} {r : Except ε α} {e : ε} : r.map f = .error e ↔ r = .error e := by
  cases r with
  | error e' =>
    constructor
    · intro h
      exact congrArg _ (Except.error.inj h)
    · intro h
      exact congrArg _ (Except.error.inj h)
  | ok a =>
    constructor
    · intro h
      cases h
    · intro h
      cases h

theorem foldlM_cons_eq_ok {step : β → α → Except ε β} {s t : β} {a : α} {as : List α}
    (h : (a :: as).foldlM step s = .ok t) : ∃ next, step s a = .ok next ∧ as.foldlM step next = .ok t := by
  rw [List.foldlM_cons] at h
  cases hfirst : step s a with
  | error e =>
    rw [hfirst] at h
    cases h
  | ok next =>
    rw [hfirst] at h
    exact ⟨next, rfl, h⟩

theorem foldlM_concat_eq_ok {step : β → α → Except ε β} {s t : β} {a : α} {as : List α}
    (h : (as ++ [a]).foldlM step s = .ok t) : ∃ last, as.foldlM step s = .ok last ∧ step last a = .ok t := by
  rw [List.foldlM_append] at h
  cases hbefore : as.foldlM step s with
  | error e =>
    rw [hbefore] at h
    cases h
  | ok last =>
    rw [hbefore] at h
    change (step last a >>= pure) = .ok t at h
    rw [bind_pure] at h
    exact ⟨last, rfl, h⟩

end Except
