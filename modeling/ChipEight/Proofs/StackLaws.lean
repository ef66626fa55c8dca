import ChipEight.ReturnStack
import Mathlib.Data.List.Basic

/-!
# Laws of the return stack

When a push or a pop is refused, and what it leaves behind: a push adds an address behind the others, a pop takes
the last one off, and neither changes the depth.
-/

namespace ChipEight.ReturnStack

theorem toNat_ofInt_of_lt {address : Int} (h0 : 0 ≤ address) (h1 : address < 65536) :
    ((UInt16.ofInt address).toNat : Int) = address := by
  obtain ⟨n, rfl⟩ := Int.eq_ofNat_of_zero_le h0
  simp [UInt16.ofInt]
  omega

theorem ext {s t : ReturnStack} (hentries : s.entries = t.entries) (hdepth : s.depth = t.depth) : s = t := by
  cases s
  cases t
  cases hentries
  cases hdepth
  rfl

theorem push_eq_ok {s t : ReturnStack} {address : Int} (h : s.push address = .ok t) :
    0 ≤ address ∧ address < 65536 ∧ s.entries.length < s.depth ∧
      t.entries = s.entries ++ [UInt16.ofInt address] ∧ t.depth = s.depth := by
  unfold push at h
  split at h
  · rename_i hlen
    split at h
    · rename_i hrange
      simp only [Except.ok.injEq] at h
      subst h
      exact ⟨hrange.1, hrange.2, hlen, rfl, rfl⟩
    · cases h
  · cases h

/-- A push of an address that fits is refused only because the stack is full. -/
theorem push_eq_error_iff {s : ReturnStack} {address : Int} (h0 : 0 ≤ address) (h1 : address < 65536)
    (fault : Fault) : s.push address = .error fault ↔ s.entries.length = s.depth ∧ fault = .stackOverflow := by
  have hle := s.length_le
  unfold push
  by_cases hlen : s.entries.length < s.depth
  · rw [dif_pos hlen, if_pos ⟨h0, h1⟩]
    constructor
    · intro h
      cases h
    · rintro ⟨h, -⟩
      omega
  · rw [dif_neg hlen]
    constructor
    · intro h
      exact ⟨by omega, (Except.error.inj h).symm⟩
    · rintro ⟨-, rfl⟩
      rfl

/-- A full stack refuses every push, whatever the address. -/
theorem push_of_full {s : ReturnStack} (h : s.entries.length = s.depth) (address : Int) :
    s.push address = .error .stackOverflow := dif_neg (by omega)

theorem push_of_outside {s : ReturnStack} {address : Int} (h : s.entries.length ≠ s.depth)
    (hrange : address < 0 ∨ 65535 < address) : s.push address = .error (.addressRange address) := by
  have hle := s.length_le
  unfold push
  rw [dif_pos (by omega), if_neg (by omega)]

theorem push_of_inside {s : ReturnStack} {address : Int} (h : s.entries.length ≠ s.depth)
    (hrange : ¬ (address < 0 ∨ 65535 < address)) :
    ∃ t : ReturnStack, s.push address = .ok t ∧ t.entries = s.entries ++ [UInt16.ofInt address] ∧
      t.depth = s.depth := by
  have hle := s.length_le
  unfold push
  rw [dif_pos (by omega), if_pos (by omega)]
  exact ⟨_, rfl, rfl, rfl⟩

theorem pop_of_nil {s : ReturnStack} (h : s.entries = []) : s.pop = .error .stackUnderflow := by
  have hlast : s.entries.getLast? = none := by rw [h, List.getLast?_nil]
  unfold pop
  split
  · rfl
  · rename_i address hsome
    rw [hlast] at hsome
    cases hsome

theorem pop_of_concat {s : ReturnStack} {older : List UInt16} {address : UInt16}
    (h : s.entries = older ++ [address]) :
    ∃ t : ReturnStack, s.pop = .ok (address, t) ∧ t.entries = older ∧ t.depth = s.depth := by
  have hlast : s.entries.getLast? = some address := by rw [h, List.getLast?_concat]
  unfold pop
  split
  · rename_i hnone
    rw [hlast] at hnone
    cases hnone
  · rename_i last hsome
    rw [hlast] at hsome
    cases hsome
    refine ⟨_, rfl, ?_, rfl⟩
    simp only [h, List.dropLast_concat]

theorem pop_eq_ok {s t : ReturnStack} {address : UInt16} (h : s.pop = .ok (address, t)) :
    s.entries = t.entries ++ [address] ∧ t.depth = s.depth := by
  rcases s.entries.eq_nil_or_concat' with hnil | ⟨older, last, hconcat⟩
  · rw [pop_of_nil hnil] at h
    cases h
  · obtain ⟨u, hu, hentries, hdepth⟩ := pop_of_concat hconcat
    rw [hu] at h
    cases h
    rw [hentries]
    exact ⟨hconcat, hdepth⟩

/-- A pop is refused only because the stack is empty. -/
theorem pop_eq_error_iff (s : ReturnStack) (fault : Fault) :
    s.pop = .error fault ↔ s.entries = [] ∧ fault = .stackUnderflow := by
  constructor
  · intro h
    rcases s.entries.eq_nil_or_concat' with hnil | ⟨older, last, hconcat⟩
    · rw [pop_of_nil hnil] at h
      exact ⟨hnil, (Except.error.inj h).symm⟩
    · obtain ⟨t, ht, -⟩ := pop_of_concat hconcat
      rw [ht] at h
      cases h
  · rintro ⟨hnil, rfl⟩
    exact pop_of_nil hnil

end ChipEight.ReturnStack
