import ChipEight.Memory
import Mathlib.Logic.Basic

/-!
# Laws of memory

What a read returns, and what a write leaves as it was: a read that is not refused returns as many bytes as were asked
for, those at the addresses from the first one on (`read_of_fits`), and a write puts its bytes at the addresses from
the first one on (`byteAt_put_of_fits`) and changes no byte outside the run of cells that it names.
-/

namespace ChipEight.Memory

variable {m written : Memory} {address : Int}

theorem fits_of_le {count : Nat} (h0 : 0 ≤ address) (h1 : address + count ≤ 4096) : Fits address count := ⟨h0, h1⟩

theorem not_fits_iff {count : Int} : ¬ Fits address count ↔ address < 0 ∨ address + count > 4096 := by
  have hsize : (size : Int) = 4096 := rfl
  constructor
  · intro h
    by_cases h0 : address < 0
    · exact .inl h0
    · have h1 : ¬ address + count ≤ size := fun h1 => h ⟨by omega, h1⟩
      exact .inr (by omega)
  · rintro hout ⟨h0, h1⟩
    omega

theorem accessStop_of_nonneg (h : 0 ≤ address) (count : Nat) : accessStop address count = address.toNat + count := by
  unfold accessStop
  rw [if_neg (by omega)]
  omega

theorem exists_read (m : Memory) {count : Nat} (h : Fits address count) : ∃ values, m.read address count = .ok values :=
  ⟨_, if_pos h⟩

theorem byteAt_put (m : Memory) {start other : Nat} {values : List UInt8}
    (h : other < start ∨ start + values.length ≤ other) : (m.put start values).byteAt other = m.byteAt other := by
  induction values generalizing m start with
  | nil => rfl
  | cons b values ih =>
    rw [List.length_cons] at h
    have hne : start ≠ other := by omega
    rw [put, ih _ (by omega)]
    unfold byteAt
    rw [Vector.getElem?_setIfInBounds_ne hne]

theorem byteAt_store {values : List UInt8} (h : m.store address values = .ok written) {other : Nat}
    (hother : ¬ (address ≤ other ∧ other < address + values.length)) : written.byteAt other = m.byteAt other := by
  unfold store at h
  split at h
  · rename_i hfits
    have h0 := hfits.1
    rw [← Except.ok.inj h]
    exact byteAt_put m (by omega)
  · cases h

/-! ### Byte by byte -/

theorem byteAt_setIfInBounds (m : Memory) {start : Nat} (h : start < 4096) (b : UInt8) (address : Nat) :
    byteAt ⟨m.bytes.setIfInBounds start b⟩ address = if address = start then b else m.byteAt address := by
  unfold byteAt
  by_cases heq : address = start
  · subst heq
    rw [if_pos rfl, Vector.getElem?_setIfInBounds_self_of_lt h, Option.getD_some]
  · rw [if_neg heq, Vector.getElem?_setIfInBounds_ne (Ne.symm heq)]

/-- Bytes that fit are found at the addresses from `start` on, and all others are as they were. -/
theorem byteAt_put_of_fits (m : Memory) {start : Nat} {values : List UInt8} (h : start + values.length ≤ 4096)
    (address : Nat) :
    (m.put start values).byteAt address =
      if start ≤ address then values[address - start]?.getD (m.byteAt address) else m.byteAt address := by
  induction values generalizing m start with
  | nil =>
    rw [put, List.getElem?_nil, Option.getD_none, ite_self]
  | cons b values ih =>
    rw [List.length_cons] at h
    rw [put, ih _ (by omega), byteAt_setIfInBounds m (by omega)]
    rcases Nat.lt_trichotomy address start with hlt | rfl | hgt
    · have hne : address ≠ start := by omega
      rw [if_neg (by omega), if_neg hne, if_neg (by omega)]
    · rw [if_neg (by omega), if_pos rfl, if_pos (Nat.le_refl _), Nat.sub_self]
      rfl
    · have hne : address ≠ start := by omega
      have hoffset : address - start = address - (start + 1) + 1 := by omega
      rw [if_pos (by omega), if_neg hne, if_pos (by omega), hoffset, List.getElem?_cons_succ]

theorem between_eq_map (m : Memory) {start count : Nat} (h : start + count ≤ 4096) :
    m.between start (start + count) = (List.range count).map fun i => m.byteAt (start + i) := by
  apply List.ext_getElem?
  intro i
  by_cases hi : i < count
  · have hlt : start + i < 4096 := by omega
    simp [between, byteAt, hlt, hi]
  · have hlength : (m.between start (start + count)).length ≤ i := by
      simp only [between, Array.length_toList, Array.size_extract, Vector.size_toArray]
      omega
    rw [List.getElem?_eq_none hlength, List.getElem?_eq_none (by rw [List.length_map, List.length_range]; omega)]

theorem read_of_fits (m : Memory) {count : Nat} (h : Fits address count) :
    m.read address count = .ok ((List.range count).map fun i => m.byteAt (address.toNat + i)) := by
  obtain ⟨h0, h1⟩ := id h
  have hsize : (size : Int) = 4096 := rfl
  unfold read
  rw [if_pos h, accessStop_of_nonneg h0, between_eq_map m (by omega)]

theorem read_of_not_fits (m : Memory) {count : Nat} (h : ¬ Fits address count) :
    m.read address count = .error (.memoryBounds address count) := if_neg h

theorem length_read {count : Nat} {values : List UInt8} (h : m.read address count = .ok values) :
    values.length = count := by
  by_cases hfits : Fits address count
  · rw [read_of_fits m hfits] at h
    rw [← Except.ok.inj h, List.length_map, List.length_range]
  · rw [read_of_not_fits m hfits] at h
    cases h

/-- Bytes that fit are what is read from where they were put. -/
theorem read_put (m : Memory) {start : Nat} {values : List UInt8} (h : start + values.length ≤ 4096) :
    (m.put start values).read start values.length = .ok values := by
  rw [read_of_fits _ (fits_of_le (by omega) (by omega)), Int.toNat_natCast]
  refine congrArg Except.ok (List.ext_getElem ?_ fun i hi hi' => ?_)
  · rw [List.length_map, List.length_range]
  · have hoffset : start + i - start = i := by omega
    rw [List.getElem_map, List.getElem_range, byteAt_put_of_fits m h, if_pos (by omega), hoffset,
      List.getElem?_eq_getElem hi', Option.getD_some]

/-- Bytes that are put behind the place of a read are none of those that are read. -/
theorem read_put_of_le (m : Memory) {start count behind : Nat} {values : List UInt8} (h : start + count ≤ behind) :
    (m.put behind values).read start count = m.read start count := by
  by_cases hfits : Fits (start : Int) count
  · rw [read_of_fits _ hfits, read_of_fits _ hfits, Int.toNat_natCast]
    refine congrArg Except.ok (List.map_congr_left fun i hi => ?_)
    rw [List.mem_range] at hi
    exact byteAt_put m (by omega)
  · rw [read_of_not_fits _ hfits, read_of_not_fits _ hfits]

/-- The byte that memory holds at an address when a machine is switched on. -/
def initialByte (address : Nat) : UInt8 :=
  if 0x50 ≤ address ∧ address < 0xA0 then Font.rows.getD (address - 0x50) 0 else 0

theorem byteAt_fresh (address : Nat) : fresh.byteAt address = initialByte address := by
  have hbytes : fresh.bytes[address]? =
      (List.replicate 0x50 0 ++ Font.rows ++ List.replicate (4096 - 0xA0) (0 : UInt8))[address]? := by
    rw [← Vector.getElem?_toList]
    rfl
  have hrows : Font.rows.length = 0x50 := rfl
  unfold byteAt initialByte
  rw [hbytes, List.append_assoc]
  by_cases hlow : address < 0x50
  · rw [if_neg (by omega), List.getElem?_append_left (by rwa [List.length_replicate]), List.getElem?_replicate,
      if_pos hlow, Option.getD_some]
  · rw [List.getElem?_append_right (by rw [List.length_replicate]; omega), List.length_replicate]
    by_cases hhigh : address < 0xA0
    · rw [if_pos ⟨by omega, hhigh⟩, List.getElem?_append_left (by omega)]
      rfl
    · rw [if_neg (by omega), List.getElem?_append_right (by omega), List.getElem?_replicate]
      split <;> rfl

end ChipEight.Memory
