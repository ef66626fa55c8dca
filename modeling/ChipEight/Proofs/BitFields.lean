import ChipEight.Proofs.Words
import Mathlib.Data.Int.Bitwise
import Mathlib.Tactic.Ring

/-!
# Fields of fields

An integer is an infinite row of bits in two's complement, and a slice is a piece of that row. What a slice and a
joined number are is said bit by bit (`testBit_field`, `testBit_above`), for negative numbers as well, and all else
follows from that: a piece cut by a mask and a number put together by a bitwise "or" are the same as by division and
addition (`masked_eq_field`, `overlaid_eq_above`), adjacent pieces make up a longer one (`field_add`), a piece of a
piece is a piece (`field_field`), and a joined number falls into its two parts again (`field_above_low`,
`field_above_high`).
-/

namespace ChipEight.Bits

/-- Bits `[start, stop)` lie inside a word of `width` bits. The word has a bit at `start` even if there are none to
cut. -/
def Inside (start stop width : Int) : Prop := 0 ≤ start ∧ start ≤ stop ∧ start < width ∧ stop ≤ width

/-- Bits `[start, stop)` of `value` as a mask cuts them out. -/
def masked (value : Int) (start stop : Nat) : Int := Int.land (value >>> start) ((weight (stop - start) : Int) - 1)

/-- The number with `high` above the `lowWidth` bits of a low part. -/
def above (high : Int) (low lowWidth : Nat) : Int := high * weight lowWidth + low

/-- The number with `high` above the lowest `lowWidth` bits of `low`, put together by a bitwise "or". -/
def overlaid (high low : Int) (lowWidth : Nat) : Int := Int.lor (high <<< lowWidth) (masked low 0 lowWidth)

theorem weight_eq (i : Nat) : weight i = 2 ^ i := Nat.one_shiftLeft i

/-! ### Bit by bit -/

theorem testBit_natCast (n i : Nat) : (n : Int).testBit i = n.testBit i := rfl

theorem testBit_shiftRight (value : Int) (start i : Nat) : (value >>> start).testBit i = value.testBit (start + i) := by
  cases value with
  | ofNat n => exact Nat.testBit_shiftRight n
  | negSucc n => exact congrArg (!·) (Nat.testBit_shiftRight n)

/-- Integers with the same bits are equal. The bits far up tell negative from other numbers. -/
theorem eq_of_testBit_eq {a b : Int} (h : ∀ i, a.testBit i = b.testBit i) : a = b := by
  have hfar : ∀ m n : Nat, ∃ i, m.testBit i = false ∧ n.testBit i = false := by
    intro m n
    have hm : m < 2 ^ (m + n) := Nat.lt_of_lt_of_le (Nat.lt_two_pow_self) (Nat.pow_le_pow_right (by omega) (by omega))
    have hn : n < 2 ^ (m + n) := Nat.lt_of_lt_of_le (Nat.lt_two_pow_self) (Nat.pow_le_pow_right (by omega) (by omega))
    exact ⟨m + n, Nat.testBit_lt_two_pow hm, Nat.testBit_lt_two_pow hn⟩
  cases a with
  | ofNat m =>
    cases b with
    | ofNat n => exact congrArg Int.ofNat (Nat.eq_of_testBit_eq h)
    | negSucc n =>
      obtain ⟨i, hm, hn⟩ := hfar m n
      have hi : m.testBit i = !n.testBit i := h i
      rw [hm, hn] at hi
      cases hi
  | negSucc m =>
    cases b with
    | ofNat n =>
      obtain ⟨i, hm, hn⟩ := hfar m n
      have hi : (!m.testBit i) = n.testBit i := h i
      rw [hm, hn] at hi
      cases hi
    | negSucc n => exact congrArg Int.negSucc (Nat.eq_of_testBit_eq fun i => Bool.not_inj (h i))

/-- The lowest bits of an integer as a natural number. -/
private theorem testBit_toNat_emod (value : Int) (count i : Nat) :
    (value % (2 ^ count : Nat)).toNat.testBit i = (decide (i < count) && value.testBit i) := by
  have hpos : 0 < 2 ^ count := Nat.two_pow_pos count
  cases value with
  | ofNat n =>
    have hrest : (Int.ofNat n % (2 ^ count : Nat)).toNat = n % 2 ^ count := rfl
    rw [hrest, Nat.testBit_mod_two_pow]
    rfl
  | negSucc n =>
    -- the row of a negative number is the negation of a row of a natural number
    have hlt := Nat.mod_lt n hpos
    have hrest : (Int.negSucc n % (2 ^ count : Nat)).toNat = 2 ^ count - (n % 2 ^ count + 1) := by
      rw [Int.negSucc_emod n (by omega)]
      omega
    rw [hrest, Nat.testBit_two_pow_sub_succ hlt, Nat.testBit_mod_two_pow]
    have hbit : (Int.negSucc n).testBit i = !n.testBit i := rfl
    rw [hbit]
    by_cases hi : i < count <;> simp [hi]

/-- A field has the bits from `start` on, and none beyond its width. -/
theorem testBit_field (value : Int) (start stop i : Nat) :
    (field value start stop).testBit i = (decide (i < stop - start) && value.testBit (start + i)) := by
  unfold field
  rw [weight_eq, testBit_toNat_emod, testBit_shiftRight]

/-- The bits of a low part come first, and then those of the number above it. -/
theorem testBit_above (high : Int) {low lowWidth : Nat} (hlow : low < 2 ^ lowWidth) (i : Nat) :
    (above high low lowWidth).testBit i = if i < lowWidth then low.testBit i else high.testBit (i - lowWidth) := by
  unfold above
  rw [weight_eq]
  cases high with
  | ofNat n =>
    have hsum : Int.ofNat n * (2 ^ lowWidth : Nat) + low = ((2 ^ lowWidth * n + low : Nat) : Int) := by
      rw [Int.ofNat_eq_natCast, Int.natCast_add, Int.natCast_mul, Int.mul_comm]
    rw [hsum, testBit_natCast, Nat.testBit_two_pow_mul_add n hlow]
    rfl
  | negSucc n =>
    -- negated, the bits of the low part are those of what it lacks to `2 ^ lowWidth - 1`
    have hrest : 2 ^ lowWidth - (low + 1) < 2 ^ lowWidth := by omega
    have hsum : Int.negSucc n * (2 ^ lowWidth : Nat) + low =
        Int.negSucc (2 ^ lowWidth * n + (2 ^ lowWidth - (low + 1))) := by
      rw [Int.negSucc_eq, Int.negSucc_eq, Int.natCast_add, Int.natCast_mul, Int.natCast_sub (by omega)]
      push_cast
      ring
    have hbit : ∀ k j : Nat, (Int.negSucc k).testBit j = !k.testBit j := fun k j => rfl
    rw [hsum, hbit, hbit, Nat.testBit_two_pow_mul_add n hrest, Nat.testBit_two_pow_sub_succ hlow]
    split
    · rename_i hi
      simp [hi]
    · rfl

/-! ### Masks and bitwise "or" -/

theorem masked_eq_field (value : Int) (start stop : Nat) : masked value start stop = field value start stop := by
  have hmask : (weight (stop - start) : Int) - 1 = ((2 ^ (stop - start) - 1 : Nat) : Int) := by
    have hpos : 0 < 2 ^ (stop - start) := Nat.two_pow_pos _
    rw [weight_eq]
    omega
  apply eq_of_testBit_eq
  intro i
  unfold masked
  rw [hmask, Int.testBit_land, testBit_natCast, testBit_natCast, Nat.testBit_two_pow_sub_one, testBit_field,
    testBit_shiftRight, Bool.and_comm]

theorem overlaid_eq_above (high low : Int) (lowWidth : Nat) :
    overlaid high low lowWidth = above high (field low 0 lowWidth) lowWidth := by
  have hlt : field low 0 lowWidth < 2 ^ lowWidth := field_lt low 0 lowWidth
  have hshift : high <<< lowWidth = above high 0 lowWidth := by
    rw [above, weight_eq, Int.shiftLeft_eq, Int.natCast_pow, Int.natCast_zero, Int.add_zero]
    rfl
  apply eq_of_testBit_eq
  intro i
  unfold overlaid
  rw [masked_eq_field, Int.testBit_lor, hshift, testBit_above high (Nat.two_pow_pos lowWidth), testBit_natCast,
    testBit_above high hlt, testBit_field]
  by_cases hi : i < lowWidth
  · rw [if_pos hi, if_pos hi, Nat.zero_testBit, Bool.false_or]
  · rw [if_neg hi, if_neg hi, Nat.sub_zero, decide_eq_false hi, Bool.false_and, Bool.or_false]

/-! ### Fields and numbers -/

theorem natCast_field (value : Int) (start stop : Nat) :
    (field value start stop : Int) = value / 2 ^ start % 2 ^ (stop - start) := by
  have hpos : (0 : Int) < 2 ^ (stop - start) := Int.pow_pos (by omega)
  unfold field
  rw [weight_eq, Int.shiftRight_eq_div_pow]
  push_cast
  exact Int.toNat_of_nonneg (Int.emod_nonneg _ (by omega))

/-- Two adjacent fields make up one. -/
theorem field_add (value : Int) {start middle stop : Nat} (hle : start ≤ middle) (hle' : middle ≤ stop) :
    field value start stop = field value start middle + 2 ^ (middle - start) * field value middle stop := by
  have hlt := field_lt value start middle
  apply Nat.eq_of_testBit_eq
  intro i
  rw [Nat.add_comm, Nat.testBit_two_pow_mul_add _ hlt, testBit_field, testBit_field, testBit_field]
  by_cases hi : i < middle - start
  · have hi' : i < stop - start := by omega
    rw [if_pos hi, decide_eq_true hi, decide_eq_true hi']
  · have hplace : middle + (i - (middle - start)) = start + i := by omega
    have hend : (i - (middle - start) < stop - middle) = (i < stop - start) := by
      rw [eq_iff_iff]
      omega
    rw [if_neg hi, hplace]
    simp only [hend]

/-- A field of a field is a field. -/
theorem field_field (value : Int) {start stop first last : Nat} (h : last ≤ stop - start) :
    field (field value start stop) first last = field value (start + first) (start + last) := by
  have hwidth : start + last - (start + first) = last - first := by omega
  apply Nat.eq_of_testBit_eq
  intro i
  rw [testBit_field, testBit_natCast, testBit_field, testBit_field, hwidth, Nat.add_assoc]
  by_cases hi : i < last - first
  · have hi' : first + i < stop - start := by omega
    rw [decide_eq_true hi', Bool.true_and]
  · rw [decide_eq_false hi, Bool.false_and, Bool.false_and]

theorem field_above_low (high : Int) {low lowWidth : Nat} (hlow : low < 2 ^ lowWidth) :
    field (above high low lowWidth) 0 lowWidth = low := by
  apply Nat.eq_of_testBit_eq
  intro i
  rw [testBit_field, Nat.zero_add, testBit_above high hlow]
  by_cases hi : i < lowWidth
  · rw [if_pos hi, Nat.sub_zero, decide_eq_true hi, Bool.true_and]
  · have hpow : 2 ^ lowWidth ≤ 2 ^ i := Nat.pow_le_pow_right (by omega) (by omega)
    rw [Nat.sub_zero, decide_eq_false hi, Bool.false_and, Nat.testBit_lt_two_pow (Nat.lt_of_lt_of_le hlow hpow)]

theorem field_above_high (high : Int) {low lowWidth : Nat} (hlow : low < 2 ^ lowWidth) (width : Nat) :
    field (above high low lowWidth) lowWidth width = field high 0 (width - lowWidth) := by
  apply Nat.eq_of_testBit_eq
  intro i
  have hbeyond : ¬ lowWidth + i < lowWidth := by omega
  rw [testBit_field, testBit_above high hlow, if_neg hbeyond, Nat.add_sub_cancel_left, testBit_field, Nat.zero_add,
    Nat.sub_zero]

/-! ### Slices -/

theorem slice_eq_error_iff (value start stop width : Int) (fault : Fault) :
    slice value start stop width = .error fault ↔
      fault = .bitRange start stop width ∧ (start < 0 ∨ start > stop ∨ start ≥ width ∨ stop > width) := by
  unfold slice
  split
  · rename_i hout
    constructor
    · intro h
      exact ⟨(Except.error.inj h).symm, hout⟩
    · rintro ⟨rfl, -⟩
      rfl
  · rename_i hin
    constructor
    · intro h
      cases h
    · rintro ⟨-, hout⟩
      exact absurd hout hin

theorem slice_of_inside (value : Int) {start stop width : Int} (h : Inside start stop width) :
    slice value start stop width = .ok (field value start.toNat stop.toNat) := by
  obtain ⟨h0, h1, h2, h3⟩ := h
  exact if_neg (by omega)

theorem join_of_pos (high low : Int) {lowWidth : Int} (h : 1 ≤ lowWidth) :
    join high low lowWidth = .ok (above high (field low 0 lowWidth.toNat) lowWidth.toNat) := by
  have hinside : Inside 0 lowWidth lowWidth := ⟨by omega, by omega, by omega, by omega⟩
  unfold join
  rw [if_neg (by omega), slice_of_inside low hinside]
  rfl

/-- A slice that does not lie inside its word is refused, and any other is what division and remainder give, or a shift
and a mask. Adjacent slices make up a longer one, and a slice of a slice is a slice. What is joined, by a shift and a
bitwise "or", is cut apart again. All this holds of integers of any size and sign. -/
theorem slices_compose :
    (∀ value start stop width : Int,
      (∀ fault, slice value start stop width = .error fault ↔
        fault = .bitRange start stop width ∧ (start < 0 ∨ start > stop ∨ start ≥ width ∨ stop > width)) ∧
      (Inside start stop width → ∃ piece : Nat, slice value start stop width = .ok piece ∧
        (piece : Int) = value / 2 ^ start.toNat % 2 ^ (stop - start).toNat ∧
        (piece : Int) = masked value start.toNat stop.toNat)) ∧
    (∀ value start middle stop width : Int,
      0 ≤ start → start ≤ middle → middle ≤ stop → stop ≤ width → middle < width →
      ∃ whole low high : Nat, slice value start stop width = .ok whole ∧
        slice value start middle width = .ok low ∧ slice value middle stop width = .ok high ∧
        whole = low + 2 ^ (middle - start).toNat * high) ∧
    (∀ value start stop width first last : Int, Inside start stop width → Inside first last (stop - start) →
      ∃ outer inner : Nat, slice value start stop width = .ok outer ∧
        slice outer first last (stop - start) = .ok inner ∧
        slice value (start + first) (start + last) width = .ok inner) ∧
    (∀ high low lowWidth width : Int, 1 ≤ lowWidth → lowWidth < width →
      ∃ (word : Int) (lower upper : Nat), join high low lowWidth = .ok word ∧ word = overlaid high low lowWidth.toNat ∧
        slice word 0 lowWidth width = .ok lower ∧ (lower : Int) = low % 2 ^ lowWidth.toNat ∧
        slice word lowWidth width width = .ok upper ∧ (upper : Int) = high % 2 ^ (width - lowWidth).toNat) := by
  refine ⟨fun value start stop width => ⟨slice_eq_error_iff value start stop width, fun hinside => ?_⟩, ?_, ?_, ?_⟩
  · have hlength : (stop - start).toNat = stop.toNat - start.toNat := by
      obtain ⟨h0, h1, -, -⟩ := hinside
      omega
    refine ⟨_, slice_of_inside value hinside, ?_, (masked_eq_field value _ _).symm⟩
    rw [natCast_field, hlength]
  · intro value start middle stop width h0 h1 h2 h3 h4
    have hwhole : Inside start stop width := ⟨by omega, by omega, by omega, by omega⟩
    have hlow : Inside start middle width := ⟨by omega, by omega, by omega, by omega⟩
    have hhigh : Inside middle stop width := ⟨by omega, by omega, by omega, by omega⟩
    have hlength : (middle - start).toNat = middle.toNat - start.toNat := by omega
    refine ⟨_, _, _, slice_of_inside value hwhole, slice_of_inside value hlow, slice_of_inside value hhigh, ?_⟩
    rw [hlength]
    exact field_add value (by omega) (by omega)
  · intro value start stop width first last houter hinner
    have hdirect : Inside (start + first) (start + last) width := by
      obtain ⟨h0, h1, h2, h3⟩ := houter
      obtain ⟨h0', h1', h2', h3'⟩ := hinner
      exact ⟨by omega, by omega, by omega, by omega⟩
    have hpiece : field (field value start.toNat stop.toNat) first.toNat last.toNat =
        field value (start + first).toNat (start + last).toNat := by
      obtain ⟨h0, h1, -, -⟩ := houter
      obtain ⟨h0', h1', -, h3'⟩ := hinner
      have hfirst : (start + first).toNat = start.toNat + first.toNat := by omega
      have hlast : (start + last).toNat = start.toNat + last.toNat := by omega
      rw [hfirst, hlast]
      exact field_field value (by omega)
    refine ⟨_, _, slice_of_inside value houter, slice_of_inside _ hinner, ?_⟩
    rw [slice_of_inside value hdirect, hpiece]
  · intro high low lowWidth width hpos hlt
    have hlow : field low 0 lowWidth.toNat < 2 ^ lowWidth.toNat := field_lt low 0 lowWidth.toNat
    have hlower : Inside 0 lowWidth width := ⟨by omega, by omega, by omega, by omega⟩
    have hupper : Inside lowWidth width width := ⟨by omega, by omega, by omega, by omega⟩
    have hlength : (width - lowWidth).toNat = width.toNat - lowWidth.toNat := by omega
    refine ⟨_, _, _, join_of_pos high low hpos, (overlaid_eq_above high low _).symm, slice_of_inside _ hlower, ?_,
      slice_of_inside _ hupper, ?_⟩
    · rw [Int.toNat_zero, field_above_low high hlow, natCast_field, pow_zero, Int.ediv_one, Nat.sub_zero]
    · rw [field_above_high high hlow, natCast_field, pow_zero, Int.ediv_one, Nat.sub_zero, hlength]

/-- Minus 2 stands above the byte 0x34, and the digits of the word are cut out of its upper part. -/
theorem slices_compose_negative :
    (1 : Int) ≤ 8 ∧ (8 : Int) < 16 ∧ Inside 8 16 16 ∧ Inside 4 8 (16 - 8) ∧
      (∃ word : Int, join (-2) 0x34 8 = .ok word ∧ slice word 0 8 16 = .ok 0x34 ∧ slice word 8 16 16 = .ok 0xFE) ∧
      ∃ outer : Nat, slice (-460) 8 16 16 = .ok outer ∧ slice outer 4 8 (16 - 8) = slice (-460) 12 16 16 := by
  have houter : Inside 8 16 16 := ⟨by decide, by decide, by decide, by decide⟩
  have hinner : Inside 4 8 (16 - 8) := ⟨by decide, by decide, by decide, by decide⟩
  obtain ⟨-, -, hnested, hjoined⟩ := slices_compose
  obtain ⟨word, lower, upper, hword, -, hlower, hlowerEq, hupper, hupperEq⟩ :=
    hjoined (-2) 0x34 8 16 (by decide) (by decide)
  obtain ⟨outer, inner, hslice, hnest, hdirect⟩ := hnested (-460) 8 16 16 4 8 houter hinner
  have hlow : lower = 0x34 := Int.ofNat.inj hlowerEq
  have hhigh : upper = 0xFE := Int.ofNat.inj hupperEq
  rw [hlow] at hlower
  rw [hhigh] at hupper
  exact ⟨by decide, by decide, houter, hinner, ⟨word, hword, hlower, hupper⟩, outer, hslice, hnest.trans hdirect.symm⟩

end ChipEight.Bits
