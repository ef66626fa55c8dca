import ChipEight.Machine.Execute
import ChipEight.Proofs.Vectors
import Mathlib.Data.List.Nodup
import Mathlib.Data.Nat.Bitwise

/-!
# Drawing pixel by pixel

A sprite is drawn by words of 64 pixels. This module says what that does to single pixels, and that drawing one
pixel after the other gives the same: `Machine.flip` toggles one pixel and sets VF if it was lit, `Sprite.places`
lists the pixels of a sprite in the order of its rows, and `flip_places` puts the two together.

The order does not matter and no pixel comes twice, so after a list of distinct flips a pixel is toggled if it is in
the list (`lit_flips`), and VF tells whether one of them was lit before the first flip (`flips_eq`).
-/

namespace ChipEight

namespace Screen

/-! ### Single pixels -/

theorem getMsb_eq {w : Nat} (row : BitVec w) (x : Fin w) : row.getMsb x = row.getMsbD x := by
  simp [BitVec.getMsb, BitVec.getMsbD, BitVec.getLsb, BitVec.getLsbD]

theorem ext_lit {s t : Screen} (hlit : ∀ x y, s.lit x y = t.lit x y) (hdirty : s.dirty = t.dirty) : s = t := by
  obtain ⟨rows, dirty⟩ := s
  obtain ⟨rows', dirty'⟩ := t
  have hrows : rows = rows' := by
    apply Vector.ext
    intro y hy
    apply BitVec.eq_of_getMsbD_eq
    intro x hx
    have h := hlit ⟨x, hx⟩ ⟨y, hy⟩
    simp only [lit, getMsb_eq] at h
    exact h
  subst hrows
  cases hdirty
  rfl

@[simp] theorem lit_paint (s : Screen) (x a : Fin 64) (y b : Fin 32) (on : Bool) :
    (s.paint x y on).lit a b = if a = x ∧ b = y then on else s.lit a b := by
  have hbit : (BitVec.twoPow 64 (63 - x.val)).getMsbD a.val = decide (a = x) := by
    rw [BitVec.getMsbD_twoPow]
    simp only [Fin.ext_iff]
    grind
  simp only [lit, paint, get_setAt]
  by_cases hy : b = y
  · subst hy
    simp only [if_true, getMsb_eq, and_true]
    cases on
    · simp only [Bool.false_eq_true, if_false, BitVec.getMsbD_and, BitVec.getMsbD_not, hbit]
      by_cases hx : a = x <;> simp [hx]
    · simp only [if_true, BitVec.getMsbD_or, hbit]
      by_cases hx : a = x <;> simp [hx]
  · simp [hy]

theorem lit_toggle (s : Screen) (p : Pattern) (x : Fin 64) (y : Fin 32) :
    (s.toggle p).lit x y = (s.lit x y ^^ (p.get y).getMsb x) := by
  simp [lit, toggle, getMsb_eq, get_eq_getElem]

private theorem ne_zero_iff (row : BitVec 64) : row ≠ 0 ↔ ∃ x : Fin 64, row.getMsb x = true := by
  constructor
  · intro h
    by_contra hnone
    apply h
    apply BitVec.eq_of_getMsbD_eq
    intro x hx
    have hx' : ¬ row.getMsb ⟨x, hx⟩ = true := fun hon => hnone ⟨_, hon⟩
    rw [getMsb_eq] at hx'
    simpa using hx'
  · rintro ⟨x, hx⟩ rfl
    simp [getMsb_eq] at hx

theorem any_iff (p : Pattern) :
    p.any (· ≠ 0) = true ↔ ∃ (x : Fin 64) (y : Fin 32), (p.get y).getMsb x = true := by
  rw [Vector.any_eq_true]
  constructor
  · rintro ⟨y, hy, hrow⟩
    obtain ⟨x, hx⟩ := (ne_zero_iff _).1 (of_decide_eq_true hrow)
    exact ⟨x, ⟨y, hy⟩, hx⟩
  · rintro ⟨x, y, hx⟩
    exact ⟨y, y.isLt, decide_eq_true ((ne_zero_iff _).2 ⟨x, hx⟩)⟩

theorem meets_iff (s : Screen) (p : Pattern) :
    s.meets p = true ↔ ∃ (x : Fin 64) (y : Fin 32), s.lit x y = true ∧ (p.get y).getMsb x = true := by
  unfold meets
  rw [any_iff]
  simp [lit, getMsb_eq, get_eq_getElem]

end Screen

/-! ### Pixels of a sprite -/

namespace Sprite

/-- Whether a sprite with its corner at a column and a line sets the pixel in column `px` and row `py`. -/
def sets (column line : Nat) (rows : List UInt8) (px py : Nat) : Bool :=
  decide (line ≤ py ∧ column ≤ px ∧ px < column + 8) &&
    (rows[py - line]?).any fun row => row.toNat.testBit (7 - (px - column))

private theorem getMsbD_rowAt (x : Nat) (row : UInt8) {px : Nat} (hpx : px < 64) :
    (rowAt x row).getMsbD px = (decide (x ≤ px ∧ px < x + 8) && row.toNat.testBit (7 - (px - x))) := by
  unfold rowAt
  rw [BitVec.getMsbD_ushiftRight, BitVec.getMsbD_append]
  by_cases h : px < x
  · have hle : ¬ x ≤ px := by omega
    simp [h, hle]
  · by_cases h8 : px < x + 8
    · have h1 : ¬ 8 ≤ px - x := by omega
      have h2 : px - x < 8 := by omega
      rw [if_neg h1, BitVec.getMsbD_eq_getLsbD]
      simp [h, h8, hpx, h2, BitVec.getLsbD, Nat.le_of_not_lt h]
    · have h1 : 8 ≤ px - x := by omega
      simp [h8, h1]

/-- A placed sprite has the pixels that it sets, and no others. -/
theorem getMsb_place (x y : UInt8) (rows : List UInt8) (px : Fin 64) (py : Fin 32) :
    ((place x y rows).get py).getMsb px = sets (x.toNat % 64) (y.toNat % 32) rows px py := by
  rw [Screen.getMsb_eq]
  simp only [place, get_eq_getElem, Vector.getElem_ofFn, sets]
  by_cases hy : y.toNat % 32 ≤ py.val
  · rw [if_pos hy]
    cases hrow : rows[py.val - y.toNat % 32]? with
    | none => simp
    | some row => simp [getMsbD_rowAt _ _ px.isLt, hy]
  · rw [if_neg hy]
    simp [hy]

/-- The places of one row of a sprite: the bits that are set, from the left, as far as the screen goes. -/
def rowPlaces (column line : Nat) (row : UInt8) : List (Fin 64 × Fin 32) :=
  (List.range (min 8 (64 - column))).flatMap fun bit =>
    if row.toNat &&& (0x80 >>> bit) ≠ 0 then [(Fin.ofNat 64 (column + bit), Fin.ofNat 32 line)] else []

/-- The places that a sprite sets, row by row as far as the screen goes. -/
def places (column line : Nat) (rows : List UInt8) : List (Fin 64 × Fin 32) :=
  (rows.take (32 - line)).zipIdx.flatMap fun row => rowPlaces column (line + row.2) row.1

private theorem and_shift_ne_zero (n : Nat) {bit : Nat} (h : bit < 8) :
    n &&& (0x80 >>> bit) ≠ 0 ↔ n.testBit (7 - bit) = true := by
  have hpow : 0x80 >>> bit = 2 ^ (7 - bit) := by
    rw [Nat.shiftRight_eq_div_pow, show 0x80 = 2 ^ 7 by rfl, Nat.pow_div (by omega) (by omega)]
  rw [hpow, Nat.and_two_pow]
  cases n.testBit (7 - bit) <;> simp

theorem mem_rowPlaces {column line : Nat} {row : UInt8} {p : Fin 64 × Fin 32} (hcolumn : column < 64)
    (hline : line < 32) :
    p ∈ rowPlaces column line row ↔
      p.2.val = line ∧ column ≤ p.1.val ∧ p.1.val < column + 8 ∧
        row.toNat.testBit (7 - (p.1.val - column)) = true := by
  obtain ⟨px, py⟩ := p
  simp only [rowPlaces, List.mem_flatMap, List.mem_range]
  constructor
  · rintro ⟨bit, hbit, hmem⟩
    split at hmem
    · rename_i hset
      rw [and_shift_ne_zero _ (by omega)] at hset
      simp only [List.mem_singleton, Prod.mk.injEq] at hmem
      obtain ⟨rfl, rfl⟩ := hmem
      have hx : (column + bit) % 64 = column + bit := Nat.mod_eq_of_lt (by omega)
      have hy : line % 32 = line := Nat.mod_eq_of_lt hline
      simp only [Fin.ofNat, hx, hy]
      refine ⟨trivial, by omega, by omega, ?_⟩
      rw [Nat.add_sub_cancel_left]
      exact hset
    · cases hmem
  · rintro ⟨hy, hle, hlt, hset⟩
    have hpx := px.isLt
    refine ⟨px.val - column, by omega, ?_⟩
    rw [if_pos ((and_shift_ne_zero _ (by omega)).2 hset), List.mem_singleton, Prod.mk.injEq]
    constructor
    · apply Fin.ext
      simp only [Fin.ofNat]
      omega
    · apply Fin.ext
      simp only [Fin.ofNat]
      omega

/-- A place is in the list of a sprite exactly if the sprite sets it. -/
theorem mem_places {column line : Nat} {rows : List UInt8} {p : Fin 64 × Fin 32} (hcolumn : column < 64)
    (hline : line < 32) : p ∈ places column line rows ↔ sets column line rows p.1 p.2 = true := by
  have hpy := p.2.isLt
  simp only [places, List.mem_flatMap, sets, Bool.and_eq_true, decide_eq_true_eq, Option.any_eq_true]
  constructor
  · rintro ⟨⟨row, r⟩, hmem, hp⟩
    rw [List.mem_zipIdx_iff_getElem?, List.getElem?_take] at hmem
    split at hmem
    · rw [mem_rowPlaces hcolumn (by omega)] at hp
      obtain ⟨hy, hle, hlt, hset⟩ := hp
      refine ⟨⟨by omega, hle, hlt⟩, row, ?_, hset⟩
      rw [hy, Nat.add_sub_cancel_left]
      exact hmem
    · cases hmem
  · rintro ⟨⟨hy, hle, hlt⟩, row, hrow, hset⟩
    refine ⟨(row, p.2.val - line), ?_, ?_⟩
    · rw [List.mem_zipIdx_iff_getElem?, List.getElem?_take, if_pos (by omega)]
      exact hrow
    · rw [mem_rowPlaces hcolumn (by omega)]
      exact ⟨by omega, hle, hlt, hset⟩

private theorem nodup_rowPlaces (column line : Nat) (row : UInt8) : (rowPlaces column line row).Nodup := by
  unfold rowPlaces
  rw [List.nodup_flatMap]
  refine ⟨fun bit _ => by split <;> simp, ?_⟩
  refine (List.nodup_range).imp_of_mem ?_
  intro a b ha hb hab p hpa hpb
  rw [List.mem_range] at ha hb
  dsimp only at hpa hpb
  split at hpa <;> split at hpb
  · rw [List.mem_singleton] at hpa hpb
    have h := congrArg (fun q : Fin 64 × Fin 32 => q.1.val) (hpa.symm.trans hpb)
    simp only [Fin.ofNat] at h
    omega
  · cases hpb
  · cases hpa
  · cases hpa

theorem nodup_places {column line : Nat} (rows : List UInt8) (hcolumn : column < 64) (hline : line < 32) :
    (places column line rows).Nodup := by
  unfold places
  rw [List.nodup_flatMap]
  refine ⟨fun row _ => nodup_rowPlaces _ _ _, ?_⟩
  rw [List.pairwise_iff_getElem]
  intro i j hi hj hij p hp hq
  simp only [List.length_zipIdx, List.length_take] at hi hj
  simp only [List.getElem_zipIdx, Nat.zero_add] at hp hq
  rw [mem_rowPlaces hcolumn (by omega)] at hp hq
  have h1 := hp.1
  have h2 := hq.1
  omega

end Sprite

/-! ### Flips -/

namespace Screen

/-- Toggles one pixel. -/
def flip (s : Screen) (p : Fin 64 × Fin 32) : Screen := s.paint p.1 p.2 (!s.lit p.1 p.2)

/-- Distinct flips toggle the pixels that they name. -/
theorem lit_flips {ps : List (Fin 64 × Fin 32)} (hps : ps.Nodup) (s : Screen) {x : Fin 64} {y : Fin 32} {on : Bool}
    (hon : (x, y) ∈ ps ↔ on = true) : (ps.foldl flip s).lit x y = (s.lit x y ^^ on) := by
  -- on the list: a place comes only once, so its first flip is its last
  induction ps generalizing s on with
  | nil =>
    cases on with
    | false => simp
    | true => exact absurd (hon.2 rfl) List.not_mem_nil
  | cons p ps ih =>
    rw [List.nodup_cons] at hps
    rw [List.foldl_cons]
    by_cases hp : (x, y) = p
    · subst hp
      have hlater : (x, y) ∈ ps ↔ false = true := iff_of_false hps.1 Bool.false_ne_true
      rw [ih hps.2 _ hlater, hon.1 List.mem_cons_self]
      simp [flip]
    · have hlater : (x, y) ∈ ps ↔ on = true := by
        rw [← hon, List.mem_cons, or_iff_right hp]
      have hne : ¬ (x = p.1 ∧ y = p.2) := fun h => hp (Prod.ext h.1 h.2)
      rw [ih hps.2 _ hlater]
      simp [flip, hne]

theorem dirty_flips (ps : List (Fin 64 × Fin 32)) (s : Screen) :
    (ps.foldl flip s).dirty = (s.dirty || !ps.isEmpty) := by
  induction ps generalizing s with
  | nil => simp
  | cons p ps ih =>
    rw [List.foldl_cons, ih]
    simp [flip, paint]

/-- Toggling a pattern is toggling its pixels one by one. -/
theorem flips_eq_toggle {ps : List (Fin 64 × Fin 32)} (hps : ps.Nodup) (s : Screen) {p : Pattern}
    (hmem : ∀ x y, (x, y) ∈ ps ↔ (p.get y).getMsb x = true) : ps.foldl flip s = s.toggle p := by
  apply ext_lit
  · intro x y
    rw [lit_flips hps s (hmem x y), lit_toggle]
  · rw [dirty_flips]
    simp only [toggle]
    congr 1
    rw [Bool.eq_iff_iff, any_iff]
    cases ps with
    | nil =>
      simp only [List.isEmpty_nil, Bool.not_true, Bool.false_eq_true, false_iff]
      rintro ⟨x, y, h⟩
      exact absurd ((hmem x y).2 h) (by simp)
    | cons q ps =>
      simp only [List.isEmpty_cons, Bool.not_false, true_iff]
      exact ⟨q.1, q.2, (hmem q.1 q.2).1 (by simp)⟩

end Screen

namespace Machine

/-- Toggles one pixel, and sets VF to 1 if it was lit. -/
def flip (m : Machine) (p : Fin 64 × Fin 32) : Machine :=
  if m.screen.lit p.1 p.2 then { m.setFlag true with screen := m.screen.flip p }
  else { m with screen := m.screen.flip p }

private theorem setFlag_setFlag (m : Machine) (a b : Bool) : (m.setFlag a).setFlag b = m.setFlag b := by
  simp [setFlag, setV, setAt]

/-- After distinct flips VF is 1 if it was so before or if one of the pixels was lit. -/
theorem flips_eq {ps : List (Fin 64 × Fin 32)} (hps : ps.Nodup) (m : Machine) (flag : Bool) :
    ps.foldl flip (m.setFlag flag) =
      { m with screen := ps.foldl Screen.flip m.screen }.setFlag
        (flag || ps.any fun p => m.screen.lit p.1 p.2) := by
  induction ps generalizing m flag with
  | nil => simp
  | cons p ps ih =>
    rw [List.nodup_cons] at hps
    -- the pixels that follow are others, so the first flip leaves them as they are
    have hlater : (ps.any fun q => (m.screen.flip p).lit q.1 q.2) = ps.any fun q => m.screen.lit q.1 q.2 := by
      rw [Bool.eq_iff_iff, List.any_eq_true, List.any_eq_true]
      have hsame : ∀ q ∈ ps, (m.screen.flip p).lit q.1 q.2 = m.screen.lit q.1 q.2 := by
        intro q hq
        have hne : ¬ (q.1 = p.1 ∧ q.2 = p.2) := fun h => hps.1 (Prod.ext h.1 h.2 ▸ hq)
        simp [Screen.flip, hne]
      constructor
      · rintro ⟨q, hq, h⟩
        exact ⟨q, hq, (hsame q hq).symm.trans h⟩
      · rintro ⟨q, hq, h⟩
        exact ⟨q, hq, (hsame q hq).trans h⟩
    have hfirst : (m.setFlag flag).flip p =
        { m with screen := m.screen.flip p }.setFlag (flag || m.screen.lit p.1 p.2) := by
      by_cases hlit : m.screen.lit p.1 p.2 = true
      · have hlit' : (m.setFlag flag).screen.lit p.1 p.2 = true := hlit
        rw [flip, if_pos hlit', setFlag_setFlag, hlit, Bool.or_true]
        rfl
      · have hlit' : ¬ (m.setFlag flag).screen.lit p.1 p.2 = true := hlit
        rw [flip, if_neg hlit', Bool.eq_false_of_not_eq_true hlit, Bool.or_false]
        rfl
    rw [List.foldl_cons, hfirst, ih hps.2, hlater, List.foldl_cons, List.any_cons, Bool.or_assoc]

/-- Drawing a sprite is flipping the places that it sets, with VF cleared before. -/
theorem flip_places (m : Machine) (x y : Fin 16) (rows : List UInt8) :
    (Sprite.places ((m.v x).toNat % 64) ((m.v y).toNat % 32) rows).foldl flip (m.setFlag false) =
      m.drawSprite x y rows := by
  have hcolumn : (m.v x).toNat % 64 < 64 := Nat.mod_lt _ (by omega)
  have hline : (m.v y).toNat % 32 < 32 := Nat.mod_lt _ (by omega)
  have hnodup := Sprite.nodup_places rows hcolumn hline
  have hmem : ∀ px py, (px, py) ∈ Sprite.places ((m.v x).toNat % 64) ((m.v y).toNat % 32) rows ↔
      ((Sprite.place (m.v x) (m.v y) rows).get py).getMsb px = true := by
    intro px py
    rw [Sprite.mem_places hcolumn hline, Sprite.getMsb_place]
  rw [flips_eq hnodup, Screen.flips_eq_toggle hnodup m.screen hmem, Bool.false_or]
  unfold drawSprite
  congr 1
  rw [Bool.eq_iff_iff, List.any_eq_true, Screen.meets_iff]
  constructor
  · rintro ⟨⟨px, py⟩, hp, hlit⟩
    exact ⟨px, py, hlit, (hmem px py).1 hp⟩
  · rintro ⟨px, py, hlit, hset⟩
    exact ⟨(px, py), (hmem px py).2 hset, hlit⟩

end Machine

end ChipEight
