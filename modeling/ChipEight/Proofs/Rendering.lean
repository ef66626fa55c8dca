import ChipEight.Proofs.Drawing
import ChipEight.Window.Picture
import Mathlib.Tactic.Ring

/-!
# Pictures dot by dot

`Picture.render` stretches rows and columns; this module says which dot stands where. `Depicts` describes the bytes of
a picture without it: the dot in row `R` from the bottom and column `C` has the colour of the pixel that it is a part
of. The bytes of a rendered picture are such (`depicts_render`).
-/

namespace ChipEight

/-- The bytes show the pixels of a screen, each as a square of `scale` by `scale` dots. -/
structure Depicts (scale : Nat) (screen : Screen) (bytes : List UInt8) : Prop where
  length : bytes.length = 4 * 64 * 32 * scale * scale
  dot : ∀ (R C : Nat) (_ : R < scale * 32) (hC : C < scale * 64),
    (bytes.drop (4 * (R * (64 * scale) + C))).take 4 =
      if screen.lit ⟨C / scale, Nat.div_lt_of_lt_mul hC⟩ ⟨31 - R / scale, Nat.lt_succ_of_le (Nat.sub_le 31 _)⟩ then
        [255, 255, 255, 255]
      else [0, 0, 0, 255]

/-! ### Lists made of pieces of one length -/

section Pieces

variable {α β : Type} {f : α → List β} {n : Nat}

theorem length_flatMap_of_length {xs : List α} (hf : ∀ a ∈ xs, (f a).length = n) :
    (xs.flatMap f).length = n * xs.length := by
  induction xs with
  | nil => rfl
  | cons a xs ih =>
    rw [List.forall_mem_cons] at hf
    rw [List.flatMap_cons, List.length_append, hf.1, ih hf.2, List.length_cons, Nat.mul_succ, Nat.add_comm]

theorem getElem?_flatMap_of_length {xs : List α} (hf : ∀ a ∈ xs, (f a).length = n) {i j : Nat} (hj : j < n) :
    (xs.flatMap f)[n * i + j]? = xs[i]?.bind fun a => (f a)[j]? := by
  induction xs generalizing i with
  | nil => simp
  | cons a xs ih =>
    rw [List.forall_mem_cons] at hf
    rw [List.flatMap_cons]
    cases i with
    | zero =>
      rw [Nat.mul_zero, Nat.zero_add, List.getElem?_append_left (by rw [hf.1]; exact hj)]
      rfl
    | succ i =>
      have hpast : n * (i + 1) + j = n + (n * i + j) := by
        rw [Nat.mul_succ]
        omega
      rw [hpast, List.getElem?_append_right (by rw [hf.1]; omega), hf.1, Nat.add_sub_cancel_left, ih hf.2]
      rfl

/-- The piece at place `i`. -/
theorem take_drop_flatMap {xs : List α} (hf : ∀ a ∈ xs, (f a).length = n) {i : Nat} (hi : i < xs.length) :
    ((xs.flatMap f).drop (n * i)).take n = f xs[i] := by
  induction xs generalizing i with
  | nil => exact absurd hi (Nat.not_lt_zero i)
  | cons a xs ih =>
    rw [List.forall_mem_cons] at hf
    rw [List.flatMap_cons]
    cases i with
    | zero => rw [Nat.mul_zero, List.drop_zero, ← hf.1, List.take_left, List.getElem_cons_zero]
    | succ i =>
      have hpast : n * (i + 1) = (f a).length + n * i := by
        rw [hf.1, Nat.mul_succ, Nat.add_comm]
      rw [hpast, List.drop_append, List.drop_of_length_le (Nat.le_add_right _ _), Nat.add_sub_cancel_left,
        List.nil_append, ih hf.2 (Nat.lt_of_succ_lt_succ hi), List.getElem_cons_succ]

end Pieces

namespace Picture

/-! ### Stretched lists -/

theorem length_stretch {α : Type} (n : Nat) (xs : List α) : (stretch n xs).length = n * xs.length :=
  length_flatMap_of_length fun _ _ => List.length_replicate

theorem getElem?_stretch {α : Type} {n : Nat} (hn : 0 < n) (xs : List α) (i : Nat) :
    (stretch n xs)[i]? = xs[i / n]? := by
  have hmod := Nat.mod_lt i hn
  have hpiece : (xs.flatMap (List.replicate n))[n * (i / n) + i % n]? =
      xs[i / n]?.bind fun a => (List.replicate n a)[i % n]? :=
    getElem?_flatMap_of_length (fun _ _ => List.length_replicate) hmod
  rw [Nat.div_add_mod] at hpiece
  unfold stretch
  rw [hpiece]
  cases xs[i / n]? <;> simp [hmod]

theorem map_stretch {α β : Type} (f : α → β) (n : Nat) (xs : List α) :
    (stretch n xs).map f = stretch n (xs.map f) := by
  unfold stretch
  rw [List.map_flatMap, List.flatMap_map]
  simp only [List.map_replicate]

theorem stretch_one {α : Type} (xs : List α) : stretch 1 xs = xs := by
  unfold stretch
  exact List.flatMap_singleton' xs

/-! ### Dots -/

theorem length_rowDots (row : BitVec 64) : (rowDots row).length = 64 := by
  rw [rowDots, List.length_map, List.length_finRange]

theorem getElem?_rowDots (row : BitVec 64) {x : Nat} (hx : x < 64) :
    (rowDots row)[x]? = some (if row.getMsb ⟨x, hx⟩ then Colour.white else Colour.black) := by
  unfold rowDots
  rw [List.getElem?_map, List.getElem?_eq_getElem (by simpa using hx)]
  simp

private theorem width_of_mem_render (scale : Nat) (s : Screen) :
    ∀ row ∈ (render scale s).rows, (id row).length = scale * 64 := by
  intro row hmem
  simp only [render, stretch, List.mem_flatMap, List.mem_replicate, List.mem_map] at hmem
  obtain ⟨-, ⟨pixels, -, rfl⟩, -, rfl⟩ := hmem
  exact (length_stretch scale (rowDots pixels)).trans (by rw [length_rowDots])

/-- The dots of all rows in order. -/
theorem getElem?_flatten_render {scale : Nat} (hscale : 0 < scale) (s : Screen) {R C : Nat} (hR : R < scale * 32)
    (hC : C < scale * 64) :
    (render scale s).rows.flatten[(scale * 64) * R + C]? =
      some (if s.lit ⟨C / scale, Nat.div_lt_of_lt_mul hC⟩ ⟨31 - R / scale, Nat.lt_succ_of_le (Nat.sub_le 31 _)⟩ then
        Colour.white else Colour.black) := by
  have hrow : R / scale < 32 := Nat.div_lt_of_lt_mul hR
  have hcolumn : C / scale < 64 := Nat.div_lt_of_lt_mul hC
  have hrows : (render scale s).rows[R]? =
      some (stretch scale (rowDots (s.rows.get ⟨31 - R / scale, Nat.lt_succ_of_le (Nat.sub_le 31 _)⟩))) := by
    have hlength : s.rows.toList.length = 32 := Vector.length_toList
    have hindex : 31 - R / scale < s.rows.toList.length := by
      rw [hlength]
      exact Nat.lt_succ_of_le (Nat.sub_le 31 _)
    simp only [render]
    rw [getElem?_stretch hscale, List.getElem?_map, List.getElem?_reverse (by rw [hlength]; exact hrow), hlength,
      List.getElem?_eq_getElem hindex]
    simp [get_eq_getElem]
  rw [← List.flatMap_id, getElem?_flatMap_of_length (width_of_mem_render scale s) hC, hrows]
  simp only [Option.bind_some, id_eq]
  rw [getElem?_stretch hscale, getElem?_rowDots _ hcolumn]
  rfl

theorem length_flatten_render (scale : Nat) (s : Screen) :
    (render scale s).rows.flatten.length = (scale * 64) * (scale * 32) := by
  rw [← List.flatMap_id, length_flatMap_of_length (width_of_mem_render scale s), render, length_stretch, List.length_map,
    List.length_reverse, Vector.length_toList]

end Picture

/-! ### Bytes -/

/-- A rendered picture shows the screen. -/
theorem depicts_render {scale : Nat} (hscale : 0 < scale) (s : Screen) :
    Depicts scale s (Picture.render scale s).bytes := by
  have hfour : ∀ c ∈ (Picture.render scale s).rows.flatten, c.bytes.length = 4 := fun _ _ => rfl
  constructor
  case length =>
    rw [Picture.bytes, length_flatMap_of_length hfour, Picture.length_flatten_render]
    ring
  case dot =>
    intro R C hR hC
    have hplace : R * (64 * scale) + C = scale * 64 * R + C := by ring
    obtain ⟨hlt, hget⟩ := List.getElem?_eq_some_iff.1 (Picture.getElem?_flatten_render hscale s hR hC)
    rw [hplace, Picture.bytes, take_drop_flatMap hfour hlt, hget]
    split <;> rfl

end ChipEight
