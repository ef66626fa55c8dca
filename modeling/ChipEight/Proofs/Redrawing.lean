import ChipEight.Proofs.Effects
import ChipEight.Proofs.Micro.Simulation
import Mathlib.Algebra.BigOperators.Group.Finset.Basic

/-!
# Drawing again

A drawing toggles the pixels that its sprite sets, so it is its own inverse, and the order of drawings does not matter.
Whether a pixel changes in the end depends on the parity of the drawings that set it (`Screen.lit_foldl_toggle`), and so
all that counts of a list of drawings is which of them are in it an odd number of times
(`Machine.samePicture_of_parity`). A drawing that is repeated at once tells by VF first of the lit and then of the dark
pixels that it met (`Machine.redrawn_of_drawSprite`).
-/

namespace ChipEight

/-! ### Parities -/

private theorem countP_eq_sum {α : Type} [DecidableEq α] (p : α → Bool) {s : Finset α} {l : List α}
    (h : ∀ a ∈ l, a ∈ s) : l.countP p = ∑ a ∈ s, if p a then l.count a else 0 := by
  have hmem : ∀ a ∈ (l.filter p : Multiset α), a ∈ s := fun a ha => h a (List.mem_of_mem_filter ha)
  have hcard : ∑ a ∈ s, (l.filter p).count a = (l.filter p).length := by
    simpa using Multiset.sum_count_eq_card hmem
  rw [List.countP_eq_length_filter, ← hcard]
  refine Finset.sum_congr rfl fun a _ => ?_
  cases hp : p a with
  | true => exact List.count_filter hp
  | false => simp [hp, List.count_eq_zero]

/-- If every element comes equally often up to pairs, so do the elements with a property together. -/
theorem countP_mod_two {α : Type} [DecidableEq α] (p : α → Bool) {l l' : List α}
    (h : ∀ a, l.count a % 2 = l'.count a % 2) : l.countP p % 2 = l'.countP p % 2 := by
  have hl : ∀ a ∈ l, a ∈ (l ++ l').toFinset := fun a ha => List.mem_toFinset.2 (List.mem_append_left l' ha)
  have hl' : ∀ a ∈ l', a ∈ (l ++ l').toFinset := fun a ha => List.mem_toFinset.2 (List.mem_append_right l ha)
  rw [countP_eq_sum p hl, countP_eq_sum p hl', Finset.sum_nat_mod,
    Finset.sum_nat_mod (l ++ l').toFinset 2 fun a => if p a then l'.count a else 0]
  refine congrArg (· % 2) (Finset.sum_congr rfl fun a _ => ?_)
  cases p a with
  | true => exact h a
  | false => rfl

namespace Screen

/-- Patterns toggle a pixel if an odd number of them sets it. -/
theorem lit_foldl_toggle (ps : List Pattern) (s : Screen) (x : Fin 64) (y : Fin 32) :
    (ps.foldl toggle s).lit x y = (s.lit x y ^^ decide (ps.countP (fun p => (p.get y).getMsb x) % 2 = 1)) := by
  induction ps generalizing s with
  | nil => simp
  | cons p ps ih =>
    rw [List.foldl_cons, ih, lit_toggle, Bool.xor_assoc, List.countP_cons]
    refine congrArg (s.lit x y ^^ ·) ?_
    cases (p.get y).getMsb x with
    | false => simp
    | true =>
      have hparity : decide ((ps.countP (fun p => (p.get y).getMsb x) + 1) % 2 = 1) =
          !decide (ps.countP (fun p => (p.get y).getMsb x) % 2 = 1) := by
        rw [← decide_not, decide_eq_decide]
        omega
      simp [hparity]

theorem rows_eq_of_lit {s t : Screen} (h : ∀ x y, s.lit x y = t.lit x y) : s.rows = t.rows := by
  have hmarked : s = { t with dirty := s.dirty } := ext_lit h rfl
  rw [hmarked]

end Screen

/-! ### Drawings -/

/-- What a drawing has to do with: the sprite by where it lies in memory and how high it is, and the place for it. -/
structure Stamp where
  column : UInt8
  line : UInt8
  index : Nat
  height : Fin 16
deriving DecidableEq

/-- A drawing: the instruction with its operands, and the registers and the index that it finds. -/
structure Drawing where
  registers : Registers
  index : Nat
  x : Fin 16
  y : Fin 16
  n : Fin 16

namespace Drawing

def stamp (d : Drawing) : Stamp := ⟨d.registers.get d.x, d.registers.get d.y, d.index, d.n⟩

/-- The sprite lies inside memory. -/
def Fits (d : Drawing) : Prop := d.index + d.n.val ≤ 4096

instance (d : Drawing) : Decidable d.Fits := inferInstanceAs (Decidable (_ ≤ _))

end Drawing

namespace Stamp

/-- The rows of the sprite. -/
def sprite (s : Stamp) (memory : Memory) : List UInt8 := (memory.read s.index s.height.val).toOption.getD []

/-- The pattern that the drawing toggles. -/
def pattern (memory : Memory) (s : Stamp) : Pattern := Sprite.place s.column s.line (s.sprite memory)

end Stamp

namespace Machine

/-- The machine with the registers and the index of a drawing. -/
def ready (m : Machine) (d : Drawing) : Machine := { m with registers := d.registers, index := d.index }

/-- The machine after a drawing. -/
def drawOne (m : Machine) (d : Drawing) : Except Fault Machine := (m.ready d).execute (.draw d.x d.y d.n)

/-- The machine after some drawings. -/
def drawAll (m : Machine) (ds : List Drawing) : Except Fault Machine := ds.foldlM drawOne m

end Machine

/-- Some drawings on bare cells. -/
def Micro.drawAll : List Drawing → Micro.Code Unit
  | [] => pure ()
  | d :: ds => do
    modify fun s => { s with registers := Registers.cells d.registers, index := d.index }
    Micro.draw d.x d.y d.n
    Micro.drawAll ds

namespace Machine

theorem read_of_fits (m : Machine) {d : Drawing} (h : d.Fits) :
    m.memory.read d.index d.n.val = .ok (d.stamp.sprite m.memory) := by
  have hfits : Memory.Fits d.index d.n.val := by
    unfold Drawing.Fits at h
    exact Memory.fits_of_le (by omega) (by omega)
  obtain ⟨sprite, hread⟩ := m.memory.exists_read hfits
  unfold Stamp.sprite Drawing.stamp
  rw [hread]
  rfl

theorem drawOne_of_fits (m : Machine) {d : Drawing} (h : d.Fits) :
    m.drawOne d = .ok ((m.ready d).drawSprite d.x d.y (d.stamp.sprite m.memory)) := by
  have hread := m.read_of_fits h
  unfold drawOne execute ready
  dsimp only
  rw [hread]
  rfl

/-- Drawings with sprites inside memory are not refused; they toggle their patterns one after the other. -/
theorem drawAll_of_fits {ds : List Drawing} (h : ∀ d ∈ ds, d.Fits) (m : Machine) (r : Micro.Rest) :
    ∃ after r', m.drawAll ds = .ok after ∧ Micro.run (Micro.drawAll ds) (m.bare r) = (.ok (), after.bare r') ∧
      after.screen = (ds.map fun d => d.stamp.pattern m.memory).foldl Screen.toggle m.screen := by
  induction ds generalizing m r with
  | nil => exact ⟨m, r, rfl, rfl, rfl⟩
  | cons d ds ih =>
    rw [List.forall_mem_cons] at h
    have hdraw := Micro.run_draw (m.ready d) r d.x d.y d.n (m.read_of_fits h.1)
    obtain ⟨after, r', hafter, hcells, hscreen⟩ := ih h.2 ((m.ready d).drawSprite d.x d.y (d.stamp.sprite m.memory)) _
    refine ⟨after, r', ?_, ?_, hscreen⟩
    · rw [drawAll, List.foldlM_cons, m.drawOne_of_fits h.1]
      exact hafter
    · rw [Micro.drawAll, Micro.run_bind_of_ok (Micro.run_modify _ _)]
      exact (Micro.run_bind_of_ok hdraw).trans hcells

/-! ### Lists of drawings -/

/-- Both lists of drawings succeed and leave the same picture behind, on bare cells too. -/
structure SamePicture (m : Machine) (ds es : List Drawing) : Prop where
  rows : ∃ after after', m.drawAll ds = .ok after ∧ m.drawAll es = .ok after' ∧ after.screen.rows = after'.screen.rows
  cells : ∀ r : Micro.Rest, ∃ store store', Micro.run (Micro.drawAll ds) (m.bare r) = (.ok (), store) ∧
    Micro.run (Micro.drawAll es) (m.bare r) = (.ok (), store') ∧ store.pixels = store'.pixels

theorem samePicture_of_parity (m : Machine) {ds es : List Drawing} (hds : ∀ d ∈ ds, d.Fits) (hes : ∀ e ∈ es, e.Fits)
    (h : ∀ s, (ds.map Drawing.stamp).count s % 2 = (es.map Drawing.stamp).count s % 2) : m.SamePicture ds es := by
  have hlit (x : Fin 64) (y : Fin 32) :
      ((ds.map fun d => d.stamp.pattern m.memory).foldl Screen.toggle m.screen).lit x y =
        ((es.map fun d => d.stamp.pattern m.memory).foldl Screen.toggle m.screen).lit x y := by
    have hparity := countP_mod_two (fun s => ((s.pattern m.memory).get y).getMsb x) h
    rw [List.countP_map, List.countP_map] at hparity
    rw [Screen.lit_foldl_toggle, Screen.lit_foldl_toggle, List.countP_map, List.countP_map]
    exact congrArg (fun n => m.screen.lit x y ^^ decide (n = 1)) hparity
  constructor
  · obtain ⟨after, -, hafter, -, hscreen⟩ := drawAll_of_fits hds m ⟨[], false, []⟩
    obtain ⟨after', -, hafter', -, hscreen'⟩ := drawAll_of_fits hes m ⟨[], false, []⟩
    refine ⟨after, after', hafter, hafter', Screen.rows_eq_of_lit fun x y => ?_⟩
    rw [hscreen, hscreen', hlit]
  · intro r
    obtain ⟨after, r', -, hcells, hscreen⟩ := drawAll_of_fits hds m r
    obtain ⟨after', r'', -, hcells', hscreen'⟩ := drawAll_of_fits hes m r
    refine ⟨_, _, hcells, hcells', ?_⟩
    rw [Micro.bare_pixels, Micro.bare_pixels]
    simp only [hscreen, hscreen', hlit]

/-! ### The same drawing twice -/

/-- VF is 1 if the condition holds, and 0 if it does not. -/
def Flags (m : Machine) (condition : Prop) : Prop :=
  (m.v Registers.flag = 1 ↔ condition) ∧ (m.v Registers.flag = 0 ↔ ¬ condition)

/-- The picture is again what it was, and VF told first of a lit pixel that the sprite sets, and then of one that was
dark at first. -/
structure Redrawn (m once twice : Machine) (sets : Fin 64 → Fin 32 → Bool) : Prop where
  rows : twice.screen.rows = m.screen.rows
  first : once.Flags (∃ px py, sets px py = true ∧ m.screen.lit px py = true)
  second : twice.Flags (∃ px py, sets px py = true ∧ m.screen.lit px py = false)

variable {m : Machine} {x y n : Fin 16} {sprite : List UInt8}

theorem lit_drawSprite (m : Machine) (x y : Fin 16) (sprite : List UInt8) (px : Fin 64) (py : Fin 32) :
    (m.drawSprite x y sprite).screen.lit px py =
      (m.screen.lit px py ^^ Sprite.sets ((m.v x).toNat % 64) ((m.v y).toNat % 32) sprite px py) := by
  rw [← Sprite.getMsb_place]
  exact m.screen.lit_toggle _ px py

theorem flags_drawSprite (m : Machine) (x y : Fin 16) (sprite : List UInt8) :
    (m.drawSprite x y sprite).Flags (∃ (px : Fin 64) (py : Fin 32),
      Sprite.sets ((m.v x).toNat % 64) ((m.v y).toNat % 32) sprite px py = true ∧ m.screen.lit px py = true) := by
  have hmeets : m.screen.meets (Sprite.place (m.v x) (m.v y) sprite) = true ↔ ∃ (px : Fin 64) (py : Fin 32),
      Sprite.sets ((m.v x).toNat % 64) ((m.v y).toNat % 32) sprite px py = true ∧ m.screen.lit px py = true := by
    rw [Screen.meets_iff]
    simp only [Sprite.getMsb_place, and_comm]
  have hflag : (m.drawSprite x y sprite).v Registers.flag =
      if m.screen.meets (Sprite.place (m.v x) (m.v y) sprite) then 1 else 0 :=
    (v_setV _ _ _ _).trans (if_pos rfl)
  unfold Flags
  rw [hflag, ← hmeets]
  cases m.screen.meets (Sprite.place (m.v x) (m.v y) sprite) <;> decide

/-- The second drawing finds the screen as the first one has left it, and the same place. -/
theorem redrawn_of_drawSprite {later : Machine} (hscreen : later.screen = (m.drawSprite x y sprite).screen)
    (hx : later.v x = m.v x) (hy : later.v y = m.v y) :
    m.Redrawn (m.drawSprite x y sprite) (later.drawSprite x y sprite) fun px py =>
      Sprite.sets ((m.v x).toNat % 64) ((m.v y).toNat % 32) sprite px py := by
  have hlater (px : Fin 64) (py : Fin 32) : later.screen.lit px py =
      (m.screen.lit px py ^^ Sprite.sets ((m.v x).toNat % 64) ((m.v y).toNat % 32) sprite px py) := by
    rw [hscreen, lit_drawSprite]
  have hdark : (∃ (px : Fin 64) (py : Fin 32),
      Sprite.sets ((m.v x).toNat % 64) ((m.v y).toNat % 32) sprite px py = true ∧ later.screen.lit px py = true) ↔
        ∃ (px : Fin 64) (py : Fin 32),
          Sprite.sets ((m.v x).toNat % 64) ((m.v y).toNat % 32) sprite px py = true ∧ m.screen.lit px py = false := by
    refine exists_congr fun px => exists_congr fun py => and_congr_right fun hsets => ?_
    rw [hlater, hsets, Bool.xor_true, Bool.not_eq_true']
  have hsecond := later.flags_drawSprite x y sprite
  rw [hx, hy, hdark] at hsecond
  refine ⟨Screen.rows_eq_of_lit fun px py => ?_, m.flags_drawSprite x y sprite, hsecond⟩
  rw [lit_drawSprite, hlater, hx, hy, Bool.xor_assoc, Bool.xor_self, Bool.xor_false]

theorem v_drawSprite (m : Machine) (x y : Fin 16) (sprite : List UInt8) {r : Fin 16} (hr : r ≠ Registers.flag) :
    (m.drawSprite x y sprite).v r = m.v r :=
  (v_setV _ _ _ _).trans (if_neg hr)

theorem execute_draw (h : m.memory.read m.index n.val = .ok sprite) :
    m.execute (.draw x y n) = .ok (m.drawSprite x y sprite) := by
  unfold execute
  dsimp only
  rw [h]
  rfl

theorem cycle_of_draw (hreads : m.Reads (0xD000 + 0x100 * x + 0x10 * y + n))
    (h : m.memory.read m.index n.val = .ok sprite) :
    m.cycle = (m.count.pass.drawSprite x y sprite, .ok (.known (.draw x y n))) := by
  have hcycle := cycle_of_reads (i := .draw x y n) hreads trivial
  rw [execute_draw (m := m.count.pass) h] at hcycle
  exact hcycle

end Machine

open Micro

/-- On any screen, over any memory, drawings whose sprites lie inside memory leave a picture behind that depends only
on which of them there are an odd number of times; so their order does not matter, and two that are equal may be left
out. An instruction to draw that is executed twice in a row, in cycles or not, restores the picture if neither operand
is VF, and VF tells first whether the sprite met lit pixels and then whether it met dark ones. -/
theorem redrawing_cancels (m : Machine) :
    (∀ ds es : List Drawing, (∀ d ∈ ds, d.Fits) → (∀ e ∈ es, e.Fits) →
      (∀ s, (ds.map Drawing.stamp).count s % 2 = (es.map Drawing.stamp).count s % 2) → m.SamePicture ds es) ∧
    (∀ ds es : List Drawing, (∀ d ∈ ds, d.Fits) → ds.Perm es → m.SamePicture ds es) ∧
    (∀ (earlier between later : List Drawing) (d e : Drawing),
      (∀ f ∈ earlier ++ d :: between ++ e :: later, f.Fits) → d.stamp = e.stamp →
        m.SamePicture (earlier ++ d :: between ++ e :: later) (earlier ++ between ++ later)) ∧
    ∀ x y n : Fin 16, x ≠ Registers.flag → y ≠ Registers.flag → 0 ≤ m.index → m.index + n.val ≤ 4096 →
      ∃ sprite, m.memory.read m.index n.val = .ok sprite ∧
        let sets := fun (px : Fin 64) (py : Fin 32) =>
          Sprite.sets ((m.v x).toNat % 64) ((m.v y).toNat % 32) sprite px py
        (∃ once twice, m.execute (.draw x y n) = .ok once ∧ once.execute (.draw x y n) = .ok twice ∧
          m.Redrawn once twice sets ∧
          ∀ r : Rest, ∃ r' r'', run (draw x y n) (m.bare r) = (.ok (), once.bare r') ∧
            run (draw x y n) (once.bare r') = (.ok (), twice.bare r'')) ∧
        (m.Reads (0xD000 + 0x100 * x + 0x10 * y + n) → m.cycle.1.Reads (0xD000 + 0x100 * x + 0x10 * y + n) →
          m.cycle.2 = .ok (.known (.draw x y n)) ∧ m.cycle.1.cycle.2 = .ok (.known (.draw x y n)) ∧
            m.Redrawn m.cycle.1 m.cycle.1.cycle.1 sets) := by
  refine ⟨fun ds es => m.samePicture_of_parity, fun ds es hds hperm => ?_,
    fun earlier between later d e hfits hsame => ?_, fun x y n hx hy h0 h1 => ?_⟩
  · have hes : ∀ e ∈ es, e.Fits := fun e he => hds e (hperm.mem_iff.2 he)
    exact m.samePicture_of_parity hds hes fun s => by rw [(hperm.map Drawing.stamp).count_eq]
  · have hrest : ∀ f ∈ earlier ++ between ++ later, f.Fits := by
      intro f hf
      refine hfits f ?_
      simp only [List.mem_append, List.mem_cons] at hf ⊢
      tauto
    refine m.samePicture_of_parity hfits hrest fun s => ?_
    simp only [List.map_append, List.map_cons, List.count_append, List.count_cons, hsame]
    omega
  · obtain ⟨sprite, hread⟩ := m.memory.exists_read (Memory.fits_of_le h0 h1)
    have hagain : (m.drawSprite x y sprite).memory.read (m.drawSprite x y sprite).index n.val = .ok sprite := hread
    have hx' := m.v_drawSprite x y sprite hx
    have hy' := m.v_drawSprite x y sprite hy
    refine ⟨sprite, hread, ⟨_, _, Machine.execute_draw hread, Machine.execute_draw hagain,
      Machine.redrawn_of_drawSprite rfl hx' hy', fun r => ⟨_, _, run_draw m r x y n hread,
        run_draw (m.drawSprite x y sprite) _ x y n hagain⟩⟩, fun hfirst hsecond => ?_⟩
    have hcycle := Machine.cycle_of_draw hfirst hread
    have hafter : m.cycle.1 = m.count.pass.drawSprite x y sprite := congrArg Prod.fst hcycle
    have hread' : m.cycle.1.memory.read m.cycle.1.index n.val = .ok sprite := by
      rw [hafter]
      exact hread
    have hcycle' := Machine.cycle_of_draw hsecond hread'
    refine ⟨congrArg Prod.snd hcycle, congrArg Prod.snd hcycle', ?_⟩
    rw [hcycle', hafter]
    -- counting a cycle and passing its opcode leaves the screen and the registers as they are
    have hredrawn := @Machine.redrawn_of_drawSprite m.count.pass x y sprite
      (m.count.pass.drawSprite x y sprite).count.pass rfl hx' hy'
    exact ⟨hredrawn.rows, hredrawn.first, hredrawn.second⟩

/-- The glyph of 0 is drawn twice with the glyph of 1 in between; and a program draws the glyph of 0 twice in a row. -/
theorem redrawing_cancels_glyphs :
    let corner : Registers := Vector.replicate 16 0
    let zero : Drawing := ⟨corner, 0x50, 0, 1, 5⟩
    let one : Drawing := ⟨corner, 0x55, 2, 3, 5⟩
    let m := (Machine.fresh Dialect.modern Layout.standard {}).after
      [.load [0xA0, 0x50, 0xD0, 0x15, 0xD0, 0x15], .cycle]
    (∀ d ∈ [zero, one, zero], d.Fits) ∧ m.SamePicture [zero, one, zero] [one] ∧
      m.SamePicture [zero, one] [one, zero] ∧ m.cycle.1.cycle.1.screen.rows = m.screen.rows := by
  intro corner zero one m
  have hfits : ∀ d ∈ [zero, one, zero], d.Fits := by simp [zero, one, Drawing.Fits]
  obtain ⟨-, hperm, hpairs, htwice⟩ := redrawing_cancels m
  have hindex : m.index = 0x50 := by decide +kernel
  obtain ⟨sprite, -, -, hcycles⟩ :=
    htwice 0 1 5 (by decide) (by decide) (by rw [hindex]; decide) (by rw [hindex]; decide)
  obtain ⟨-, -, hredrawn⟩ := hcycles (by decide +kernel) (by decide +kernel)
  refine ⟨hfits, hpairs [] [one] [] zero zero hfits rfl, hperm _ _ (fun d hd => hfits d ?_) (.swap one zero []),
    hredrawn.rows⟩
  exact List.mem_append_left [zero] hd

end ChipEight
