import ChipEight.Proofs.Redrawing

/-!
# The pixels of a drawing

Which pixels a drawing toggles can be read off memory: `Machine.inSprite` says it of one place from the registers, the
index and the bytes that the drawing finds. `Machine.Drawn` says in these terms what the drawing leaves behind, and
`draw_pixels` that it does so, whatever is on the screen and wherever the sprite is placed, also where VF gives the
place. What the sprite has beyond the right or the lower edge is lost and does not come back on the other side.
-/

namespace ChipEight

namespace Machine

/-- The column of the left edge of a sprite that is drawn at VX. -/
def spriteColumn (m : Machine) (x : Fin 16) : Nat := (m.v x).toNat % 64

/-- The row of the upper edge of a sprite that is drawn at VY. -/
def spriteRow (m : Machine) (y : Fin 16) : Nat := (m.v y).toNat % 32

/-- The bit of the byte in memory that belongs to column `px` and row `py` is set. Beyond the `n` rows of eight pixels
there are no such bits. -/
def inSprite (m : Machine) (x y n : Fin 16) (px py : Nat) : Bool :=
  decide (m.spriteRow y ≤ py ∧ py < m.spriteRow y + n.val) &&
    decide (m.spriteColumn x ≤ px ∧ px < m.spriteColumn x + 8) &&
      (m.memory.byteAt (m.index.toNat + (py - m.spriteRow y))).toNat.testBit (7 - (px - m.spriteColumn x))

/-- What a drawing leaves behind. The counter is not spoken of, for a cycle moves it. -/
structure Drawn (m : Machine) (x y n : Fin 16) (after : Machine) : Prop where
  lit : ∀ (px : Fin 64) (py : Fin 32), after.screen.lit px py = (m.screen.lit px py ^^ m.inSprite x y n px py)
  collision : after.Flags (∃ (px : Fin 64) (py : Fin 32), m.inSprite x y n px py = true ∧ m.screen.lit px py = true)
  dirty : after.screen.dirty = true ↔
    m.screen.dirty = true ∨ ∃ (px : Fin 64) (py : Fin 32), m.inSprite x y n px py = true
  /-- Nothing comes back on the other side of the screen. -/
  edges : ∀ (px : Fin 64) (py : Fin 32), px.val < m.spriteColumn x ∨ py.val < m.spriteRow y →
    after.screen.lit px py = m.screen.lit px py
  register : ∀ r : Fin 16, r ≠ Registers.flag → after.v r = m.v r
  index : after.index = m.index
  memory : after.memory = m.memory
  stack : after.stack = m.stack
  timers : after.timers = m.timers
  keypad : after.keypad = m.keypad
  waiting : after.waiting = m.waiting
  random : after.random = m.random
  dialect : after.dialect = m.dialect

variable {m : Machine} {x y n : Fin 16}

/-- The bytes of a sprite of `n` rows. -/
def spriteBytes (m : Machine) (n : Fin 16) : List UInt8 :=
  (List.range n.val).map fun i => m.memory.byteAt (m.index.toNat + i)

/-- The bytes of the sprite set the pixels whose bits are set in memory. -/
theorem sets_spriteBytes (m : Machine) (x y n : Fin 16) (px py : Nat) :
    Sprite.sets ((m.v x).toNat % 64) ((m.v y).toNat % 32) (m.spriteBytes n) px py = m.inSprite x y n px py := by
  change Sprite.sets (m.spriteColumn x) (m.spriteRow y) (m.spriteBytes n) px py = _
  unfold Sprite.sets inSprite spriteBytes
  by_cases hrow : m.spriteRow y ≤ py ∧ py < m.spriteRow y + n.val
  · have hlt : py - m.spriteRow y < n.val := by omega
    rw [List.getElem?_map, List.getElem?_range hlt, Option.map_some, Option.any_some, decide_eq_true hrow,
      Bool.true_and]
    exact congrArg (· && _) (decide_eq_decide.2 (and_iff_right hrow.1))
  · rw [decide_eq_false hrow, Bool.false_and, Bool.false_and]
    -- above the sprite no row counts, and below it there is none
    by_cases habove : m.spriteRow y ≤ py
    · have hbelow : n.val ≤ py - m.spriteRow y := by omega
      rw [List.getElem?_eq_none (by rwa [List.length_map, List.length_range]), Option.any_none, Bool.and_false]
    · rw [decide_eq_false fun h => habove h.1, Bool.false_and]

theorem inSprite_eq_false {px py : Nat} (h : px < m.spriteColumn x ∨ py < m.spriteRow y) :
    m.inSprite x y n px py = false := by
  unfold inSprite
  rcases h with hleft | habove
  · rw [decide_eq_false fun hcolumn : m.spriteColumn x ≤ px ∧ _ => Nat.not_le.2 hleft hcolumn.1, Bool.and_false,
      Bool.false_and]
  · rw [decide_eq_false fun hrow : m.spriteRow y ≤ py ∧ _ => Nat.not_le.2 habove hrow.1, Bool.false_and,
      Bool.false_and]

theorem dirty_drawSprite (m : Machine) (x y : Fin 16) (sprite : List UInt8) :
    (m.drawSprite x y sprite).screen.dirty = true ↔ m.screen.dirty = true ∨ ∃ (px : Fin 64) (py : Fin 32),
      Sprite.sets ((m.v x).toNat % 64) ((m.v y).toNat % 32) sprite px py = true := by
  have hmark : (m.drawSprite x y sprite).screen.dirty =
      (m.screen.dirty || (Sprite.place (m.v x) (m.v y) sprite).any (· ≠ 0)) := rfl
  rw [hmark, Bool.or_eq_true, Screen.any_iff]
  simp only [Sprite.getMsb_place]

theorem drawn_drawSprite (m : Machine) (x y n : Fin 16) : m.Drawn x y n (m.drawSprite x y (m.spriteBytes n)) := by
  have hlit := m.lit_drawSprite x y (m.spriteBytes n)
  have hcollision := m.flags_drawSprite x y (m.spriteBytes n)
  have hdirty := m.dirty_drawSprite x y (m.spriteBytes n)
  simp only [sets_spriteBytes] at hlit hcollision hdirty
  exact
    { lit := hlit
      collision := hcollision
      dirty := hdirty
      edges := fun px py hedge => by rw [hlit, inSprite_eq_false hedge, Bool.xor_false]
      register := fun r hr => m.v_drawSprite x y _ hr
      index := rfl
      memory := rfl
      stack := rfl
      timers := rfl
      keypad := rfl
      waiting := rfl
      random := rfl
      dialect := rfl }

end Machine

open Micro

/-- A drawing whose sprite lies inside memory is not refused. It toggles the pixels on the screen whose bits are set in
memory, and no others; VF tells whether one of them was lit, and the pixels have to be shown again if there are any.
All else is as before. The cells that are written pixel by pixel are then the same, and a cycle that reads the
instruction does the same. -/
theorem draw_pixels (m : Machine) (x y n : Fin 16) (h0 : 0 ≤ m.index) (h1 : m.index + n.val ≤ 4096) :
    (∃ after, m.execute (.draw x y n) = .ok after ∧ m.Drawn x y n after ∧ after.counter = m.counter ∧
      ∀ r : Rest, ∃ store, run (draw x y n) (m.bare r) = (.ok (), store) ∧
        store = after.bare (r.note (Trace.line? m after (.draw x y n))) ∧
        store.pixels = List.ofFn fun py : Fin 32 => List.ofFn fun px : Fin 64 =>
          if (m.screen.lit px py ^^ m.inSprite x y n px py) = true then 1 else 0) ∧
    (m.Reads (0xD000 + 0x100 * x + 0x10 * y + n) →
      m.cycle.2 = .ok (.known (.draw x y n)) ∧ m.Drawn x y n m.cycle.1 ∧ m.cycle.1.counter = m.counter + 2) := by
  have hread : m.memory.read m.index n.val = .ok (m.spriteBytes n) :=
    m.memory.read_of_fits (Memory.fits_of_le h0 h1)
  constructor
  · have hdrawn := m.drawn_drawSprite x y n
    refine ⟨_, Machine.execute_draw hread, hdrawn, rfl, fun r => ⟨_, run_draw m r x y n hread, rfl, ?_⟩⟩
    rw [bare_pixels]
    simp only [flags, hdrawn.lit]
  · intro hreads
    have hcycle := Machine.cycle_of_draw hreads hread
    rw [hcycle]
    have hdrawn := m.count.pass.drawn_drawSprite x y n
    exact ⟨rfl, { hdrawn with }, rfl⟩

/-- The glyph of 0 is drawn at column 62 and row 30, where two of its columns and two of its rows are on the screen.
Both registers that give the place are VF. -/
theorem draw_pixels_corner :
    let m : Machine :=
      { memory := Memory.fresh.put 0x200 [0xDF, 0xF5], registers := Vector.replicate 16 0x3E, index := 0x50 }
    m.cycle.1.Flags (∃ (px : Fin 64) (py : Fin 32), m.inSprite 15 15 5 px py = true ∧ m.screen.lit px py = true) ∧
      m.cycle.1.screen.lit 62 30 = true ∧ m.cycle.1.screen.lit 0 0 = false := by
  intro m
  have hreads : m.Reads (0xD000 + 0x100 * (15 : Fin 16) + 0x10 * (15 : Fin 16) + (5 : Fin 16)) := by decide +kernel
  obtain ⟨-, hcycle⟩ := draw_pixels m 15 15 5 (by decide) (by decide)
  obtain ⟨-, hdrawn, -⟩ := hcycle hreads
  refine ⟨hdrawn.collision, ?_, ?_⟩
  · rw [hdrawn.lit]
    decide +kernel
  · rw [hdrawn.edges 0 0 (by decide +kernel)]
    decide +kernel

end ChipEight
