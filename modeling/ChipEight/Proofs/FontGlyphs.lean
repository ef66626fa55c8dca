import ChipEight.Proofs.ByteMap
import ChipEight.Proofs.Footprints
import ChipEight.Proofs.Redrawing
import ChipEight.Proofs.RunCycles

/-!
# The font in memory

The font stands below the programs, so no load reaches it, and of the instructions only those that store bytes do. As
long as none of these stores there (`Machine.SparesFont`), memory holds the font at every point of a run
(`Machine.font_of_passes`). There an instruction points at the glyph of any digit, and one that draws five rows,
executed next, toggles the pixels of that glyph (`glyphs_of_spared_font`).
-/

namespace ChipEight

/-- The rows of the glyph of a digit. -/
def Font.glyph (digit : Nat) : List UInt8 := (rows.drop (glyphHeight * digit)).take glyphHeight

/-! ### The font and what writes to memory -/

namespace Memory

variable {m written : Memory}

/-- The glyphs stand where they were put. -/
def HoldsFont (m : Memory) : Prop := m.between Font.start Font.stop = Font.rows

theorem between_font (m : Memory) :
    m.between Font.start Font.stop = (List.range 80).map fun i => m.byteAt (Font.start + i) :=
  m.between_eq_map (by decide)

theorem holdsFont_fresh : fresh.HoldsFont := by
  rw [HoldsFont, between_font]
  simp only [byteAt_fresh]
  decide

theorem HoldsFont.of_byteAt (h : m.HoldsFont)
    (hsame : ∀ address, Font.start ≤ address → address < Font.stop → written.byteAt address = m.byteAt address) :
    written.HoldsFont := by
  rw [HoldsFont, between_font] at h ⊢
  rw [← h]
  refine List.map_congr_left fun i hi => ?_
  have hlt : i < 80 := List.mem_range.1 hi
  have hstop : Font.stop = Font.start + 80 := rfl
  exact hsame _ (by omega) (by omega)

/-- Programs are loaded behind the font. -/
theorem HoldsFont.loadRom (h : m.HoldsFont) {rom : List UInt8} (hload : m.loadRom rom = .ok written) :
    written.HoldsFont := by
  by_cases hlength : rom.length ≤ 3584
  · rw [m.loadRom_of_short hlength] at hload
    rw [← Except.ok.inj hload]
    refine h.of_byteAt fun address _ hlt => byteAt_put m (.inl ?_)
    have hstop : Font.stop = 0xA0 := rfl
    omega
  · rw [m.loadRom_of_long (Nat.lt_of_not_le hlength)] at hload
    cases hload

theorem read_glyph (h : m.HoldsFont) {digit : Nat} (hdigit : digit < 16) :
    m.read (Font.glyphAddress digit) 5 = .ok (Font.glyph digit) := by
  have hplace : Font.glyphAddress digit = Font.start + 5 * digit := rfl
  have hstart : Font.start = 0x50 := rfl
  have hfits : Fits (Font.glyphAddress digit) (5 : Nat) := fits_of_le (by omega) (by omega)
  rw [HoldsFont, between_font] at h
  refine (read_of_fits m hfits).trans (congrArg Except.ok ?_)
  rw [Font.glyph, ← h, Int.toNat_natCast, hplace]
  have hheight : Font.glyphHeight = 5 := rfl
  apply List.ext_getElem?
  intro i
  rw [List.getElem?_take, List.getElem?_drop, List.getElem?_map, List.getElem?_map, hheight]
  by_cases hi : i < 5
  · have hlt : 5 * digit + i < 80 := by omega
    rw [if_pos hi, List.getElem?_range hi, List.getElem?_range hlt, Option.map_some, Option.map_some, Nat.add_assoc]
  · have hnone : (List.range 5)[i]? = none := List.getElem?_eq_none (by rw [List.length_range]; omega)
    rw [if_neg hi, hnone, Option.map_none]

end Memory

namespace Machine

variable {m : Machine}

/-- If the next cycle stores bytes, it stores them below the font or behind it. -/
def SparesFont (m : Machine) : Prop :=
  (∀ x, m.executed? = some (.storeDecimal x) → m.index + 3 ≤ Font.start ∨ Font.stop ≤ m.index) ∧
    ∀ x, m.executed? = some (.storeRegisters x) → m.index + (x.val + 1) ≤ Font.start ∨ Font.stop ≤ m.index

instance (m : Machine) : Decidable m.SparesFont := inferInstanceAs (Decidable (_ ∧ _))

theorem SparesFont.not_storesAt (h : m.SparesFont) {i : Instruction} (hi : m.executed? = some i) {address : Nat}
    (h0 : Font.start ≤ address) (h1 : address < Font.stop) : ¬ i.StoresAt m.index address := by
  rintro ⟨hle, hlt⟩
  cases i with
  | storeDecimal x =>
    have hbytes : (Instruction.storeDecimal x).storedBytes = 3 := rfl
    have hclear := h.1 x hi
    omega
  | storeRegisters x =>
    have hbytes : (Instruction.storeRegisters x).storedBytes = x.val + 1 := rfl
    have hclear := h.2 x hi
    omega
  | _ =>
    -- the other instructions store nothing
    simp only [Instruction.storedBytes] at hlt
    omega

theorem holdsFont_cycle (h : m.memory.HoldsFont) (hspares : m.SparesFont) : m.cycle.1.memory.HoldsFont := by
  cases hc : m.cycle.2 with
  | error fault =>
    rw [cycle_of_error hc]
    exact h
  | ok step =>
    cases step with
    | unknown op =>
      obtain ⟨w, -, hreads, hw⟩ := (m.cycle_eq_unknown_iff op).1 hc
      rw [cycle_of_unassigned hreads hw]
      exact h
    | known i =>
      have hexecuted : m.executed? = some i := by rw [executed?, hc]
      refine h.of_byteAt fun address h0 h1 => ?_
      exact (footprint_cycle hc).memory address (hspares.not_storesAt hexecuted h0 h1)

/-- What a host does between cycles leaves memory alone, or loads a program. -/
theorem holdsFont_effect (h : m.memory.HoldsFont) {step : HostStep} (hstep : step.runsCycles = false) :
    (step.effect m).memory.HoldsFont := by
  cases step with
  | load rom =>
    simp only [HostStep.effect, Machine.loadRom]
    cases hload : m.memory.loadRom rom with
    | error fault => exact h
    | ok memory => exact h.loadRom hload
  | cycle | frame n => cases hstep
  | _ => exact h

theorem font_of_passes {s : Session} (h : s.machine.memory.HoldsFont) {steps : List HostStep}
    (hspares : ∀ b ∈ s.machine.begun steps, b.SparesFont) {point : Machine} (hpoint : s.Passes steps point) :
    point.memory.HoldsFont :=
  Session.passes_induction (P := fun m => m.memory.HoldsFont) (fun _ _ hstep hfont => holdsFont_effect hfont hstep) h
    (fun b hb hfont => holdsFont_cycle hfont (hspares b hb)) hpoint

/-! ### Drawing a glyph -/

/-- The index points at the glyph of the digit that VX ends with. -/
def atGlyph (m : Machine) (x : Fin 16) : Machine := { m with index := Font.glyphAddress ((m.v x).toNat % 16) }

/-- The screen of `after` has the pixels toggled that the glyph of a digit has at VX and VY, as far as they lie on the
screen, and no others. -/
def TogglesGlyph (m : Machine) (x y : Fin 16) (digit : Nat) (after : Machine) : Prop :=
  ∀ (px : Fin 64) (py : Fin 32), after.screen.lit px py =
    (m.screen.lit px py ^^ Sprite.sets ((m.v x).toNat % 64) ((m.v y).toNat % 32) (Font.glyph digit) px py)

theorem index_atGlyph (m : Machine) (x : Fin 16) : 0x50 ≤ (m.atGlyph x).index ∧ (m.atGlyph x).index + 5 ≤ 0xA0 := by
  have hindex : (m.atGlyph x).index = 0x50 + 5 * ((m.v x).toNat % 16) := rfl
  constructor <;> omega

theorem read_atGlyph (h : m.memory.HoldsFont) (x : Fin 16) :
    (m.atGlyph x).memory.read (m.atGlyph x).index (5 : Fin 16).val = .ok (Font.glyph ((m.v x).toNat % 16)) :=
  Memory.read_glyph h (Nat.mod_lt _ (by decide))

theorem cycle_of_pointAtGlyph {x : Fin 16} (h : m.Reads (0xF029 + 0x100 * x)) :
    m.cycle = (m.count.pass.atGlyph x, .ok (.known (.pointAtGlyph x))) :=
  cycle_of_reads (i := .pointAtGlyph x) h trivial

/-- The cycle that draws, after one that has pointed at a glyph. -/
theorem cycle_of_draw_atGlyph (h : m.memory.HoldsFont) {x y z : Fin 16}
    (hdraws : (m.count.pass.atGlyph x).Reads (0xD005 + 0x100 * y + 0x10 * z)) :
    (m.count.pass.atGlyph x).cycle.2 = .ok (.known (.draw y z 5)) ∧
      m.TogglesGlyph y z ((m.v x).toNat % 16) (m.count.pass.atGlyph x).cycle.1 := by
  have hword : 0xD005 + 0x100 * y.val + 0x10 * z.val = 0xD000 + 0x100 * y.val + 0x10 * z.val + (5 : Fin 16).val := by
    have hrows : (5 : Fin 16).val = 5 := rfl
    omega
  rw [hword] at hdraws
  have hcycle := cycle_of_draw hdraws (m.count.pass.read_atGlyph h x)
  rw [hcycle]
  exact ⟨rfl, (m.count.pass.atGlyph x).count.pass.lit_drawSprite y z _⟩

end Machine

open Micro

/-- If no cycle of a run from a fresh machine stores to the font, memory holds the font at every point of the run. At
each of them, and for each value of VX, the instruction that points at a glyph moves the index into the font, and the
instruction that draws five rows, executed next, is not refused and toggles the pixels of the glyph of the last digit of
the value. So it is on bare cells, and in two cycles that read the instructions. -/
theorem glyphs_of_spared_font (dialect : Dialect) (layout : Layout) (random : Wheel) (logging : Bool)
    {steps : List HostStep}
    (hspares : ∀ b ∈ (Session.fresh dialect layout random logging).machine.begun steps, b.SparesFont) {point : Machine}
    (hpoint : (Session.fresh dialect layout random logging).Passes steps point) :
    point.memory.between 0x50 0xA0 = Font.rows ∧
    ∀ (x : Fin 16) (value : UInt8),
      let m := point.setV x value
      let digit := value.toNat % 16
      (∃ pointed, m.execute (.pointAtGlyph x) = .ok pointed ∧ 0x50 ≤ pointed.index ∧ pointed.index + 5 ≤ 0xA0 ∧
        ∀ y z : Fin 16, ∃ drawn, pointed.execute (.draw y z 5) = .ok drawn ∧ m.TogglesGlyph y z digit drawn ∧
          ∀ r : Rest, ∃ r' r'', run (pointAtGlyph x) (m.bare r) = (.ok (), pointed.bare r') ∧
            run (draw y z 5) (pointed.bare r') = (.ok (), drawn.bare r'')) ∧
      (m.Reads (0xF029 + 0x100 * x) →
        m.cycle.2 = .ok (.known (.pointAtGlyph x)) ∧ 0x50 ≤ m.cycle.1.index ∧ m.cycle.1.index + 5 ≤ 0xA0 ∧
          ∀ y z : Fin 16, m.cycle.1.Reads (0xD005 + 0x100 * y + 0x10 * z) →
            m.cycle.1.cycle.2 = .ok (.known (.draw y z 5)) ∧ m.TogglesGlyph y z digit m.cycle.1.cycle.1) := by
  have hfresh : (Session.fresh dialect layout random logging).machine.memory.HoldsFont := Memory.holdsFont_fresh
  have hfont : point.memory.HoldsFont := Machine.font_of_passes hfresh hspares hpoint
  refine ⟨hfont, fun x value => ?_⟩
  intro m digit
  have hvalue : m.v x = value := (Machine.v_setV point x x value).trans (if_pos rfl)
  have hdigit : (m.v x).toNat % 16 = digit := by rw [hvalue]
  have hholds : m.memory.HoldsFont := hfont
  constructor
  · have hread := Machine.read_atGlyph hholds x
    rw [hdigit] at hread
    obtain ⟨h0, h1⟩ := m.index_atGlyph x
    refine ⟨m.atGlyph x, rfl, h0, h1, fun y z => ⟨_, Machine.execute_draw hread, ?_, fun r => ?_⟩⟩
    · exact (m.atGlyph x).lit_drawSprite y z (Font.glyph digit)
    · exact ⟨_, _, run_pointAtGlyph m r x, run_draw (m.atGlyph x) _ y z 5 hread⟩
  · intro hreads
    obtain ⟨h0, h1⟩ := m.count.pass.index_atGlyph x
    rw [Machine.cycle_of_pointAtGlyph hreads, ← hdigit]
    exact ⟨rfl, h0, h1, fun y z hdraws => Machine.cycle_of_draw_atGlyph hholds hdraws⟩

/-- V0 and V1 are stored at 0x300. Then the glyph of A is drawn at column 62 and row 30, where two of its columns and
two of its rows are on the screen: the first of these rows is lit, and of the second one the first pixel only. -/
theorem glyphs_of_spared_font_corner :
    let rom : List UInt8 := [0x61, 0x3E, 0xA3, 0x00, 0xF1, 0x55, 0xF0, 0x29, 0xD1, 0x15]
    let s := Session.fresh Dialect.modern Layout.standard {} false
    let steps : List HostStep := [.load rom, .frame 3]
    let m := (s.after steps).machine.setV 0 0x1A
    (∀ b ∈ s.machine.begun steps, b.SparesFont) ∧ m.memory.byteAt 0x301 = 0x3E ∧
      m.cycle.1.cycle.2 = .ok (.known (.draw 1 1 5)) ∧ m.TogglesGlyph 1 1 0xA m.cycle.1.cycle.1 ∧
      (m.cycle.1.cycle.1.screen.lit 62 30 = true ∧ m.cycle.1.cycle.1.screen.lit 63 30 = true) ∧
      (m.cycle.1.cycle.1.screen.lit 62 31 = true ∧ m.cycle.1.cycle.1.screen.lit 63 31 = false) ∧
      m.cycle.1.cycle.1.screen.lit 0 30 = false := by
  intro rom s steps m
  have hspares : ∀ b ∈ s.machine.begun steps, b.SparesFont := by decide +kernel
  have hpasses : s.Passes steps (s.after steps).machine := .inl ⟨steps, List.prefix_rfl, rfl⟩
  obtain ⟨-, hglyph⟩ := glyphs_of_spared_font Dialect.modern Layout.standard {} false hspares hpasses
  obtain ⟨-, hcycles⟩ := hglyph 0 0x1A
  have hpoints : m.Reads (0xF029 + 0x100 * (0 : Fin 16)) := by decide +kernel
  have hdraws : m.cycle.1.Reads (0xD005 + 0x100 * (1 : Fin 16) + 0x10 * (1 : Fin 16)) := by decide +kernel
  obtain ⟨-, -, -, hdrawn⟩ := hcycles hpoints
  obtain ⟨hknown, htoggles⟩ := hdrawn 1 1 hdraws
  have hbefore : (m.v 1, m.screen) = (0x3E, {}) := by decide +kernel
  obtain ⟨hcorner, hdark⟩ := Prod.mk.inj hbefore
  refine ⟨hspares, by decide +kernel, hknown, htoggles, ⟨?_, ?_⟩, ⟨?_, ?_⟩, ?_⟩
  all_goals
    rw [htoggles, hcorner, hdark]
    decide +kernel

end ChipEight
