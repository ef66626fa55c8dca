import ChipEight.Proofs.Micro.Cells
import ChipEight.Proofs.Rendering
import ChipEight.Proofs.WindowRuns
import Mathlib.Data.List.FinRange

/-!
# The canvas of a window

A window paints pictures on a canvas: a buffer with one dot for each pixel, of which only the three colours are
overwritten, and the bytes that were made of it by repeating rows and columns. Nothing is repeated at a scale of one,
and nothing is done at all while the screen is not marked as changed.

That the bytes are always those of the picture (`Canvas.Shows.after`) rests on what the buffer keeps: 32 rows of 64
dots that are not transparent (`Solid`).
-/

namespace ChipEight.Micro

/-- Rows of dots of four bytes. -/
abbrev Buffer := List (List (List UInt8))

namespace Buffer

/-- Every row `scale` times, then every dot of a row. -/
def upscale (scale : Nat) (b : Buffer) : Buffer := (Picture.stretch scale b).map (Picture.stretch scale)

def toBytes (b : Buffer) : List UInt8 := b.flatten.flatten

/-- Nothing is lit, and the last byte of each dot is set. -/
def dark : Buffer :=
  (List.replicate 32 (List.replicate 64 (List.replicate 4 0))).map fun row => row.map fun dot => dot.set 3 255

/-- The first three bytes of each dot are overwritten. -/
def paint (b : Buffer) (shades : List (List UInt8)) : Buffer :=
  List.zipWith (List.zipWith fun dot shade => List.replicate 3 shade ++ dot.drop 3) b shades

end Buffer

/-- The buffer of a window, and the bytes of its image. -/
structure Canvas where
  buffer : Buffer
  image : List UInt8

namespace Canvas

def blank (scale : Nat) : Canvas := ⟨Buffer.dark, (Buffer.dark.upscale scale).toBytes⟩

/-- The cells of the screen are painted from the bottom upwards. -/
def redraw (c : Canvas) (scale : Nat) (pixels : List (List Nat)) : Canvas :=
  let shades := pixels.reverse.map fun row => row.map fun pixel => UInt8.ofNat pixel * 255
  let buffer := c.buffer.paint shades
  let scaled := if scale ≠ 1 then buffer.upscale scale else buffer
  ⟨buffer, scaled.toBytes⟩

/-- The canvas of a window after an event. -/
def handle (c : Canvas) (w : Window) : Event → Canvas
  | .draw => if w.machine.screen.dirty then c.redraw w.scale w.machine.screen.cells else c
  | _ => c

def after (c : Canvas) (w : Window) : List Event → Canvas
  | [] => c
  | e :: events => (c.handle w e).after (w.handle e).window events

end Canvas

/-! ### Buffers of coloured dots -/

namespace Buffer

/-- The buffer of rows of colours. -/
def ofRows (rows : List (List Colour)) : Buffer := rows.map fun row => row.map Colour.bytes

theorem upscale_one (b : Buffer) : b.upscale 1 = b := by
  unfold upscale
  rw [Picture.stretch_one]
  have hsame : (Picture.stretch 1 : List (List UInt8) → List (List UInt8)) = id := funext Picture.stretch_one
  rw [hsame, List.map_id]

theorem upscale_ofRows (scale : Nat) (rows : List (List Colour)) :
    (ofRows rows).upscale scale = ofRows (Picture.stretch scale (rows.map (Picture.stretch scale))) := by
  unfold upscale ofRows
  rw [Picture.map_stretch, Picture.map_stretch, List.map_map, List.map_map]
  congr 1
  apply List.map_congr_left
  intro row _
  exact (Picture.map_stretch Colour.bytes scale row).symm

theorem toBytes_ofRows (rows : List (List Colour)) : (ofRows rows).toBytes = rows.flatten.flatMap Colour.bytes := by
  unfold toBytes ofRows
  rw [List.flatMap_def, List.map_flatten]

end Buffer

open Buffer

/-- The dots of a screen, one for each pixel. -/
def dotRows (s : Screen) : List (List Colour) := s.rows.toList.reverse.map Picture.rowDots

theorem toBytes_upscale_dotRows (scale : Nat) (s : Screen) :
    ((ofRows (dotRows s)).upscale scale).toBytes = (Picture.render scale s).bytes := by
  rw [upscale_ofRows, toBytes_ofRows, dotRows, List.map_map]
  rfl

/-- A buffer of the size of the screen whose dots are not transparent. -/
structure Solid (b : Buffer) : Prop where
  height : b.length = 32
  width : ∀ row ∈ b, row.length = 64
  alpha : ∀ row ∈ b, ∀ dot ∈ row, dot.drop 3 = [255]

theorem solid_ofRows {rows : List (List Colour)} (hheight : rows.length = 32)
    (hwidth : ∀ row ∈ rows, row.length = 64) (halpha : ∀ row ∈ rows, ∀ colour ∈ row, colour.alpha = 255) :
    Solid (ofRows rows) := by
  refine ⟨by rw [ofRows, List.length_map, hheight], ?_, ?_⟩
  · intro row hrow
    obtain ⟨colours, hcolours, rfl⟩ := List.mem_map.1 hrow
    rw [List.length_map, hwidth colours hcolours]
  · intro row hrow dot hdot
    obtain ⟨colours, hcolours, rfl⟩ := List.mem_map.1 hrow
    obtain ⟨colour, hcolour, rfl⟩ := List.mem_map.1 hdot
    rw [← halpha colours hcolours colour hcolour]
    rfl

theorem solid_dotRows (s : Screen) : Solid (ofRows (dotRows s)) := by
  apply solid_ofRows
  · rw [dotRows, List.length_map, List.length_reverse, Vector.length_toList]
  · intro row hrow
    obtain ⟨pixels, -, rfl⟩ := List.mem_map.1 hrow
    exact Picture.length_rowDots pixels
  · intro row hrow colour hcolour
    obtain ⟨pixels, -, rfl⟩ := List.mem_map.1 hrow
    obtain ⟨x, -, rfl⟩ := List.mem_map.1 hcolour
    split <;> rfl

/-! ### Painting -/

theorem zipWith_eq_map {α β γ : Type} {f : α → β → γ} {g : β → γ} {xs : List α} {ys : List β}
    (hlength : xs.length = ys.length) (hf : ∀ x ∈ xs, ∀ y ∈ ys, f x y = g y) : List.zipWith f xs ys = ys.map g := by
  induction xs generalizing ys with
  | nil =>
    rw [List.length_nil] at hlength
    rw [List.eq_nil_of_length_eq_zero hlength.symm]
    rfl
  | cons x xs ih =>
    cases ys with
    | nil => cases hlength
    | cons y ys =>
      rw [List.forall_mem_cons] at hf
      rw [List.zipWith_cons_cons, List.map_cons, hf.1 y List.mem_cons_self,
        ih (Nat.succ.inj hlength) fun a ha b hb => hf.2 a ha b (List.mem_cons_of_mem y hb)]

/-- What was in an solid buffer does not matter for what is painted over it. -/
theorem paint_eq {b : Buffer} (hb : Solid b) {shades : List (List UInt8)} (hheight : shades.length = 32)
    (hwidth : ∀ row ∈ shades, row.length = 64) :
    b.paint shades = shades.map fun row => row.map fun shade => [shade, shade, shade, 255] := by
  refine zipWith_eq_map (hb.height.trans hheight.symm) fun row hrow dots hdots => ?_
  refine zipWith_eq_map ((hb.width row hrow).trans (hwidth dots hdots).symm) fun dot hdot shade _ => ?_
  rw [hb.alpha row hrow dot hdot]
  rfl

private theorem cells_eq (s : Screen) : s.cells = s.rows.toList.map fun row => flags row.getMsb := by
  apply List.ext_getElem
  · simp [Screen.cells]
  · intro y hy hy'
    simp only [Screen.cells, List.getElem_ofFn, List.getElem_map, Vector.getElem_toList]
    rfl

private theorem bytes_of_cell (b : Bool) :
    (fun shade : UInt8 => [shade, shade, shade, 255]) (UInt8.ofNat (if b then 1 else 0) * 255) =
      (if b then Colour.white else Colour.black).bytes := by
  cases b <;> rfl

theorem paint_cells {b : Buffer} (hb : Solid b) (s : Screen) :
    b.paint (s.cells.reverse.map fun row => row.map fun pixel => UInt8.ofNat pixel * 255) = ofRows (dotRows s) := by
  rw [cells_eq, ← List.map_reverse, List.map_map, paint_eq hb]
  · unfold ofRows dotRows
    rw [List.map_map, List.map_map]
    apply List.map_congr_left
    intro row _
    simp only [Function.comp_apply, Picture.rowDots, flags, List.ofFn_eq_map, List.map_map]
    apply List.map_congr_left
    intro x _
    exact bytes_of_cell (row.getMsb x)
  · rw [List.length_map, List.length_reverse, Vector.length_toList]
  · intro row hrow
    obtain ⟨pixels, -, rfl⟩ := List.mem_map.1 hrow
    simp [flags]

/-! ### The canvas follows the window -/

namespace Canvas

/-- The bytes of the canvas are those of the window's picture. -/
structure Shows (c : Canvas) (w : Window) : Prop where
  buffer : Solid c.buffer
  image : c.image = w.picture.bytes

theorem image_redraw {c : Canvas} (hc : Solid c.buffer) (scale : Nat) (s : Screen) :
    c.redraw scale s.cells = ⟨ofRows (dotRows s), (Picture.render scale s).bytes⟩ := by
  unfold redraw
  dsimp only
  rw [paint_cells hc s]
  by_cases hscale : scale = 1
  · subst hscale
    rw [if_neg (not_not.2 rfl), ← toBytes_upscale_dotRows, upscale_one]
  · rw [if_pos hscale, toBytes_upscale_dotRows]

private theorem dark_eq : dark = ofRows (dotRows {}) := by
  have hrow : Picture.rowDots 0 = List.replicate 64 Colour.black := by decide
  have hrows : ({} : Screen).rows.toList = List.replicate 32 0 := Vector.toList_replicate
  unfold dark ofRows dotRows
  rw [hrows, List.reverse_replicate, List.map_replicate, List.map_replicate, List.map_replicate, hrow,
    List.map_replicate, List.map_replicate]
  rfl

theorem shows_blank {w : Window} (hpicture : w.picture = Picture.render w.scale {}) : (blank w.scale).Shows w := by
  constructor
  · rw [blank, dark_eq]
    exact solid_dotRows {}
  · rw [blank, dark_eq, toBytes_upscale_dotRows, hpicture]

theorem Shows.handle {c : Canvas} {w : Window} (h : c.Shows w) (e : Event) :
    (c.handle w e).Shows (w.handle e).window := by
  have hpicture := (w.confined_handle e).picture
  cases e with
  | draw =>
    simp only [Canvas.handle, Window.handle, Window.draw]
    split
    · rw [image_redraw h.buffer]
      exact ⟨solid_dotRows w.machine.screen, rfl⟩
    · exact ⟨h.buffer, h.image⟩
  | _ =>
    have hsame := hpicture.resolve_left (by simp)
    exact ⟨h.buffer, h.image.trans (congrArg Picture.bytes hsame.symm)⟩

theorem Shows.after {c : Canvas} {w : Window} (h : c.Shows w) (events : List Event) :
    (c.after w events).Shows (w.after events) := by
  induction events generalizing c w with
  | nil => exact h
  | cons e events ih => exact ih (h.handle e)

end Canvas

end ChipEight.Micro
