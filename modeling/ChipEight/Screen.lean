import ChipEight.Position
import ChipEight.Sprite

/-!
# The screen

64 by 32 pixels that are lit or dark, and a mark that tells whether they changed since they were last shown.
-/

namespace ChipEight

/-- The pixels, and whether they have to be shown again. -/
structure Screen where
  rows : Pattern := Vector.replicate 32 0
  /-- The pixels may differ from what is shown. -/
  dirty : Bool := true
deriving DecidableEq

namespace Screen

/-- Pixels in a row. -/
def width : Nat := 64

/-- Rows. -/
def height : Nat := 32

/-- Whether the pixel in column `x` and row `y` is lit. -/
def lit (s : Screen) (x : Fin 64) (y : Fin 32) : Bool := (s.rows.get y).getMsb x

/-- Lights or darkens the pixel in column `x` and row `y`. -/
def paint (s : Screen) (x : Fin 64) (y : Fin 32) (on : Bool) : Screen :=
  let bit := BitVec.twoPow 64 (63 - x)
  let row := s.rows.get y
  ⟨setAt s.rows y (if on then row ||| bit else row &&& ~~~bit), true⟩

/-- The pixel in column `x` and row `y`; the row is checked first. -/
def get (s : Screen) (x y : Int) : Except Fault Bool := do
  let y ← position 0 32 y
  let x ← position 1 64 x
  .ok (s.lit x y)

/-- `paint` at checked positions; the row is checked first. -/
def set (s : Screen) (x y : Int) (on : Bool) : Except Fault Screen := do
  let y ← position 0 32 y
  let x ← position 1 64 x
  .ok (s.paint x y on)

/-- Darkens all pixels. -/
def clear (_ : Screen) : Screen := ⟨Vector.replicate 32 0, true⟩

/-- The pixels are shown. -/
def shown (s : Screen) : Screen := { s with dirty := false }

/-- Some pixel of the pattern is lit on the screen. -/
def meets (s : Screen) (p : Pattern) : Bool :=
  (s.rows.zipWith (· &&& ·) p).any (· ≠ 0)

/-- Toggles the pixels of a pattern; the screen becomes dirty only if there are any. -/
def toggle (s : Screen) (p : Pattern) : Screen :=
  ⟨s.rows.zipWith (· ^^^ ·) p, s.dirty || p.any (· ≠ 0)⟩

end Screen

end ChipEight
