import ChipEight.Screen

/-!
# Pictures

The image that a window shows for a screen: every pixel becomes a square of `scale` by `scale` dots, and the rows
go from the bottom of the screen upwards.
-/

namespace ChipEight

/-- The colour of a dot, in four parts of a byte. -/
structure Colour where
  red : UInt8
  green : UInt8
  blue : UInt8
  alpha : UInt8
deriving DecidableEq

namespace Colour

def white : Colour := ⟨255, 255, 255, 255⟩

def black : Colour := ⟨0, 0, 0, 255⟩

/-- The four bytes of a dot. -/
def bytes (c : Colour) : List UInt8 := [c.red, c.green, c.blue, c.alpha]

end Colour

/-- Rows of dots. -/
structure Picture where
  width : Nat
  /-- The rows of dots, the lowest first. -/
  rows : List (List Colour)
deriving DecidableEq

namespace Picture

/-- The usual size of a pixel. -/
def usualScale : Nat := 10

/-- Every element `n` times in a row. -/
def stretch {α : Type} (n : Nat) (xs : List α) : List α := xs.flatMap (List.replicate n)

/-- The dots of a row of pixels. -/
def rowDots (row : BitVec 64) : List Colour :=
  (List.finRange 64).map fun x => if row.getMsb x then Colour.white else Colour.black

/-- The picture of a screen. -/
def render (scale : Nat) (s : Screen) : Picture where
  width := Screen.width * scale
  rows := stretch scale (s.rows.toList.reverse.map fun row => stretch scale (rowDots row))

/-- The number of bytes in a row. -/
def pitch (p : Picture) : Nat := 4 * p.width

/-- The bytes of all dots, row after row. -/
def bytes (p : Picture) : List UInt8 := p.rows.flatten.flatMap Colour.bytes

end Picture

end ChipEight
