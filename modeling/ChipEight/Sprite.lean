/-!
# Sprites

A sprite is a list of rows of eight pixels. Placed on the screen, of 32 rows of 64 pixels, it becomes a pattern
of the screen's size. Its origin is taken modulo the size of the screen, and what lies past the right or the
bottom edge is cut off.
-/

namespace ChipEight

/-- Rows of pixels from the top; the most significant bit of a row is its leftmost pixel. -/
abbrev Pattern := Vector (BitVec 64) 32

namespace Sprite

/-- A row of eight pixels from column `x` on. -/
def rowAt (x : Nat) (row : UInt8) : BitVec 64 := (row.toBitVec ++ (0 : BitVec 56)) >>> x

/-- The pattern of a sprite whose upper left corner is at column `x` and row `y`. -/
def place (x y : UInt8) (rows : List UInt8) : Pattern :=
  Vector.ofFn fun r : Fin 32 =>
    if y.toNat % 32 ≤ r then
      (rows[r - y.toNat % 32]?.map (rowAt (x.toNat % 64))).getD 0
    else 0

end Sprite

end ChipEight
