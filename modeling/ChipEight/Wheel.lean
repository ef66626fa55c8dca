/-!
# Number wheels

A source of numbers that deals a list round and round. The empty list deals zeros.
-/

namespace ChipEight

/-- Numbers that are dealt round and round. -/
structure Wheel where
  numbers : Array Int := #[]
  /-- How many numbers were dealt. -/
  dealt : Nat := 0
deriving DecidableEq

namespace Wheel

/-- The number to be dealt next. -/
def next (w : Wheel) : Int := w.numbers[w.dealt % w.numbers.size]?.getD 0

/-- The next number was dealt. -/
def advance (w : Wheel) : Wheel := { w with dealt := w.dealt + 1 }

end Wheel

end ChipEight
