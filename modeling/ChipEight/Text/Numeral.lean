import ChipEight.Text.Digit

/-!
# Integers in text

An integer may have blanks around it, one sign, and decimal digits of any script with single underscores between
them. The number of digits is bounded.
-/

namespace ChipEight.Text

/-- The blanks that may stand around an integer. -/
def blankRanges : List (Nat × Nat) :=
  [(0x9, 0xD), (0x20, 0x20), (0x85, 0x85), (0xA0, 0xA0), (0x1680, 0x1680), (0x2000, 0x200A), (0x2028, 0x2029),
   (0x202F, 0x202F), (0x205F, 0x205F), (0x3000, 0x3000)]

def isBlank (c : Char) : Bool := inRanges blankRanges c.toNat

/-- The text without the blanks at both ends. -/
def trimBlanks (cs : List Char) : List Char :=
  ((cs.dropWhile isBlank).reverse.dropWhile isBlank).reverse

/-- The longest integer that is read, in digits. -/
def maxDigits : Nat := 4300

/-- The values of the digits, most significant first; an underscore needs a digit on both sides. -/
def digitValues? : List Char → Option (List Nat)
  | [] => none
  | c :: rest =>
    match decimalValue? c, rest with
    | none, _ => none
    | some d, [] => some [d]
    | some d, '_' :: more => (digitValues? more).map (d :: ·)
    | some d, more => (digitValues? more).map (d :: ·)

/-- The number with the given decimal digits, most significant first. -/
def ofDigits (digits : List Nat) : Nat :=
  digits.foldl (fun n d => 10 * n + d) 0

/-- A numeral without sign and blanks. -/
def natural? (cs : List Char) : Option Nat :=
  match digitValues? cs with
  | some digits => if digits.length ≤ maxDigits then some (ofDigits digits) else none
  | none => none

/-- The integer that a text stands for. -/
def integer? (text : String) : Option Int :=
  match trimBlanks text.toList with
  | '-' :: cs => (natural? cs).map fun n => -(n : Int)
  | '+' :: cs => (natural? cs).map Int.ofNat
  | cs => (natural? cs).map Int.ofNat

end ChipEight.Text
