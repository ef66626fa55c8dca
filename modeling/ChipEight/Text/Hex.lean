/-!
# Hexadecimal text

Integers in base 16 with upper-case digits. A negative number has its sign in front, and the sign counts toward a
minimum width: zeros are filled in between sign and digits.
-/

namespace ChipEight.Text

/-- The digits of a natural number, in upper case. -/
def upperHexDigits (n : Nat) : List Char :=
  (Nat.toDigits 16 n).map Char.toUpper

/-- The sign and the digits of `n`, at least `width` characters in all. -/
def hexPadded (width : Nat) (n : Int) : String :=
  let sign := if n < 0 then ['-'] else []
  let digits := upperHexDigits n.natAbs
  String.ofList (sign ++ List.replicate (width - sign.length - digits.length) '0' ++ digits)

/-- The sign and the digits of `n`. -/
def hex (n : Int) : String := hexPadded 0 n

end ChipEight.Text
