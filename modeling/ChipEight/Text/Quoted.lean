import ChipEight.Text.Printable

/-!
# Quoted text

A text between quotes, on one line and with printable characters only. Single quotes are used unless the text
holds a single quote and no double quote. Inside, the backslash and the quote in use stand behind a backslash, and
an unprintable character is written by a letter or by its code point in two, four or eight digits.
-/

namespace ChipEight.Text

/-- Double quotes only for a text with a single quote and no double quote. -/
def quoteMark (text : List Char) : Char :=
  if text.contains '\x27' && !text.contains '\x22' then '\x22' else '\x27'

/-- The digits of a natural number, in lower case, with zeros in front up to a width. -/
def codeDigits (width n : Nat) : List Char :=
  let digits := Nat.toDigits 16 n
  List.replicate (width - digits.length) '0' ++ digits

/-- The code point of an unprintable character, in as many digits as its size needs. -/
def codeEscape (c : Char) : List Char :=
  let n := c.toNat
  if n < 0x100 then '\\' :: 'x' :: codeDigits 2 n
  else if n < 0x10000 then '\\' :: 'u' :: codeDigits 4 n
  else '\\' :: 'U' :: codeDigits 8 n

/-- A character inside quotes of the given kind. -/
def escapeIn (mark c : Char) : List Char :=
  if c = mark ∨ c = '\\' then ['\\', c]
  else if c = '\n' then ['\\', 'n']
  else if c = '\r' then ['\\', 'r']
  else if c = '\t' then ['\\', 't']
  else if isPrintable c then [c]
  else codeEscape c

/-- The text between quotes. -/
def quoted (text : String) : String :=
  let cs := text.toList
  let mark := quoteMark cs
  String.ofList (mark :: cs.flatMap (escapeIn mark) ++ [mark])

end ChipEight.Text
