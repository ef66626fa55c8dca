import ChipEight.Text.Digit

/-!
# Keyboards

The keys of a keyboard by name, with the symbols that key events carry. Which names there are is up to the keyboard:
only an escape key and a first function key are counted on. A label of digits only means the key whose name has an
underscore in front.
-/

namespace ChipEight

/-- A keyboard: the symbols of its keys by name, and two keys that are on every keyboard. -/
structure Keyboard where
  symbol? : String → Option Nat
  escape : Nat
  f1 : Nat
  escape_named : symbol? "ESCAPE" = some escape
  f1_named : symbol? "F1" = some f1

namespace Keyboard

/-- The name of the key that a label means. -/
def nameOfLabel (label : String) : String :=
  if label ≠ "" ∧ label.toList.all Text.isDigitSign then "_" ++ label else label

/-- The symbols of letters, digits and a few more keys. -/
def usualSymbol? (name : String) : Option Nat :=
  match name.toList with
  | [c] => if 'A' ≤ c ∧ c ≤ 'Z' then some (c.toNat + 32) else none
  | ['_', c] => if '0' ≤ c ∧ c ≤ '9' then some c.toNat else none
  | _ => [("SPACE", 0x20), ("ESCAPE", 0xFF1B), ("LEFT", 0xFF51), ("UP", 0xFF52), ("RIGHT", 0xFF53), ("DOWN", 0xFF54),
    ("F1", 0xFFBE), ("F2", 0xFFBF)].lookup name

/-- The keyboard of a window that is not given another one. -/
def usual : Keyboard where
  symbol? := usualSymbol?
  escape := 0xFF1B
  f1 := 0xFFBE
  escape_named := by decide
  f1_named := by decide

end Keyboard

end ChipEight
