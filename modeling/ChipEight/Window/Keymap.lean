import ChipEight.Layout
import ChipEight.Fault
import ChipEight.Window.Keyboard

/-!
# Key maps

Which keypad key a key of the keyboard stands for: a table from symbols to keypad keys, ascending by symbol, read
off the labels of a layout, for a keyboard whose keys have certain names. Of two labels for one symbol the later
counts.
-/

namespace ChipEight

/-- Keypad keys by symbol, ascending and each symbol once. -/
structure Keymap where
  entries : List (Nat × Int)
deriving DecidableEq

namespace Keymap

/-- The key map of no keys. -/
def empty : Keymap := ⟨[]⟩

/-- The entries with one more, in the place of an entry for the same symbol if there is one. -/
def insertEntry (symbol : Nat) (key : Int) : List (Nat × Int) → List (Nat × Int)
  | [] => [(symbol, key)]
  | e :: rest =>
    if symbol < e.1 then (symbol, key) :: e :: rest
    else if symbol = e.1 then (symbol, key) :: rest
    else e :: insertEntry symbol key rest

/-- The key map with a keypad key for a symbol. -/
def insert (m : Keymap) (symbol : Nat) (key : Int) : Keymap := ⟨insertEntry symbol key m.entries⟩

/-- The keypad key for a symbol. -/
def key? (m : Keymap) (symbol : Nat) : Option Int := m.entries.lookup symbol

/-- The symbol that a label means on a keyboard whose keys have these names. -/
def meaning? (names : String → Option Nat) (label : String) : Option Nat := names (Keyboard.nameOfLabel label)

/-- A label that means no key is refused. -/
def resolve (names : String → Option Nat) (label : String) : Except Fault Nat :=
  match meaning? names label with
  | some symbol => .ok symbol
  | none => .error (.unknownKey (Keyboard.nameOfLabel label))

/-- The key map with one more entry of a layout. -/
def extend (names : String → Option Nat) (m : Keymap) (e : Int × String) : Except Fault Keymap :=
  (resolve names e.2).map fun symbol => m.insert symbol e.1

/-- The key map of a layout; the first label that means no key is refused. -/
def ofLayout (l : Layout) (names : String → Option Nat := Keyboard.usual.symbol?) : Except Fault Keymap :=
  l.entries.foldlM (extend names) empty

end Keymap

end ChipEight
