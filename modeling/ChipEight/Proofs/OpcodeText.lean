import ChipEight.Proofs.Words

/-!
# The text of an opcode

A word is written with four digits: those of its fields, from the family to the last one (`Opcode.text_mk`). With zeros
in front, a number is written as its sixteenth part and then the last digit (`Text.padded_succ`).
-/

namespace ChipEight

namespace Text

/-- The character for a digit. -/
def digitChar (digit : Fin 16) : Char := (Nat.digitChar digit).toUpper

example : (List.finRange 16).map digitChar = "0123456789ABCDEF".toList := by decide

/-- The digits of a number, with zeros in front up to a width. -/
def padded (width n : Nat) : List Char :=
  List.replicate (width - (upperHexDigits n).length) '0' ++ upperHexDigits n

theorem hexPadded_natCast (width n : Nat) : hexPadded width n = String.ofList (padded width n) := by
  have hsign : ¬ (n : Int) < 0 := by omega
  unfold hexPadded padded
  rw [if_neg hsign]
  rfl

theorem upperHexDigits_of_lt {n : Nat} (h : n < 16) : upperHexDigits n = [digitChar (Fin.ofNat 16 n)] := by
  have hmod : n % 16 = n := Nat.mod_eq_of_lt h
  rw [upperHexDigits, Nat.toDigits_of_lt_base h, digitChar, Fin.val_ofNat, hmod]
  rfl

theorem upperHexDigits_of_le {n : Nat} (h : 16 ≤ n) :
    upperHexDigits n = upperHexDigits (n / 16) ++ [digitChar (Fin.ofNat 16 n)] := by
  rw [upperHexDigits, Nat.toDigits_of_base_le (by decide) h, List.map_append]
  rfl

theorem padded_one {n : Nat} (h : n < 16) : padded 1 n = [digitChar (Fin.ofNat 16 n)] := by
  rw [padded, upperHexDigits_of_lt h]
  rfl

theorem padded_succ {width : Nat} (hwidth : 0 < width) (n : Nat) :
    padded (width + 1) n = padded width (n / 16) ++ [digitChar (Fin.ofNat 16 n)] := by
  unfold padded
  by_cases h : n < 16
  · -- the sixteenth part is 0, which is written as one of the zeros in front
    obtain ⟨k, rfl⟩ : ∃ k, width = k + 1 := ⟨width - 1, by omega⟩
    rw [Nat.div_eq_of_lt h, upperHexDigits_of_lt h, upperHexDigits_of_lt (by decide : 0 < 16)]
    simp only [List.length_singleton, Nat.add_sub_cancel, List.replicate_succ']
    rfl
  · rw [upperHexDigits_of_le (Nat.le_of_not_lt h), List.length_append, List.length_singleton, Nat.add_sub_add_right,
      List.append_assoc]

end Text

namespace Opcode

variable {w : Nat}

theorem eq_digits_mk (hw : w < 65536) :
    w = 4096 * (mk w).family.val + 256 * (mk w).x.val + 16 * (mk w).y.val + (mk w).n.val := by
  rw [family_mk, x_mk, y_mk, n_mk]
  omega

theorem text_mk (hw : w < 65536) :
    (mk w).text = String.ofList ([(mk w).family, (mk w).x, (mk w).y, (mk w).n].map Text.digitChar) := by
  have hfamily : Fin.ofNat 16 (w / 16 / 16 / 16) = (mk w).family := by
    apply Fin.ext
    rw [family_mk, Fin.val_ofNat]
    omega
  have hx : Fin.ofNat 16 (w / 16 / 16) = (mk w).x := by
    apply Fin.ext
    rw [x_mk, Fin.val_ofNat]
    omega
  have hy : Fin.ofNat 16 (w / 16) = (mk w).y := by
    apply Fin.ext
    rw [y_mk, Fin.val_ofNat]
  have hn : Fin.ofNat 16 w = (mk w).n := by
    apply Fin.ext
    rw [n_mk, Fin.val_ofNat]
  rw [text, Text.hexPadded_natCast, Text.padded_succ (by decide), Text.padded_succ (by decide),
    Text.padded_succ (by decide), Text.padded_one (by omega), hfamily, hx, hy, hn]
  rfl

end Opcode

end ChipEight
