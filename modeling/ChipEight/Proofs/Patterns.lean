import ChipEight.Proofs.BitFields
import ChipEight.Proofs.Micro.Dispatch
import ChipEight.Proofs.OpcodeText

/-!
# Instructions by their patterns

An opcode may be any integer. Its digits are those of its lowest 16 bits (`Opcode.word`), and the longer fields are
made up of them (`toNat_nn_eq`, `nnn_eq`, `natCast_word`). Beyond family 0 nothing else of an opcode counts
(`Instruction.decode?_mk_word`).

Instruction tables write the opcodes of an instruction as a pattern of four characters. An opcode is looked up by its
family and by a second field that depends on the family; `lookup_by_pattern` says that this finds the one pattern that
the opcode matches, with operands as the opcode has them, and nothing if it matches none. In family 0 it is the whole
opcode that counts.
-/

namespace ChipEight

/-! ### The digits of an opcode -/

namespace Opcode

variable (op : Opcode)

/-- The lowest 16 bits. -/
def word : Nat := Bits.field op.value 0 16

theorem natCast_word : (op.word : Int) = op.value % 65536 := by
  rw [word, Bits.natCast_field]
  simp

theorem word_lt : op.word < 65536 := Bits.field_lt op.value 0 16

theorem word_mk {w : Nat} (h : w < 65536) : (mk w).word = w := by
  rw [word, Bits.field_natCast]
  simpa using h

theorem toNat_nn_eq : op.nn.toNat = 16 * op.y.val + op.n.val := by
  rw [toNat_nn, y, n, digit_val, digit_val, Bits.field_add op.value (show 0 ≤ 4 by omega) (show 4 ≤ 8 by omega),
    Nat.add_comm]
  rfl

theorem nnn_eq : op.nnn.val = 256 * op.x.val + op.nn.toNat := by
  rw [nnn_val, toNat_nn, x, digit_val, Bits.field_add op.value (show 0 ≤ 8 by omega) (show 8 ≤ 12 by omega),
    Nat.add_comm]
  rfl

theorem word_eq : op.word = 4096 * op.family.val + op.nnn.val := by
  rw [word, nnn_val, family, digit_val, Bits.field_add op.value (show 0 ≤ 12 by omega) (show 12 ≤ 16 by omega),
    Nat.add_comm]
  rfl

theorem field_word {start stop : Nat} (h : stop ≤ 16) :
    Bits.field op.word start stop = Bits.field op.value start stop := by
  rw [word, Bits.field_field op.value h, Nat.zero_add, Nat.zero_add]

theorem digit_mk_word {start : Nat} (h : start + 4 ≤ 16) : (mk op.word).digit start = op.digit start := by
  rw [digit, digit, op.field_word h]

theorem nn_mk_word : (mk op.word).nn = op.nn := by
  rw [nn, nn, op.field_word (by omega)]

theorem nnn_mk_word : (mk op.word).nnn = op.nnn := by
  rw [nnn, nnn, op.field_word (by omega)]

/-- The opcode of two bytes keeps the lowest 8 bits of the second one. -/
theorem ofBytes_eq (high low : Int) : ofBytes high low = ⟨256 * high + low % 256⟩ := by
  unfold ofBytes
  rw [Bits.natCast_field, Int.mul_comm]
  simp

end Opcode

namespace Instruction

/-- Opcodes of other families than 0 are told apart by their lowest 16 bits. -/
theorem decode?_mk_word {op : Opcode} (h : op.family.val ≠ 0) : decode? (Opcode.mk op.word) = decode? op := by
  unfold decode? Opcode.family Opcode.x Opcode.y Opcode.n
  simp only [op.digit_mk_word, op.nn_mk_word, op.nnn_mk_word, Nat.reduceAdd, Nat.reduceLeDiff]
  split
  case h_1 hfamily => exact absurd hfamily h
  all_goals rfl

theorem decode?_eq_of_word {op other : Opcode} (hword : other.word = op.word) (h : op.family.val ≠ 0) :
    decode? other = decode? op := by
  have hfamily : other.family = op.family := by
    have heq := op.word_eq
    have heq' := other.word_eq
    have hlt := op.nnn.isLt
    have hlt' := other.nnn.isLt
    omega
  rw [← decode?_mk_word h, ← hword, decode?_mk_word]
  rwa [hfamily]

/-! ### Patterns -/

open Text (digitChar)

/-- A character of a pattern stands for a digit: a small letter for any, and all else for the one that it is. -/
def Stands (c : Char) (digit : Fin 16) : Prop := c.isLower = true ∨ c = digitChar digit

/-- An opcode is one of those that a pattern is written for, by its four lowest digits. -/
def Matches (pattern : String) (op : Opcode) : Prop :=
  List.Forall₂ Stands pattern.toList [op.family, op.x, op.y, op.n]

/-- No digit is written as a small letter, and no two digits are written alike. -/
theorem stands_digitChar (k digit : Fin 16) : Stands (digitChar k) digit ↔ digit = k := by
  have hcapital : ∀ a, (digitChar a).isLower = false := by decide
  have hinjective : ∀ a b, digitChar a = digitChar b → b = a := by decide
  constructor
  · rintro (hsmall | hsame)
    · rw [hcapital k] at hsmall
      cases hsmall
    · exact hinjective k digit hsame
  · rintro rfl
    exact .inr rfl

section

variable {op : Opcode} (p : String) {a b c : Char} (k j l m : Fin 16)

/-- A pattern with three small letters tells the family. -/
theorem matches_family (hp : p.toList = [digitChar k, a, b, c])
    (hsmall : a.isLower = true ∧ b.isLower = true ∧ c.isLower = true) : Matches p op ↔ op.family = k := by
  unfold Matches
  simp only [hp, List.forall₂_cons, List.forall₂_nil_left_iff, stands_digitChar]
  simp [Stands, hsmall]

/-- A pattern with two small letters tells the family and the last digit. -/
theorem matches_last (hp : p.toList = [digitChar k, a, b, digitChar m])
    (hsmall : a.isLower = true ∧ b.isLower = true) : Matches p op ↔ op.family = k ∧ op.n = m := by
  unfold Matches
  simp only [hp, List.forall₂_cons, List.forall₂_nil_left_iff, stands_digitChar]
  simp [Stands, hsmall]

/-- A pattern with one small letter tells the family and the low byte. -/
theorem matches_byte (hp : p.toList = [digitChar k, a, digitChar l, digitChar m]) (hsmall : a.isLower = true) :
    Matches p op ↔ op.family = k ∧ op.nn.toNat = 16 * l.val + m.val := by
  have hbyte : op.y = l ∧ op.n = m ↔ op.nn.toNat = 16 * l.val + m.val := by
    rw [op.toNat_nn_eq]
    omega
  unfold Matches
  simp only [hp, List.forall₂_cons, List.forall₂_nil_left_iff, stands_digitChar]
  simp [Stands, hsmall, hbyte]

/-- A pattern without small letters tells the whole word. -/
theorem matches_all (hp : p.toList = [digitChar k, digitChar j, digitChar l, digitChar m]) :
    Matches p op ↔ op.word = 4096 * k.val + 256 * j.val + 16 * l.val + m.val := by
  have hword : op.family = k ∧ op.x = j ∧ op.y = l ∧ op.n = m ↔
      op.word = 4096 * k.val + 256 * j.val + 16 * l.val + m.val := by
    rw [op.word_eq, op.nnn_eq, op.toNat_nn_eq]
    omega
  unfold Matches
  simp only [hp, List.forall₂_cons, List.forall₂_nil_left_iff, stands_digitChar]
  simpa using hword

end

section

variable {op : Opcode} (k l m : Fin 16) {x y : Fin 16}

private theorem family_of_address {nnn : Fin 4096} (h : op.word = 4096 * k.val + nnn.val) : op.family = k := by
  have heq := op.word_eq
  have hlt := op.nnn.isLt
  omega

private theorem family_of_byte {nn : UInt8} (h : op.word = 4096 * k.val + 256 * x.val + nn.toNat) : op.family = k := by
  have heq := op.word_eq
  have hlt := op.nnn.isLt
  have hbyte := nn.toNat_lt
  omega

private theorem digits_of_last (h : op.word = 4096 * k.val + m.val + 256 * x.val + 16 * y.val) :
    op.family = k ∧ op.n = m := by
  have heq := op.word_eq
  have hlt := op.nnn.isLt
  have hnnn := op.nnn_eq
  have hnn := op.toNat_nn_eq
  omega

private theorem digits_of_byte (h : op.word = 4096 * k.val + (16 * l.val + m.val) + 256 * x.val) :
    op.family = k ∧ op.nn.toNat = 16 * l.val + m.val := by
  have heq := op.word_eq
  have hlt := op.nnn.isLt
  have hnnn := op.nnn_eq
  have hbyte := op.nn.toNat_lt
  omega

end

/-- The word of an instruction matches its pattern: the digits that the pattern names are the same for all operands. -/
theorem matches_of_word {op : Opcode} {i : Instruction} (h : op.word = i.word) : Matches i.pattern op := by
  cases i with
  | clearScreen => exact (matches_all "00E0" 0 0 0xE 0 rfl).2 h
  | ret => exact (matches_all "00EE" 0 0 0xE 0xE rfl).2 h
  | jump nnn => exact (matches_family "1nnn" 1 rfl ⟨rfl, rfl, rfl⟩).2 (family_of_address 1 h)
  | call nnn => exact (matches_family "2nnn" 2 rfl ⟨rfl, rfl, rfl⟩).2 (family_of_address 2 h)
  | skipIfByte x nn => exact (matches_family "3xkk" 3 rfl ⟨rfl, rfl, rfl⟩).2 (family_of_byte 3 h)
  | skipUnlessByte x nn => exact (matches_family "4xkk" 4 rfl ⟨rfl, rfl, rfl⟩).2 (family_of_byte 4 h)
  | skipIfSame x y => exact (matches_last "5xy0" 5 0 rfl ⟨rfl, rfl⟩).2 (digits_of_last 5 0 h)
  | setByte x nn => exact (matches_family "6xkk" 6 rfl ⟨rfl, rfl, rfl⟩).2 (family_of_byte 6 h)
  | addByte x nn => exact (matches_family "7xkk" 7 rfl ⟨rfl, rfl, rfl⟩).2 (family_of_byte 7 h)
  | copy x y => exact (matches_last "8xy0" 8 0 rfl ⟨rfl, rfl⟩).2 (digits_of_last 8 0 h)
  | bitOr x y => exact (matches_last "8xy1" 8 1 rfl ⟨rfl, rfl⟩).2 (digits_of_last 8 1 h)
  | bitAnd x y => exact (matches_last "8xy2" 8 2 rfl ⟨rfl, rfl⟩).2 (digits_of_last 8 2 h)
  | bitXor x y => exact (matches_last "8xy3" 8 3 rfl ⟨rfl, rfl⟩).2 (digits_of_last 8 3 h)
  | add x y => exact (matches_last "8xy4" 8 4 rfl ⟨rfl, rfl⟩).2 (digits_of_last 8 4 h)
  | subtract x y => exact (matches_last "8xy5" 8 5 rfl ⟨rfl, rfl⟩).2 (digits_of_last 8 5 h)
  | shiftRight x y => exact (matches_last "8xy6" 8 6 rfl ⟨rfl, rfl⟩).2 (digits_of_last 8 6 h)
  | subtractFrom x y => exact (matches_last "8xy7" 8 7 rfl ⟨rfl, rfl⟩).2 (digits_of_last 8 7 h)
  | shiftLeft x y => exact (matches_last "8xyE" 8 0xE rfl ⟨rfl, rfl⟩).2 (digits_of_last 8 0xE h)
  | skipUnlessSame x y => exact (matches_last "9xy0" 9 0 rfl ⟨rfl, rfl⟩).2 (digits_of_last 9 0 h)
  | setIndex nnn => exact (matches_family "Annn" 0xA rfl ⟨rfl, rfl, rfl⟩).2 (family_of_address 0xA h)
  | jumpOffset x nnn => exact (matches_family "Bnnn" 0xB rfl ⟨rfl, rfl, rfl⟩).2 (family_of_address 0xB h)
  | random x nn => exact (matches_family "Cxkk" 0xC rfl ⟨rfl, rfl, rfl⟩).2 (family_of_byte 0xC h)
  | draw x y n =>
    have hrest : op.word = 4096 * 0xD + (0x100 * x.val + 0x10 * y.val + n.val) := by
      simp only [h, word]
      omega
    have heq := op.word_eq
    have hlt := op.nnn.isLt
    exact (matches_family "Dxyn" 0xD rfl ⟨rfl, rfl, rfl⟩).2 (by omega)
  | skipIfKey x => exact (matches_byte "Ex9E" 0xE 9 0xE rfl rfl).2 (digits_of_byte 0xE 9 0xE h)
  | skipUnlessKey x => exact (matches_byte "ExA1" 0xE 0xA 1 rfl rfl).2 (digits_of_byte 0xE 0xA 1 h)
  | readDelay x => exact (matches_byte "Fx07" 0xF 0 7 rfl rfl).2 (digits_of_byte 0xF 0 7 h)
  | waitForKey x => exact (matches_byte "Fx0A" 0xF 0 0xA rfl rfl).2 (digits_of_byte 0xF 0 0xA h)
  | setDelay x => exact (matches_byte "Fx15" 0xF 1 5 rfl rfl).2 (digits_of_byte 0xF 1 5 h)
  | setSound x => exact (matches_byte "Fx18" 0xF 1 8 rfl rfl).2 (digits_of_byte 0xF 1 8 h)
  | addToIndex x => exact (matches_byte "Fx1E" 0xF 1 0xE rfl rfl).2 (digits_of_byte 0xF 1 0xE h)
  | pointAtGlyph x => exact (matches_byte "Fx29" 0xF 2 9 rfl rfl).2 (digits_of_byte 0xF 2 9 h)
  | storeDecimal x => exact (matches_byte "Fx33" 0xF 3 3 rfl rfl).2 (digits_of_byte 0xF 3 3 h)
  | storeRegisters x => exact (matches_byte "Fx55" 0xF 5 5 rfl rfl).2 (digits_of_byte 0xF 5 5 h)
  | loadRegisters x => exact (matches_byte "Fx65" 0xF 6 5 rfl rfl).2 (digits_of_byte 0xF 6 5 h)

/-- An opcode that is a word below 0x1000 is in family 0. -/
private theorem family_zero_of_word {op : Opcode} {w : Nat} (hword : op.word = w) (hw : w < 4096)
    (h : op.family.val ≠ 0 ∨ op.value = op.word) : op.family = 0 ∧ op.value = w := by
  have heq := op.word_eq
  have hfamily : op.family = 0 := by omega
  rcases h with hother | hvalue
  · exact absurd (congrArg Fin.val hfamily) hother
  · rw [hvalue, hword]
    exact ⟨hfamily, rfl⟩

/-- An opcode that matches the pattern of an instruction stands for an instruction with this pattern. In family 0 the
opcode has to be a word. -/
theorem exists_decode?_of_matches {op : Opcode} {i : Instruction} (hi : Matches i.pattern op)
    (h : op.family.val ≠ 0 ∨ op.value = op.word) : ∃ j, decode? op = some j ∧ j.pattern = i.pattern := by
  cases i with
  | clearScreen =>
    have hword : op.word = 0x00E0 := (matches_all "00E0" 0 0 0xE 0 rfl).1 hi
    obtain ⟨hfamily, hvalue⟩ := family_zero_of_word hword (by omega) h
    exact ⟨clearScreen, by simp only [decode?, hfamily, hvalue]; rfl, rfl⟩
  | ret =>
    have hword : op.word = 0x00EE := (matches_all "00EE" 0 0 0xE 0xE rfl).1 hi
    obtain ⟨hfamily, hvalue⟩ := family_zero_of_word hword (by omega) h
    exact ⟨ret, by simp only [decode?, hfamily, hvalue]; rfl, rfl⟩
  | jump nnn =>
    have hfamily := (matches_family "1nnn" 1 rfl ⟨rfl, rfl, rfl⟩).1 hi
    exact ⟨jump op.nnn, by simp only [decode?, hfamily]; rfl, rfl⟩
  | call nnn =>
    have hfamily := (matches_family "2nnn" 2 rfl ⟨rfl, rfl, rfl⟩).1 hi
    exact ⟨call op.nnn, by simp only [decode?, hfamily]; rfl, rfl⟩
  | skipIfByte x nn =>
    have hfamily := (matches_family "3xkk" 3 rfl ⟨rfl, rfl, rfl⟩).1 hi
    exact ⟨skipIfByte op.x op.nn, by simp only [decode?, hfamily]; rfl, rfl⟩
  | skipUnlessByte x nn =>
    have hfamily := (matches_family "4xkk" 4 rfl ⟨rfl, rfl, rfl⟩).1 hi
    exact ⟨skipUnlessByte op.x op.nn, by simp only [decode?, hfamily]; rfl, rfl⟩
  | skipIfSame x y =>
    obtain ⟨hfamily, hn⟩ := (matches_last "5xy0" 5 0 rfl ⟨rfl, rfl⟩).1 hi
    exact ⟨skipIfSame op.x op.y, by simp only [decode?, hfamily, hn]; rfl, rfl⟩
  | setByte x nn =>
    have hfamily := (matches_family "6xkk" 6 rfl ⟨rfl, rfl, rfl⟩).1 hi
    exact ⟨setByte op.x op.nn, by simp only [decode?, hfamily]; rfl, rfl⟩
  | addByte x nn =>
    have hfamily := (matches_family "7xkk" 7 rfl ⟨rfl, rfl, rfl⟩).1 hi
    exact ⟨addByte op.x op.nn, by simp only [decode?, hfamily]; rfl, rfl⟩
  | copy x y =>
    obtain ⟨hfamily, hn⟩ := (matches_last "8xy0" 8 0 rfl ⟨rfl, rfl⟩).1 hi
    exact ⟨copy op.x op.y, by simp only [decode?, arithmetic?, hfamily, hn]; rfl, rfl⟩
  | bitOr x y =>
    obtain ⟨hfamily, hn⟩ := (matches_last "8xy1" 8 1 rfl ⟨rfl, rfl⟩).1 hi
    exact ⟨bitOr op.x op.y, by simp only [decode?, arithmetic?, hfamily, hn]; rfl, rfl⟩
  | bitAnd x y =>
    obtain ⟨hfamily, hn⟩ := (matches_last "8xy2" 8 2 rfl ⟨rfl, rfl⟩).1 hi
    exact ⟨bitAnd op.x op.y, by simp only [decode?, arithmetic?, hfamily, hn]; rfl, rfl⟩
  | bitXor x y =>
    obtain ⟨hfamily, hn⟩ := (matches_last "8xy3" 8 3 rfl ⟨rfl, rfl⟩).1 hi
    exact ⟨bitXor op.x op.y, by simp only [decode?, arithmetic?, hfamily, hn]; rfl, rfl⟩
  | add x y =>
    obtain ⟨hfamily, hn⟩ := (matches_last "8xy4" 8 4 rfl ⟨rfl, rfl⟩).1 hi
    exact ⟨add op.x op.y, by simp only [decode?, arithmetic?, hfamily, hn]; rfl, rfl⟩
  | subtract x y =>
    obtain ⟨hfamily, hn⟩ := (matches_last "8xy5" 8 5 rfl ⟨rfl, rfl⟩).1 hi
    exact ⟨subtract op.x op.y, by simp only [decode?, arithmetic?, hfamily, hn]; rfl, rfl⟩
  | shiftRight x y =>
    obtain ⟨hfamily, hn⟩ := (matches_last "8xy6" 8 6 rfl ⟨rfl, rfl⟩).1 hi
    exact ⟨shiftRight op.x op.y, by simp only [decode?, arithmetic?, hfamily, hn]; rfl, rfl⟩
  | subtractFrom x y =>
    obtain ⟨hfamily, hn⟩ := (matches_last "8xy7" 8 7 rfl ⟨rfl, rfl⟩).1 hi
    exact ⟨subtractFrom op.x op.y, by simp only [decode?, arithmetic?, hfamily, hn]; rfl, rfl⟩
  | shiftLeft x y =>
    obtain ⟨hfamily, hn⟩ := (matches_last "8xyE" 8 0xE rfl ⟨rfl, rfl⟩).1 hi
    exact ⟨shiftLeft op.x op.y, by simp only [decode?, arithmetic?, hfamily, hn]; rfl, rfl⟩
  | skipUnlessSame x y =>
    obtain ⟨hfamily, hn⟩ := (matches_last "9xy0" 9 0 rfl ⟨rfl, rfl⟩).1 hi
    exact ⟨skipUnlessSame op.x op.y, by simp only [decode?, hfamily, hn]; rfl, rfl⟩
  | setIndex nnn =>
    have hfamily := (matches_family "Annn" 0xA rfl ⟨rfl, rfl, rfl⟩).1 hi
    exact ⟨setIndex op.nnn, by simp only [decode?, hfamily]; rfl, rfl⟩
  | jumpOffset x nnn =>
    have hfamily := (matches_family "Bnnn" 0xB rfl ⟨rfl, rfl, rfl⟩).1 hi
    exact ⟨jumpOffset op.x op.nnn, by simp only [decode?, hfamily]; rfl, rfl⟩
  | random x nn =>
    have hfamily := (matches_family "Cxkk" 0xC rfl ⟨rfl, rfl, rfl⟩).1 hi
    exact ⟨random op.x op.nn, by simp only [decode?, hfamily]; rfl, rfl⟩
  | draw x y n =>
    have hfamily := (matches_family "Dxyn" 0xD rfl ⟨rfl, rfl, rfl⟩).1 hi
    exact ⟨draw op.x op.y op.n, by simp only [decode?, hfamily]; rfl, rfl⟩
  | skipIfKey x =>
    obtain ⟨hfamily, hnn⟩ := (matches_byte "Ex9E" 0xE 9 0xE rfl rfl).1 hi
    have hbyte : op.nn = 0x9E := UInt8.toNat_inj.1 hnn
    exact ⟨skipIfKey op.x, by simp only [decode?, hfamily, hbyte]; rfl, rfl⟩
  | skipUnlessKey x =>
    obtain ⟨hfamily, hnn⟩ := (matches_byte "ExA1" 0xE 0xA 1 rfl rfl).1 hi
    have hbyte : op.nn = 0xA1 := UInt8.toNat_inj.1 hnn
    exact ⟨skipUnlessKey op.x, by simp only [decode?, hfamily, hbyte]; rfl, rfl⟩
  | readDelay x =>
    obtain ⟨hfamily, hnn⟩ := (matches_byte "Fx07" 0xF 0 7 rfl rfl).1 hi
    exact ⟨readDelay op.x, by simp only [decode?, miscellaneous?, hfamily, hnn]; rfl, rfl⟩
  | waitForKey x =>
    obtain ⟨hfamily, hnn⟩ := (matches_byte "Fx0A" 0xF 0 0xA rfl rfl).1 hi
    exact ⟨waitForKey op.x, by simp only [decode?, miscellaneous?, hfamily, hnn]; rfl, rfl⟩
  | setDelay x =>
    obtain ⟨hfamily, hnn⟩ := (matches_byte "Fx15" 0xF 1 5 rfl rfl).1 hi
    exact ⟨setDelay op.x, by simp only [decode?, miscellaneous?, hfamily, hnn]; rfl, rfl⟩
  | setSound x =>
    obtain ⟨hfamily, hnn⟩ := (matches_byte "Fx18" 0xF 1 8 rfl rfl).1 hi
    exact ⟨setSound op.x, by simp only [decode?, miscellaneous?, hfamily, hnn]; rfl, rfl⟩
  | addToIndex x =>
    obtain ⟨hfamily, hnn⟩ := (matches_byte "Fx1E" 0xF 1 0xE rfl rfl).1 hi
    exact ⟨addToIndex op.x, by simp only [decode?, miscellaneous?, hfamily, hnn]; rfl, rfl⟩
  | pointAtGlyph x =>
    obtain ⟨hfamily, hnn⟩ := (matches_byte "Fx29" 0xF 2 9 rfl rfl).1 hi
    exact ⟨pointAtGlyph op.x, by simp only [decode?, miscellaneous?, hfamily, hnn]; rfl, rfl⟩
  | storeDecimal x =>
    obtain ⟨hfamily, hnn⟩ := (matches_byte "Fx33" 0xF 3 3 rfl rfl).1 hi
    exact ⟨storeDecimal op.x, by simp only [decode?, miscellaneous?, hfamily, hnn]; rfl, rfl⟩
  | storeRegisters x =>
    obtain ⟨hfamily, hnn⟩ := (matches_byte "Fx55" 0xF 5 5 rfl rfl).1 hi
    exact ⟨storeRegisters op.x, by simp only [decode?, miscellaneous?, hfamily, hnn]; rfl, rfl⟩
  | loadRegisters x =>
    obtain ⟨hfamily, hnn⟩ := (matches_byte "Fx65" 0xF 6 5 rfl rfl).1 hi
    exact ⟨loadRegisters op.x, by simp only [decode?, miscellaneous?, hfamily, hnn]; rfl, rfl⟩

theorem decode?_eq_none_iff_matches {op : Opcode} (h : op.family.val ≠ 0) :
    decode? op = none ↔ ∀ i : Instruction, ¬ Matches i.pattern op := by
  constructor
  · intro hnone i hi
    obtain ⟨j, hj, -⟩ := exists_decode?_of_matches hi (.inl h)
    rw [hnone] at hj
    cases hj
  · intro hnot
    cases hi : decode? op with
    | none => rfl
    | some i =>
      rw [← decode?_mk_word h] at hi
      exact absurd (matches_of_word (word_of_decode? op.word_lt hi)) (hnot i)

/-- No opcode matches two patterns. -/
theorem pattern_eq_of_matches {op : Opcode} {i j : Instruction} (hi : Matches i.pattern op)
    (hj : Matches j.pattern op) : i.pattern = j.pattern := by
  have hword : (Opcode.mk op.word).word = op.word := Opcode.word_mk op.word_lt
  have hdigits : ∀ p, Matches p op ↔ Matches p (Opcode.mk op.word) := by
    intro p
    unfold Matches Opcode.family Opcode.x Opcode.y Opcode.n
    simp only [op.digit_mk_word, Nat.reduceAdd, Nat.reduceLeDiff]
  obtain ⟨i', hi', hpi⟩ := exists_decode?_of_matches ((hdigits _).1 hi) (.inr (congrArg Nat.cast hword.symm))
  obtain ⟨j', hj', hpj⟩ := exists_decode?_of_matches ((hdigits _).1 hj) (.inr (congrArg Nat.cast hword.symm))
  rw [hi'] at hj'
  rw [← hpi, ← hpj, Option.some.inj hj']

/-- In family 0 the whole opcode counts. -/
theorem decode?_of_family_zero {op : Opcode} (h : op.family.val = 0) (i : Instruction) :
    decode? op = some i ↔ op.value = 0x00E0 ∧ i = clearScreen ∨ op.value = 0x00EE ∧ i = ret := by
  have hdecode : decode? op =
      if op.value = 0x00E0 then some clearScreen else if op.value = 0x00EE then some ret else none := by
    unfold decode?
    rw [h]
    rfl
  rw [hdecode]
  by_cases hclear : op.value = 0x00E0
  · simp [hclear, eq_comm]
  · by_cases hret : op.value = 0x00EE
    · simp [hret, eq_comm]
    · simp [hclear, hret]

end Instruction

open Micro in
/-- Every integer is taken apart into digits, and the longer fields are made up of them. It is looked up without a
fault: in family 0 by its whole value, and in every other family by its lowest 16 bits. There the instruction that is
found has the one pattern that the opcode matches, and is written as these 16 bits; none is found if the opcode matches
no pattern. -/
theorem lookup_by_pattern :
    (∀ high low : Int, (Bits.join high low 8).bind split = split (256 * high + low % 256) ∧
      Opcode.ofBytes high low = ⟨256 * high + low % 256⟩) ∧
    ∀ opcode : Int,
      let op : Opcode := ⟨opcode⟩
      ∃ f : Fields, split opcode = .ok f ∧ f = Fields.ofOpcode op ∧ f.opcode = opcode ∧
        (f.family < 16 ∧ f.x < 16 ∧ f.y < 16 ∧ f.n < 16) ∧
        (f.nn = 16 * f.y + f.n ∧ f.nnn = 256 * f.x + f.nn ∧ (4096 * f.family + f.nnn : Int) = opcode % 65536) ∧
        find f = .ok ((Instruction.decode? op).map program) ∧
        (f.family = 0 → ∀ i, Instruction.decode? op = some i ↔
          opcode = 0x00E0 ∧ i = .clearScreen ∨ opcode = 0x00EE ∧ i = .ret) ∧
        (f.family ≠ 0 →
          (∀ other : Int, other % 65536 = opcode % 65536 → Instruction.decode? ⟨other⟩ = Instruction.decode? op) ∧
          (∀ i, Instruction.decode? op = some i →
            i.Proper ∧ (i.word : Int) = opcode % 65536 ∧ Instruction.Matches i.pattern op) ∧
          (∀ i : Instruction, Instruction.Matches i.pattern op →
            ∃ j, Instruction.decode? op = some j ∧ j.pattern = i.pattern) ∧
          (Instruction.decode? op = none ↔ ∀ i : Instruction, ¬ Instruction.Matches i.pattern op)) ∧
        ∀ i j : Instruction, Instruction.Matches i.pattern op → Instruction.Matches j.pattern op →
          i.pattern = j.pattern := by
  refine ⟨fun high low => ⟨?_, Opcode.ofBytes_eq high low⟩, fun opcode => ?_⟩
  · have hjoin : Bits.above high (Bits.field low 0 8) 8 = (Opcode.ofBytes high low).value := rfl
    rw [Bits.join_of_pos high low (by decide), Except.bind]
    exact congrArg split (hjoin.trans (congrArg Opcode.value (Opcode.ofBytes_eq high low)))
  · intro op
    have hword : (op.word : Int) = opcode % 65536 := op.natCast_word
    refine ⟨Fields.ofOpcode op, split_value op, rfl, rfl, ⟨op.family.isLt, op.x.isLt, op.y.isLt, op.n.isLt⟩,
      ⟨op.toNat_nn_eq, op.nnn_eq, ?_⟩, find_ofOpcode op, Instruction.decode?_of_family_zero, fun h => ?_,
      fun i j => Instruction.pattern_eq_of_matches⟩
    · have heq := op.word_eq
      simp only [Fields.ofOpcode]
      omega
    · refine ⟨fun other hother => ?_, fun i hi => ?_, fun i hi => Instruction.exists_decode?_of_matches hi (.inl h),
        Instruction.decode?_eq_none_iff_matches h⟩
      · have hsame : (Opcode.mk other).word = op.word := by
          have hother' := (Opcode.mk other).natCast_word
          dsimp only at hother'
          omega
        exact Instruction.decode?_eq_of_word hsame h
      · have hdecode : Instruction.decode? (Opcode.mk op.word) = some i := (Instruction.decode?_mk_word h).trans hi
        have heq : op.word = i.word := Instruction.word_of_decode? op.word_lt hdecode
        refine ⟨Instruction.proper_of_decode? hdecode, ?_, Instruction.matches_of_word heq⟩
        rw [← heq, hword]

open Micro in
/-- Minus 30028 is 0x8AB4 in its lowest 16 bits, an addition; 0x100E0 is in family 0 and stands for nothing. -/
theorem lookup_by_pattern_negative :
    ((Fields.ofOpcode ⟨-30028⟩).family ≠ 0 ∧ (0x8AB4 : Int) % 65536 = -30028 % 65536 ∧
        Instruction.decode? ⟨0x8AB4⟩ = Instruction.decode? ⟨-30028⟩ ∧ Instruction.Matches "8xy4" ⟨-30028⟩ ∧
        find (Fields.ofOpcode ⟨-30028⟩) = .ok (some (add 10 11))) ∧
      (Fields.ofOpcode ⟨0x100E0⟩).family = 0 ∧ Instruction.decode? ⟨0x100E0⟩ = none := by
  obtain ⟨-, hlookup⟩ := lookup_by_pattern
  constructor
  · have hfamily : (Fields.ofOpcode ⟨-30028⟩).family ≠ 0 := by decide
    have hadd : Instruction.decode? ⟨-30028⟩ = some (.add 10 11) := by decide
    obtain ⟨f, -, rfl, -, -, -, hfind, -, hother, -⟩ := hlookup (-30028)
    obtain ⟨hsame, hfound, -⟩ := hother hfamily
    rw [hadd] at hfind
    exact ⟨hfamily, by decide, hsame 0x8AB4 (by decide), (hfound _ hadd).2.2, hfind⟩
  · have hfamily : (Fields.ofOpcode ⟨0x100E0⟩).family = 0 := by decide
    obtain ⟨f, -, rfl, -, -, -, -, hzero, -⟩ := hlookup 0x100E0
    refine ⟨hfamily, Option.eq_none_iff_forall_ne_some.2 fun i hi => ?_⟩
    rcases (hzero hfamily i).1 hi with ⟨hclear, -⟩ | ⟨hret, -⟩
    · exact absurd hclear (by decide)
    · exact absurd hret (by decide)

end ChipEight
