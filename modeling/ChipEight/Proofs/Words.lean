import ChipEight.Machine.Cycle
import Mathlib.Data.Nat.Bitwise

/-!
# Opcodes as numbers

The fields of an opcode below 65536 are its digits, and `Instruction.word` writes the opcode of an instruction. So
`Instruction.decode?` reads an instruction off a word exactly if `word` writes that word for it (`decode?_word`,
`word_of_decode?`); the one operand that does not show is the first digit of the address in a jump with an offset.

`Machine.Reads` says which word stands at the counter. A cycle that reads the word of an instruction executes that
instruction (`Machine.cycle_of_reads`), and a cycle is refused when nothing can be read or when the instruction read
is refused (`Machine.cycle_eq_error_iff`). What it leaves behind then is `Machine.refused`.
-/

namespace ChipEight

namespace Bits

theorem slice_eq_field (value : Int) (start stop width : Nat) (hle : start ≤ stop) (hlt : start < width)
    (hstop : stop ≤ width) : slice value start stop width = .ok (field value start stop) := by
  unfold slice
  rw [if_neg (by omega), Int.toNat_natCast, Int.toNat_natCast]

theorem field_lt (value : Int) (start stop : Nat) : field value start stop < 2 ^ (stop - start) := by
  have hpos : 0 < (2 : Nat) ^ (stop - start) := Nat.two_pow_pos _
  unfold field weight
  rw [Nat.one_shiftLeft]
  have hnonneg := Int.emod_nonneg (value >>> start) (show ((2 ^ (stop - start) : Nat) : Int) ≠ 0 by omega)
  have hlt := Int.emod_lt_of_pos (value >>> start) (show (0 : Int) < ((2 ^ (stop - start) : Nat) : Int) by omega)
  omega

theorem field_natCast (w start stop : Nat) : field w start stop = w / 2 ^ start % 2 ^ (stop - start) := by
  have hshift : ((w : Int) >>> start) = ((w / 2 ^ start : Nat) : Int) := by
    rw [← Nat.shiftRight_eq_div_pow]
    rfl
  unfold field weight
  rw [Nat.one_shiftLeft, hshift, ← Int.natCast_emod, Int.toNat_natCast]

end Bits

/-! ### Fields -/

namespace Opcode

theorem digit_val (op : Opcode) (start : Nat) : (op.digit start).val = Bits.field op.value start (start + 4) := by
  have h := Bits.field_lt op.value start (start + 4)
  rw [Nat.add_sub_cancel_left] at h
  exact Nat.mod_eq_of_lt h

theorem toNat_nn (op : Opcode) : op.nn.toNat = Bits.field op.value 0 8 :=
  UInt8.toNat_ofNat_of_lt' (Bits.field_lt op.value 0 8)

theorem nnn_val (op : Opcode) : op.nnn.val = Bits.field op.value 0 12 :=
  Nat.mod_eq_of_lt (Bits.field_lt op.value 0 12)

variable (w : Nat)

theorem family_mk : (mk w).family.val = w / 4096 % 16 := by
  rw [family, digit_val, Bits.field_natCast]
  rfl

theorem x_mk : (mk w).x.val = w / 256 % 16 := by
  rw [x, digit_val, Bits.field_natCast]
  rfl

theorem y_mk : (mk w).y.val = w / 16 % 16 := by
  rw [y, digit_val, Bits.field_natCast]
  rfl

theorem n_mk : (mk w).n.val = w % 16 := by
  rw [n, digit_val, Bits.field_natCast]
  simp only [Nat.pow_zero, Nat.div_one]
  rfl

theorem nn_mk : (mk w).nn.toNat = w % 256 := by
  rw [toNat_nn, Bits.field_natCast]
  simp only [Nat.pow_zero, Nat.div_one]
  rfl

theorem nnn_mk : (mk w).nnn.val = w % 4096 := by
  rw [nnn_val, Bits.field_natCast]
  simp only [Nat.pow_zero, Nat.div_one]
  rfl

end Opcode

/-! ### Words of instructions -/

namespace Instruction

/-- The word that an instruction is written as. -/
def word : Instruction → Nat
  | clearScreen => 0x00E0
  | ret => 0x00EE
  | jump nnn => 0x1000 + nnn
  | call nnn => 0x2000 + nnn
  | skipIfByte x nn => 0x3000 + 0x100 * x + nn.toNat
  | skipUnlessByte x nn => 0x4000 + 0x100 * x + nn.toNat
  | skipIfSame x y => 0x5000 + 0x100 * x + 0x10 * y
  | setByte x nn => 0x6000 + 0x100 * x + nn.toNat
  | addByte x nn => 0x7000 + 0x100 * x + nn.toNat
  | copy x y => 0x8000 + 0x100 * x + 0x10 * y
  | bitOr x y => 0x8001 + 0x100 * x + 0x10 * y
  | bitAnd x y => 0x8002 + 0x100 * x + 0x10 * y
  | bitXor x y => 0x8003 + 0x100 * x + 0x10 * y
  | add x y => 0x8004 + 0x100 * x + 0x10 * y
  | subtract x y => 0x8005 + 0x100 * x + 0x10 * y
  | shiftRight x y => 0x8006 + 0x100 * x + 0x10 * y
  | subtractFrom x y => 0x8007 + 0x100 * x + 0x10 * y
  | shiftLeft x y => 0x800E + 0x100 * x + 0x10 * y
  | skipUnlessSame x y => 0x9000 + 0x100 * x + 0x10 * y
  | setIndex nnn => 0xA000 + nnn
  | jumpOffset _ nnn => 0xB000 + nnn
  | random x nn => 0xC000 + 0x100 * x + nn.toNat
  | draw x y n => 0xD000 + 0x100 * x + 0x10 * y + n
  | skipIfKey x => 0xE09E + 0x100 * x
  | skipUnlessKey x => 0xE0A1 + 0x100 * x
  | readDelay x => 0xF007 + 0x100 * x
  | waitForKey x => 0xF00A + 0x100 * x
  | setDelay x => 0xF015 + 0x100 * x
  | setSound x => 0xF018 + 0x100 * x
  | addToIndex x => 0xF01E + 0x100 * x
  | pointAtGlyph x => 0xF029 + 0x100 * x
  | storeDecimal x => 0xF033 + 0x100 * x
  | storeRegisters x => 0xF055 + 0x100 * x
  | loadRegisters x => 0xF065 + 0x100 * x

/-- The operands of an instruction are as its word has them. -/
def Proper : Instruction → Prop
  | jumpOffset x nnn => x.val = nnn.val / 256
  | _ => True

private theorem arithmetic?_word (x y n : Fin 16) {i : Instruction} (h : arithmetic? x y n = some i) :
    i.word = 0x8000 + 0x100 * x + 0x10 * y + n := by
  unfold arithmetic? at h
  split at h
  all_goals first | cases h; done | skip
  all_goals
    rename_i hn
    cases h
    simp only [word, hn]
    omega

private theorem miscellaneous?_word (x : Fin 16) (nn : UInt8) {i : Instruction} (h : miscellaneous? x nn = some i) :
    i.word = 0xF000 + 0x100 * x + nn.toNat := by
  unfold miscellaneous? at h
  split at h
  all_goals first | cases h; done | skip
  all_goals
    rename_i hnn
    cases h
    simp only [word, hnn]
    omega

/-- A word is that of the instruction it is read as. -/
theorem word_of_decode? {w : Nat} (hw : w < 65536) {i : Instruction} (h : decode? (Opcode.mk w) = some i) :
    w = i.word := by
  have hfamily := Opcode.family_mk w
  have hx := Opcode.x_mk w
  have hy := Opcode.y_mk w
  have hn := Opcode.n_mk w
  have hnn := Opcode.nn_mk w
  have hnnn := Opcode.nnn_mk w
  unfold decode? at h
  -- the cases come in the order of the families; the last is family 15, as all others are taken before it
  split at h
  case h_1 =>
    split at h
    · rename_i hvalue
      have hw : (w : Int) = 0x00E0 := hvalue
      cases h
      simp only [word]
      omega
    · split at h
      · rename_i hvalue
        have hw : (w : Int) = 0x00EE := hvalue
        cases h
        simp only [word]
        omega
      · cases h
  case h_6 | h_10 =>
    split at h
    · cases h
      simp only [word]
      omega
    · cases h
  case h_9 =>
    have hword := arithmetic?_word _ _ _ h
    omega
  case h_15 =>
    split at h
    · rename_i hbyte
      have hvalue : (Opcode.mk w).nn.toNat = 0x9E := congrArg UInt8.toNat hbyte
      cases h
      simp only [word]
      omega
    · split at h
      · rename_i hbyte
        have hvalue : (Opcode.mk w).nn.toNat = 0xA1 := congrArg UInt8.toNat hbyte
        cases h
        simp only [word]
        omega
      · cases h
  case h_16 =>
    have hlt := (Opcode.mk w).family.isLt
    have hword := miscellaneous?_word _ _ h
    simp only [imp_false] at *
    omega
  all_goals
    cases h
    simp only [word]
    omega

private theorem proper_of_arithmetic? {x y n : Fin 16} {i : Instruction} (h : arithmetic? x y n = some i) :
    i.Proper := by
  unfold arithmetic? at h
  split at h
  all_goals
    cases h
    try trivial

private theorem proper_of_miscellaneous? {x : Fin 16} {nn : UInt8} {i : Instruction}
    (h : miscellaneous? x nn = some i) : i.Proper := by
  unfold miscellaneous? at h
  split at h
  all_goals
    cases h
    try trivial

/-- An instruction that is read off a word has its operands as the word has them. -/
theorem proper_of_decode? {w : Nat} {i : Instruction} (h : decode? (Opcode.mk w) = some i) : i.Proper := by
  unfold decode? at h
  -- only the jump with an offset, in family 11, has operands that overlap
  split at h
  case h_9 => exact proper_of_arithmetic? h
  case h_12 =>
    cases h
    have hx := Opcode.x_mk w
    have hnnn := Opcode.nnn_mk w
    change (Opcode.mk w).x.val = (Opcode.mk w).nnn.val / 256
    omega
  case h_16 => exact proper_of_miscellaneous? h
  all_goals
    repeat' split at h
    all_goals
      cases h
      try trivial

private theorem fields_of_address {w k : Nat} {nnn : Fin 4096} (hk : k < 16) (hw : w = 0x1000 * k + nnn) :
    (Opcode.mk w).family.val = k ∧ (Opcode.mk w).nnn = nnn := by
  refine ⟨?_, Fin.ext ?_⟩
  · rw [Opcode.family_mk]
    omega
  · rw [Opcode.nnn_mk]
    omega

private theorem fields_of_byte {w k : Nat} {x : Fin 16} {nn : UInt8} (hk : k < 16)
    (hw : w = 0x1000 * k + 0x100 * x + nn.toNat) :
    (Opcode.mk w).family.val = k ∧ (Opcode.mk w).x = x ∧ (Opcode.mk w).nn = nn := by
  have hnn := nn.toNat_lt
  refine ⟨?_, Fin.ext ?_, UInt8.toNat_inj.1 ?_⟩
  · rw [Opcode.family_mk]
    omega
  · rw [Opcode.x_mk]
    omega
  · rw [Opcode.nn_mk]
    omega

private theorem fields_of_digits {w k n : Nat} {x y : Fin 16} (hk : k < 16) (hn : n < 16)
    (hw : w = 0x1000 * k + 0x100 * x + 0x10 * y + n) :
    (Opcode.mk w).family.val = k ∧ (Opcode.mk w).x = x ∧ (Opcode.mk w).y = y ∧ (Opcode.mk w).n.val = n := by
  refine ⟨?_, Fin.ext ?_, Fin.ext ?_, ?_⟩
  · rw [Opcode.family_mk]
    omega
  · rw [Opcode.x_mk]
    omega
  · rw [Opcode.y_mk]
    omega
  · rw [Opcode.n_mk]
    omega

private theorem decode?_arithmetic {w n : Nat} {x y : Fin 16} (hn : n < 16)
    (hw : w = 0x8000 + n + 0x100 * x + 0x10 * y) : decode? (Opcode.mk w) = arithmetic? x y ⟨n, hn⟩ := by
  obtain ⟨hfamily, hx, hy, hlast⟩ :=
    fields_of_digits (by omega) hn (show w = 0x1000 * 8 + 0x100 * x + 0x10 * y + n by omega)
  have hn' : (Opcode.mk w).n = ⟨n, hn⟩ := Fin.ext hlast
  simp only [decode?, hfamily, hx, hy, hn']

private theorem decode?_miscellaneous {w n : Nat} {x : Fin 16} (nn : UInt8) (hn : nn.toNat = n)
    (hw : w = 0xF000 + n + 0x100 * x) : decode? (Opcode.mk w) = miscellaneous? x nn := by
  obtain ⟨hfamily, hx, hnn⟩ :=
    fields_of_byte (by omega) (show w = 0x1000 * 15 + 0x100 * x + nn.toNat by omega)
  simp only [decode?, hfamily, hx, hnn]

/-- Every instruction is read off its word. -/
theorem decode?_word {i : Instruction} (h : i.Proper) : decode? (Opcode.mk i.word) = some i := by
  cases i with
  | clearScreen => rfl
  | ret => rfl
  | jump nnn =>
    obtain ⟨hfamily, hnnn⟩ := fields_of_address (by omega) (show (jump nnn).word = 0x1000 * 0x1 + nnn by rfl)
    simp only [decode?, hfamily, hnnn]
  | call nnn =>
    obtain ⟨hfamily, hnnn⟩ := fields_of_address (by omega) (show (call nnn).word = 0x1000 * 0x2 + nnn by rfl)
    simp only [decode?, hfamily, hnnn]
  | skipIfByte x nn =>
    obtain ⟨hfamily, hx, hnn⟩ :=
      fields_of_byte (by omega) (show (skipIfByte x nn).word = 0x1000 * 0x3 + 0x100 * x + nn.toNat by rfl)
    simp only [decode?, hfamily, hx, hnn]
  | skipUnlessByte x nn =>
    obtain ⟨hfamily, hx, hnn⟩ :=
      fields_of_byte (by omega) (show (skipUnlessByte x nn).word = 0x1000 * 0x4 + 0x100 * x + nn.toNat by rfl)
    simp only [decode?, hfamily, hx, hnn]
  | skipIfSame x y =>
    obtain ⟨hfamily, hx, hy, hn⟩ :=
      fields_of_digits (by omega) (by omega) (show (skipIfSame x y).word = 0x1000 * 0x5 + 0x100 * x + 0x10 * y + 0 by rfl)
    simp only [decode?, hfamily, hx, hy, hn, if_true]
  | setByte x nn =>
    obtain ⟨hfamily, hx, hnn⟩ :=
      fields_of_byte (by omega) (show (setByte x nn).word = 0x1000 * 0x6 + 0x100 * x + nn.toNat by rfl)
    simp only [decode?, hfamily, hx, hnn]
  | addByte x nn =>
    obtain ⟨hfamily, hx, hnn⟩ :=
      fields_of_byte (by omega) (show (addByte x nn).word = 0x1000 * 0x7 + 0x100 * x + nn.toNat by rfl)
    simp only [decode?, hfamily, hx, hnn]
  | copy x y => exact decode?_arithmetic (show 0x0 < 16 by omega) rfl
  | bitOr x y => exact decode?_arithmetic (show 0x1 < 16 by omega) rfl
  | bitAnd x y => exact decode?_arithmetic (show 0x2 < 16 by omega) rfl
  | bitXor x y => exact decode?_arithmetic (show 0x3 < 16 by omega) rfl
  | add x y => exact decode?_arithmetic (show 0x4 < 16 by omega) rfl
  | subtract x y => exact decode?_arithmetic (show 0x5 < 16 by omega) rfl
  | shiftRight x y => exact decode?_arithmetic (show 0x6 < 16 by omega) rfl
  | subtractFrom x y => exact decode?_arithmetic (show 0x7 < 16 by omega) rfl
  | shiftLeft x y => exact decode?_arithmetic (show 0xE < 16 by omega) rfl
  | skipUnlessSame x y =>
    obtain ⟨hfamily, hx, hy, hn⟩ :=
      fields_of_digits (by omega) (by omega) (show (skipUnlessSame x y).word = 0x1000 * 0x9 + 0x100 * x + 0x10 * y + 0 by rfl)
    simp only [decode?, hfamily, hx, hy, hn, if_true]
  | setIndex nnn =>
    obtain ⟨hfamily, hnnn⟩ := fields_of_address (by omega) (show (setIndex nnn).word = 0x1000 * 0xA + nnn by rfl)
    simp only [decode?, hfamily, hnnn]
  | jumpOffset x nnn =>
    obtain ⟨hfamily, hnnn⟩ :=
      fields_of_address (by omega) (show (jumpOffset x nnn).word = 0x1000 * 0xB + nnn by rfl)
    have hx : (Opcode.mk (jumpOffset x nnn).word).x = x := by
      have hproper : x.val = nnn.val / 256 := h
      apply Fin.ext
      rw [Opcode.x_mk]
      simp only [word]
      omega
    simp only [decode?, hfamily, hnnn, hx]
  | random x nn =>
    obtain ⟨hfamily, hx, hnn⟩ :=
      fields_of_byte (by omega) (show (random x nn).word = 0x1000 * 0xC + 0x100 * x + nn.toNat by rfl)
    simp only [decode?, hfamily, hx, hnn]
  | draw x y n =>
    obtain ⟨hfamily, hx, hy, hn⟩ :=
      fields_of_digits (by omega) n.isLt (show (draw x y n).word = 0x1000 * 0xD + 0x100 * x + 0x10 * y + n by rfl)
    simp only [decode?, hfamily, hx, hy, Fin.ext hn]
  | skipIfKey x =>
    have hword : (skipIfKey x).word = 0x1000 * 0xE + 0x100 * x + (0x9E : UInt8).toNat := by
      rw [show (0x9E : UInt8).toNat = 0x9E by rfl, word]
      omega
    obtain ⟨hfamily, hx, hnn⟩ := fields_of_byte (by omega) hword
    simp only [decode?, hfamily, hx, hnn]
    rfl
  | skipUnlessKey x =>
    have hword : (skipUnlessKey x).word = 0x1000 * 0xE + 0x100 * x + (0xA1 : UInt8).toNat := by
      rw [show (0xA1 : UInt8).toNat = 0xA1 by rfl, word]
      omega
    obtain ⟨hfamily, hx, hnn⟩ := fields_of_byte (by omega) hword
    simp only [decode?, hfamily, hx, hnn]
    rfl
  | readDelay x => exact decode?_miscellaneous 0x07 rfl rfl
  | waitForKey x => exact decode?_miscellaneous 0x0A rfl rfl
  | setDelay x => exact decode?_miscellaneous 0x15 rfl rfl
  | setSound x => exact decode?_miscellaneous 0x18 rfl rfl
  | addToIndex x => exact decode?_miscellaneous 0x1E rfl rfl
  | pointAtGlyph x => exact decode?_miscellaneous 0x29 rfl rfl
  | storeDecimal x => exact decode?_miscellaneous 0x33 rfl rfl
  | storeRegisters x => exact decode?_miscellaneous 0x55 rfl rfl
  | loadRegisters x => exact decode?_miscellaneous 0x65 rfl rfl

/-- No instruction is written as this word. -/
def Unassigned (w : Nat) : Prop := ∀ i : Instruction, i.Proper → i.word ≠ w

theorem decode?_eq_none_iff {w : Nat} (hw : w < 65536) : decode? (Opcode.mk w) = none ↔ Unassigned w := by
  constructor
  · rintro hnone i hproper rfl
    rw [decode?_word hproper] at hnone
    cases hnone
  · intro h
    cases hi : decode? (Opcode.mk w) with
    | none => rfl
    | some i => exact absurd (word_of_decode? hw hi).symm (h i (proper_of_decode? hi))

end Instruction

/-! ### The word at the counter -/

namespace Machine

/-- The two bytes at the counter lie inside memory and make up this word. -/
def Reads (m : Machine) (w : Nat) : Prop :=
  0 ≤ m.counter ∧ m.counter + 2 ≤ 4096 ∧
    0x100 * (m.memory.byteAt m.counter.toNat).toNat + (m.memory.byteAt (m.counter.toNat + 1)).toNat = w

instance (m : Machine) (w : Nat) : Decidable (m.Reads w) := inferInstanceAs (Decidable (_ ∧ _ ∧ _))

private theorem ofBytes_bytes (high low : UInt8) :
    Opcode.ofBytes high.toNat low.toNat = Opcode.mk (0x100 * high.toNat + low.toNat : Nat) := by
  have hfield : Bits.field low.toNat 0 8 = low.toNat := by
    have hlt := low.toNat_lt
    rw [Bits.field_natCast]
    omega
  unfold Opcode.ofBytes
  rw [hfield]
  congr 1
  omega

theorem Reads.lt {m : Machine} {w : Nat} (h : m.Reads w) : w < 65536 := by
  have hhigh := (m.memory.byteAt m.counter.toNat).toNat_lt
  have hlow := (m.memory.byteAt (m.counter.toNat + 1)).toNat_lt
  obtain ⟨-, -, hw⟩ := h
  omega

theorem Reads.fetch {m : Machine} {w : Nat} (h : m.Reads w) : m.fetch = .ok (Opcode.mk w) := by
  obtain ⟨h0, h1, hw⟩ := h
  unfold Machine.fetch
  rw [if_pos ⟨h0, h1⟩]
  dsimp only
  rw [ofBytes_bytes, hw]

theorem reads_of_fetch {m : Machine} {op : Opcode} (h : m.fetch = .ok op) : ∃ w, m.Reads w ∧ op = Opcode.mk w := by
  unfold Machine.fetch at h
  split at h
  · rename_i hfits
    obtain ⟨h0, h1⟩ := hfits
    refine ⟨_, ⟨h0, h1, rfl⟩, ?_⟩
    rw [← Except.ok.inj h, ofBytes_bytes]
  · cases h

theorem fetch_eq_error_iff (m : Machine) (fault : Fault) :
    m.fetch = .error fault ↔ ¬ Memory.Fits m.counter 2 ∧ fault = .memoryBounds m.counter 2 := by
  unfold Machine.fetch
  by_cases hfits : Memory.Fits m.counter 2
  · rw [if_pos hfits]
    constructor
    · intro h
      cases h
    · rintro ⟨h, -⟩
      exact absurd hfits h
  · rw [if_neg hfits]
    constructor
    · intro h
      exact ⟨hfits, (Except.error.inj h).symm⟩
    · rintro ⟨-, rfl⟩
      rfl

/-- A cycle executes the instruction whose word it reads. -/
theorem cycle_of_reads {m : Machine} {i : Instruction} (h : m.Reads i.word) (hi : i.Proper) :
    m.cycle = match m.count.pass.execute i with
      | .error fault => (m.count.pass, .error fault)
      | .ok after => (after, .ok (.known i)) := by
  have hfetch := h.fetch
  have hdecode := Instruction.decode?_word hi
  cases hexecute : m.count.pass.execute i with
  | error fault => simp only [Machine.cycle, hfetch, hdecode, hexecute]
  | ok after => simp only [Machine.cycle, hfetch, hdecode, hexecute]

/-- A cycle passes over a word that no instruction is written as. -/
theorem cycle_of_unassigned {m : Machine} {w : Nat} (h : m.Reads w) (hw : Instruction.Unassigned w) :
    m.cycle = (m.count.pass, .ok (.unknown (Opcode.mk w))) := by
  unfold Machine.cycle
  rw [h.fetch]
  dsimp only
  rw [(Instruction.decode?_eq_none_iff h.lt).2 hw]

/-- A cycle is refused because no opcode can be read or because the instruction that is read is refused. -/
theorem cycle_eq_error_iff (m : Machine) (fault : Fault) :
    m.cycle.2 = .error fault ↔
      m.fetch = .error fault ∨ ∃ i : Instruction, m.Reads i.word ∧ i.Proper ∧ m.count.pass.execute i = .error fault := by
  constructor
  · intro h
    unfold Machine.cycle at h
    cases hop : m.fetch with
    | error fetchFault =>
      rw [hop] at h
      exact .inl (congrArg Except.error (Except.error.inj h))
    | ok op =>
      obtain ⟨w, hw, rfl⟩ := reads_of_fetch hop
      rw [hop] at h
      dsimp only at h
      cases hi : Instruction.decode? (Opcode.mk w) with
      | none =>
        rw [hi] at h
        cases h
      | some i =>
        rw [hi] at h
        dsimp only at h
        cases hexecute : m.count.pass.execute i with
        | error executeFault =>
          rw [hexecute] at h
          have hword := Instruction.word_of_decode? hw.lt hi
          rw [hword] at hw
          exact .inr ⟨i, hw, Instruction.proper_of_decode? hi, hexecute.trans (congrArg _ (Except.error.inj h))⟩
        | ok after =>
          rw [hexecute] at h
          cases h
  · rintro (h | ⟨i, hreads, hproper, h⟩)
    · unfold Machine.cycle
      rw [h]
    · rw [cycle_of_reads hreads hproper, h]

/-- A cycle comes upon an unknown opcode exactly if it reads a word that no instruction is written as. -/
theorem cycle_eq_unknown_iff (m : Machine) (op : Opcode) :
    m.cycle.2 = .ok (.unknown op) ↔ ∃ w : Nat, op = Opcode.mk w ∧ m.Reads w ∧ Instruction.Unassigned w := by
  constructor
  · intro h
    cases hop : m.fetch with
    | error fault =>
      rw [(cycle_eq_error_iff m fault).2 (.inl hop)] at h
      cases h
    | ok read =>
      obtain ⟨w, hreads, rfl⟩ := reads_of_fetch hop
      by_cases hw : Instruction.Unassigned w
      · rw [cycle_of_unassigned hreads hw] at h
        cases h
        exact ⟨w, rfl, hreads, hw⟩
      · -- then the word is that of an instruction, and the cycle executes it or is refused
        simp only [Instruction.Unassigned, not_forall, not_not] at hw
        obtain ⟨i, hproper, rfl⟩ := hw
        rw [cycle_of_reads hreads hproper] at h
        cases hexecute : m.count.pass.execute i with
        | error fault =>
          rw [hexecute] at h
          cases h
        | ok after =>
          rw [hexecute] at h
          cases h
  · rintro ⟨w, rfl, hreads, hw⟩
    rw [cycle_of_unassigned hreads hw]

/-- A machine after a refused cycle: the cycle is counted, and the counter stands behind the opcode if one was
read. -/
def refused (m : Machine) : Machine :=
  { m with
    cycles := m.cycles + 1
    counter := if m.fetch.isOk then m.counter + 2 else m.counter }

theorem refused_of_fetch {m : Machine} (h : m.fetch.isOk = true) :
    m.refused = { m with cycles := m.cycles + 1, counter := m.counter + 2 } := by
  rw [refused, if_pos h]

theorem cycle_of_error {m : Machine} {fault : Fault} (h : m.cycle.2 = .error fault) :
    m.cycle = (m.refused, .error fault) := by
  unfold refused
  rcases (cycle_eq_error_iff m fault).1 h with hfetch | ⟨i, hreads, hproper, hi⟩
  · unfold Machine.cycle
    rw [hfetch]
    rfl
  · rw [cycle_of_reads hreads hproper, hi, hreads.fetch]
    rfl

end Machine

end ChipEight
