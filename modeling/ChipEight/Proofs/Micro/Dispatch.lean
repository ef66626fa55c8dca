import ChipEight.Proofs.Micro.Devices
import ChipEight.Proofs.Words
import Mathlib.Tactic.IntervalCases

/-!
# Decoding and dispatch on bare cells

An opcode taken apart by checked slices has the fields of `Opcode` (`split_value`), and the two-level table finds
for it the microprogram of the instruction that it stands for, or none if it stands for none (`find_ofOpcode`). So
no slice is refused, and the table has a row for every family.
-/

namespace ChipEight

namespace Micro

/-- The fields of an opcode. -/
def Fields.ofOpcode (op : Opcode) : Fields where
  opcode := op.value
  family := op.family.val
  x := op.x.val
  y := op.y.val
  n := op.n.val
  nn := op.nn.toNat
  nnn := op.nnn.val

/-- Taking an opcode apart is never refused. -/
theorem split_value (op : Opcode) : split op.value = .ok (Fields.ofOpcode op) := by
  have hfamily : Bits.slice op.value 12 16 16 = .ok op.family.val := by
    rw [Opcode.family, Opcode.digit_val]
    exact Bits.slice_eq_field op.value 12 16 16 (by omega) (by omega) (by omega)
  have hx : Bits.slice op.value 8 12 16 = .ok op.x.val := by
    rw [Opcode.x, Opcode.digit_val]
    exact Bits.slice_eq_field op.value 8 12 16 (by omega) (by omega) (by omega)
  have hy : Bits.slice op.value 4 8 16 = .ok op.y.val := by
    rw [Opcode.y, Opcode.digit_val]
    exact Bits.slice_eq_field op.value 4 8 16 (by omega) (by omega) (by omega)
  have hn : Bits.slice op.value 0 4 16 = .ok op.n.val := by
    rw [Opcode.n, Opcode.digit_val]
    exact Bits.slice_eq_field op.value 0 4 16 (by omega) (by omega) (by omega)
  have hnn : Bits.slice op.value 0 8 16 = .ok op.nn.toNat := by
    rw [Opcode.toNat_nn]
    exact Bits.slice_eq_field op.value 0 8 16 (by omega) (by omega) (by omega)
  have hnnn : Bits.slice op.value 0 12 16 = .ok op.nnn.val := by
    rw [Opcode.nnn_val]
    exact Bits.slice_eq_field op.value 0 12 16 (by omega) (by omega) (by omega)
  unfold split
  rw [hfamily, hx, hy, hn, hnn, hnnn]
  rfl

/-- The microprogram of an instruction. -/
def program : Instruction → Code Unit
  | .clearScreen => clearScreen
  | .ret => ret
  | .jump nnn => jump nnn
  | .call nnn => call nnn
  | .skipIfByte x nn => skipIfByte x nn.toNat
  | .skipUnlessByte x nn => skipUnlessByte x nn.toNat
  | .skipIfSame x y => skipIfSame x y
  | .setByte x nn => setByte x nn.toNat
  | .addByte x nn => addByte x nn.toNat
  | .copy x y => copy x y
  | .bitOr x y => bitOr x y
  | .bitAnd x y => bitAnd x y
  | .bitXor x y => bitXor x y
  | .add x y => add x y
  | .subtract x y => subtract x y
  | .shiftRight x y => shiftRight x y
  | .subtractFrom x y => subtractFrom x y
  | .shiftLeft x y => shiftLeft x y
  | .skipUnlessSame x y => skipUnlessSame x y
  | .setIndex nnn => setIndex nnn
  | .jumpOffset x nnn => jumpOffset x nnn
  | .random x nn => random x nn.toNat
  | .draw x y n => draw x y n
  | .skipIfKey x => skipIfKey x
  | .skipUnlessKey x => skipUnlessKey x
  | .readDelay x => readDelay x
  | .waitForKey x => waitForKey x
  | .setDelay x => loadDelay x
  | .setSound x => loadSound x
  | .addToIndex x => addToIndex x
  | .pointAtGlyph x => pointAtGlyph x
  | .storeDecimal x => storeDecimal x
  | .storeRegisters x => storeRegisters x
  | .loadRegisters x => loadRegisters x

/-! ### The table -/

private theorem lookup_zero {α : Type} (n : Nat) (a : α) :
    [((0x0 : Int), a)].lookup (n : Int) = if n = 0 then some a else none := by
  rw [lookup_cons_ite]
  simp only [Int.natCast_eq_zero, List.lookup_nil]

/-- The table finds the microprogram of the instruction that an opcode stands for. -/
theorem find_ofOpcode (op : Opcode) :
    find (Fields.ofOpcode op) = .ok ((Instruction.decode? op).map program) := by
  have hfamily := op.family.isLt
  have hn := op.n.isLt
  have hnn := op.nn.toNat_lt
  unfold find Instruction.decode?
  simp only [Fields.ofOpcode]
  generalize op.family.val = family at hfamily ⊢
  -- row by row; the rows with a second level are gone through value by value
  interval_cases family
  case «0» =>
    change Except.ok (Option.map _ (List.lookup op.value [(0x00E0, _), (0x00EE, _)])) = _
    simp only [lookup_cons_ite, List.lookup_nil]
    split_ifs <;> rfl
  case «5» | «9» =>
    change Except.ok (Option.map _ (List.lookup (op.n.val : Int) [(0x0, _)])) = _
    rw [lookup_zero]
    split_ifs <;> rfl
  case «8» =>
    simp only [Instruction.arithmetic?]
    generalize op.n.val = n at hn ⊢
    interval_cases n <;> rfl
  case «14» =>
    have hbyte : ∀ b : UInt8, (op.nn.toNat : Int) = b.toNat ↔ op.nn = b := by
      intro b
      rw [← UInt8.toNat_inj]
      omega
    change Except.ok (Option.map _ (List.lookup (op.nn.toNat : Int)
      [(((0x9E : UInt8).toNat : Int), _), (((0xA1 : UInt8).toNat : Int), _)])) = _
    simp only [lookup_cons_ite, List.lookup_nil, hbyte]
    split_ifs <;> rfl
  case «15» =>
    simp only [Instruction.miscellaneous?]
    generalize op.nn.toNat = nn at hnn ⊢
    interval_cases nn <;> rfl
  all_goals rfl

end Micro

end ChipEight
