import ChipEight.Proofs.Effects
import ChipEight.Proofs.Micro.Instructions
import Mathlib.Data.List.OfFn

/-!
# Arithmetic from old values

An operation reads VX, VY and the index, and writes VX, VF and the index; its operands may be the same register, and
each may be VF. What it comes to is told by numbers that are computed from the old values alone (`Operation.outcome`)
and put into the registers in one order: first the result into VX, then the flag into VF (`Outcome.register`). So an
operation on VF leaves the flag there. The instructions do so in every dialect, and also on bare cells, where they read
and write their registers one after the other (`arithmetic_from_old_values`).
-/

namespace ChipEight

/-- The operations on registers and on the index, without the numbers of their registers. -/
inductive Operation where
  | addByte (nn : UInt8)
  | copy
  | bitOr
  | bitAnd
  | bitXor
  | add
  | subtract
  | shiftRight
  | subtractFrom
  | shiftLeft
  | addToIndex

/-- What an operation comes to: the numbers for VX and VF, if it sets them, and the index. -/
structure Outcome where
  result : Option Int
  flag : Option Int
  index : Int

namespace Operation

/-- The instruction for an operation on VX and VY. -/
def instruction (x y : Fin 16) : Operation → Instruction
  | addByte nn => .addByte x nn
  | copy => .copy x y
  | bitOr => .bitOr x y
  | bitAnd => .bitAnd x y
  | bitXor => .bitXor x y
  | add => .add x y
  | subtract => .subtract x y
  | shiftRight => .shiftRight x y
  | subtractFrom => .subtractFrom x y
  | shiftLeft => .shiftLeft x y
  | addToIndex => .addToIndex x

/-- What an operation comes to if `a` is the old value of VX, `b` that of VY, and `index` the old index. -/
def outcome (d : Dialect) (index a b : Int) : Operation → Outcome
  | addByte nn => ⟨some ((a + nn.toNat) % 256), none, index⟩
  | copy => ⟨some b, none, index⟩
  | bitOr => ⟨some (a.lor b), none, index⟩
  | bitAnd => ⟨some (a.land b), none, index⟩
  | bitXor => ⟨some (a.xor b), none, index⟩
  | add => ⟨some ((a + b) % 256), some (if a + b > 255 then 1 else 0), index⟩
  | subtract => ⟨some ((a - b) % 256), some (if a ≥ b then 1 else 0), index⟩
  | shiftRight =>
    let s := if d.shiftReadsY then b else a
    ⟨some (s / 2), some (s % 2), index⟩
  | subtractFrom => ⟨some ((b - a) % 256), some (if b ≥ a then 1 else 0), index⟩
  | shiftLeft =>
    let s := if d.shiftReadsY then b else a
    ⟨some (2 * s % 256), some (s / 128), index⟩
  | addToIndex =>
    let flag := if index + a > 65535 then 1 else 0
    ⟨none, if d.indexSetsFlag then some flag else none, (index + a) % 65536⟩

end Operation

/-- The number in register `r` after an operation on VX, if there was `old` before: VX gets the result, and then VF the
flag. -/
def Outcome.register (o : Outcome) (x r : Fin 16) (old : Int) : Int :=
  let computed := if r = x then o.result.getD old else old
  if r = Registers.flag then o.flag.getD computed else computed

namespace Machine

/-- The registers and the index are what the operation on VX comes to, and all else is as before but the counter, which
a cycle moves. -/
structure Reckoned (m : Machine) (o : Outcome) (x : Fin 16) (after : Machine) : Prop where
  register : ∀ r : Fin 16, ((after.v r).toNat : Int) = o.register x r (m.v r).toNat
  index : after.index = o.index
  memory : after.memory = m.memory
  stack : after.stack = m.stack
  screen : after.screen = m.screen
  keypad : after.keypad = m.keypad
  timers : after.timers = m.timers
  waiting : after.waiting = m.waiting
  random : after.random = m.random
  dialect : after.dialect = m.dialect

variable {m after : Machine} {x y : Fin 16} {o : Outcome}

/-! ### Results and flags -/

private theorem toNat_flag (condition : Prop) [Decidable condition] :
    ((if decide condition = true then 1 else 0 : UInt8).toNat : Int) = if condition then 1 else 0 := by
  by_cases h : condition
  · rw [if_pos h, decide_eq_true h]
    rfl
  · rw [if_neg h, decide_eq_false h]
    rfl

/-- An operation without a result or a flag that leaves the index alone. -/
private theorem reckoned_self (m : Machine) (x : Fin 16) : m.Reckoned ⟨none, none, m.index⟩ x m where
  register r := by simp only [Outcome.register, Option.getD_none, ite_self]
  index := rfl
  memory := rfl
  stack := rfl
  screen := rfl
  keypad := rfl
  timers := rfl
  waiting := rfl
  random := rfl
  dialect := rfl

private theorem Reckoned.withIndex {result flag : Option Int} {old : Int}
    (h : m.Reckoned ⟨result, flag, old⟩ x after) (index : Int) :
    m.Reckoned ⟨result, flag, index⟩ x { after with index := index } :=
  { h with index := rfl }

private theorem Reckoned.setV {index : Int} (h : m.Reckoned ⟨none, none, index⟩ x after) {value : UInt8}
    {result : Int} (hresult : result = value.toNat) : m.Reckoned ⟨some result, none, index⟩ x (after.setV x value) :=
  { h with
    register := fun r => by
      have hr := h.register r
      simp only [Outcome.register, Option.getD_none, Option.getD_some, ite_self] at hr ⊢
      rw [v_setV]
      by_cases hx : r = x
      · rw [if_pos hx, if_pos hx, hresult]
      · rw [if_neg hx, if_neg hx, hr] }

/-- The flag comes last, so that it stays if the result was for VF. -/
private theorem Reckoned.setFlag {result : Option Int} {index : Int}
    (h : m.Reckoned ⟨result, none, index⟩ x after) {condition : Prop} [Decidable condition] {flag : Int}
    (hflag : flag = if condition then 1 else 0) :
    m.Reckoned ⟨result, some flag, index⟩ x (after.setFlag (decide condition)) :=
  { h with
    register := fun r => by
      have hr := h.register r
      simp only [Outcome.register, Option.getD_none, Option.getD_some, ite_self] at hr ⊢
      unfold Machine.setFlag
      rw [v_setV]
      by_cases hlast : r = Registers.flag
      · rw [if_pos hlast, if_pos hlast, hflag, toNat_flag]
      · rw [if_neg hlast, if_neg hlast, hr] }

/-! ### The operations -/

open Micro

private theorem toNat_shiftSource (m : Machine) (x y : Fin 16) :
    ((m.shiftSource x y).toNat : Int) =
      if m.dialect.shiftReadsY then ((m.v y).toNat : Int) else ((m.v x).toNat : Int) := by
  unfold shiftSource
  split <;> rfl

/-- No operation is refused, and each comes to what is computed from the old values. -/
theorem reckoned_execute (m : Machine) (op : Operation) (x y : Fin 16) :
    ∃ after, m.execute (op.instruction x y) = .ok after ∧ after.counter = m.counter ∧
      m.Reckoned (op.outcome m.dialect m.index (m.v x).toNat (m.v y).toNat) x after := by
  have hself := m.reckoned_self x
  cases op with
  | addByte nn => exact ⟨_, rfl, rfl, hself.setV (toNat_add _ nn).symm⟩
  | copy => exact ⟨_, rfl, rfl, hself.setV rfl⟩
  | bitOr => exact ⟨_, rfl, rfl, hself.setV (by rw [UInt8.toNat_or]; rfl)⟩
  | bitAnd => exact ⟨_, rfl, rfl, hself.setV (by rw [UInt8.toNat_and]; rfl)⟩
  | bitXor => exact ⟨_, rfl, rfl, hself.setV (by rw [UInt8.toNat_xor]; rfl)⟩
  | add =>
    have hcarry : (((m.v x).toNat : Int) + (m.v y).toNat > 255) ↔ (m.v x).toNat + (m.v y).toNat > 255 := by omega
    exact ⟨_, rfl, rfl, (hself.setV (toNat_add _ _).symm).setFlag (if_congr hcarry rfl rfl)⟩
  | subtract =>
    have hborrow : ((m.v x).toNat : Int) ≥ (m.v y).toNat ↔ m.v y ≤ m.v x := by
      rw [UInt8.le_iff_toNat_le]
      omega
    exact ⟨_, rfl, rfl, (hself.setV (toNat_sub _ _).symm).setFlag (if_congr hborrow rfl rfl)⟩
  | subtractFrom =>
    have hborrow : ((m.v y).toNat : Int) ≥ (m.v x).toNat ↔ m.v x ≤ m.v y := by
      rw [UInt8.le_iff_toNat_le]
      omega
    exact ⟨_, rfl, rfl, (hself.setV (toNat_sub _ _).symm).setFlag (if_congr hborrow rfl rfl)⟩
  | shiftRight =>
    have hhalf := toNat_half (m.shiftSource x y)
    have hlowest := lowest_bit (m.shiftSource x y)
    rw [toNat_shiftSource] at hhalf hlowest
    exact ⟨_, rfl, rfl, (hself.setV hhalf.symm).setFlag hlowest⟩
  | shiftLeft =>
    have hdouble := toNat_double (m.shiftSource x y)
    have hhighest := highest_bit (m.shiftSource x y)
    -- a byte has no bits above the highest one
    have hbyte : ((m.shiftSource x y).toNat : Int) / 128 % 2 = (m.shiftSource x y).toNat / 128 := by
      have hlt := (m.shiftSource x y).toNat_lt
      omega
    rw [hbyte] at hhighest
    rw [mul_comm] at hdouble
    rw [toNat_shiftSource] at hdouble hhighest
    exact ⟨_, rfl, rfl, (hself.setV hdouble.symm).setFlag hhighest⟩
  | addToIndex =>
    have hmoved := hself.withIndex ((m.index + (m.v x).toNat) % 65536)
    unfold Operation.instruction Operation.outcome execute
    dsimp only
    cases m.dialect.indexSetsFlag with
    | true => exact ⟨_, rfl, rfl, hmoved.setFlag rfl⟩
    | false => exact ⟨_, rfl, rfl, hmoved⟩

/-- The microprogram of an operation does the same to bare cells. -/
theorem follows_of_operation {op : Operation} (h : m.count.pass.execute (op.instruction x y) = .ok after) :
    Follows m (op.instruction x y) after := by
  cases op with
  | addByte nn => exact Except.ok.inj h ▸ follows_addByte m x nn
  | copy => exact Except.ok.inj h ▸ follows_copy m x y
  | bitOr => exact Except.ok.inj h ▸ follows_bitOr m x y
  | bitAnd => exact Except.ok.inj h ▸ follows_bitAnd m x y
  | bitXor => exact Except.ok.inj h ▸ follows_bitXor m x y
  | add => exact Except.ok.inj h ▸ follows_add m x y
  | subtract => exact Except.ok.inj h ▸ follows_subtract m x y
  | shiftRight => exact Except.ok.inj h ▸ follows_shiftRight m x y
  | subtractFrom => exact Except.ok.inj h ▸ follows_subtractFrom m x y
  | shiftLeft => exact Except.ok.inj h ▸ follows_shiftLeft m x y
  | addToIndex => exact Except.ok.inj h ▸ follows_addToIndex m x

theorem Reckoned.cells (h : m.Reckoned o x after) :
    Registers.cells after.registers = List.ofFn fun r : Fin 16 => o.register x r (m.v r).toNat := by
  apply List.ext_getElem
  · rw [length_cells, List.length_ofFn]
  · intro k hk hk'
    have hlt : k < 16 := by rwa [length_cells] at hk
    have hcell : (Registers.cells after.registers)[k] = ((after.v ⟨k, hlt⟩).toNat : Int) :=
      getElem_cells after.registers ⟨k, hlt⟩ hk
    rw [hcell, h.register, List.getElem_ofFn]

theorem byte_of_mem_cells {registers : Registers} {c : Int} (h : c ∈ Registers.cells registers) :
    0 ≤ c ∧ c < 256 := by
  obtain ⟨b, -, rfl⟩ := List.mem_map.1 h
  have hlt := b.toNat_lt
  omega

end Machine

theorem Operation.proper (op : Operation) (x y : Fin 16) : (op.instruction x y).Proper := by
  cases op <;> exact trivial

open Micro

/-- For any registers, index and dialect, and whatever registers the operands are: an operation puts into VX the result
and then into VF the flag, both computed from what the registers were before, and leaves all other registers alone. It
is never refused. A cycle that reads its word executes it, and on bare cells, where it reads and writes the registers in
several steps, the numbers are the same, and bytes. -/
theorem arithmetic_from_old_values (m : Machine) (op : Operation) (x y : Fin 16) :
    let o := op.outcome m.dialect m.index (m.v x).toNat (m.v y).toNat
    (∃ after, m.execute (op.instruction x y) = .ok after ∧ after.counter = m.counter ∧ m.Reckoned o x after) ∧
    ∃ after, m.Reckoned o x after ∧ after.counter = m.counter + 2 ∧
      (m.Reads (op.instruction x y).word → m.cycle = (after, .ok (.known (op.instruction x y)))) ∧
      ∀ r : Rest, ∃ store, run (program (op.instruction x y)) (m.count.pass.bare r) = (.ok (), store) ∧
        store = after.bare (r.note (Trace.line? m after (op.instruction x y))) ∧
        store.registers = (List.ofFn fun k : Fin 16 => o.register x k (m.v k).toNat) ∧
        (∀ c ∈ store.registers, 0 ≤ c ∧ c < 256) ∧ store.index = o.index := by
  intro o
  refine ⟨m.reckoned_execute op x y, ?_⟩
  obtain ⟨after, hexecute, hcounter, hreckoned⟩ := m.count.pass.reckoned_execute op x y
  have hafter : m.Reckoned o x after := { hreckoned with }
  refine ⟨after, hafter, hcounter, fun hreads => ?_, fun r => ?_⟩
  · rw [Machine.cycle_of_reads hreads (op.proper x y), hexecute]
  · have hrun := Machine.follows_of_operation hexecute r
    exact ⟨_, hrun, rfl, hafter.cells, fun c hc => Machine.byte_of_mem_cells hc, hafter.index⟩

/-- VF is added to VF: the sum of 255 and 255 does not stay there, its carry does. -/
theorem arithmetic_from_old_values_flag :
    let m : Machine := { memory := Memory.fresh.put 0x200 [0x8F, 0xF4], registers := Vector.replicate 16 0xFF }
    m.cycle.1.v Registers.flag = 1 ∧ m.cycle.1.v 0 = 255 := by
  intro m
  have hreads : m.Reads (Operation.add.instruction 15 15).word := by decide +kernel
  obtain ⟨-, after, hafter, -, hcycle, -⟩ := arithmetic_from_old_values m .add 15 15
  rw [hcycle hreads]
  constructor
  · have hflag : ((after.v Registers.flag).toNat : Int) = 1 :=
      (hafter.register Registers.flag).trans (by decide +kernel)
    exact UInt8.toNat_inj.1 (Int.natCast_inj.1 hflag)
  · have hother : ((after.v 0).toNat : Int) = 255 := (hafter.register 0).trans (by decide +kernel)
    exact UInt8.toNat_inj.1 (Int.natCast_inj.1 hother)

end ChipEight
