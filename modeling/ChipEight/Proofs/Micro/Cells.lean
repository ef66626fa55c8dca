import ChipEight.Proofs.Drawing
import ChipEight.Proofs.Micro.Program

/-!
# The cells of a machine

`Machine.bare` lays a machine out in cells. The cells hold more than the machine: slots of the stack that were left
behind, the switch for tracing and what was printed; all that is the `Rest`.

Each micro-operation on the cells of a machine either does to them what an operation of the machine does, or is
refused. The lemmas `run_…` say so, one for each micro-operation; none of them has to know the others.
-/

namespace ChipEight

namespace Micro

/-! ### Running a piece of a microprogram -/

/-- The result of a piece of a microprogram and the store that it leaves behind, also when it ends in a trap. -/
def run {α : Type} (code : Code α) (s : Store) : Except Trap α × Store := code s

@[simp] theorem run_pure {α : Type} (a : α) (s : Store) : run (pure a) s = (.ok a, s) := rfl

@[simp] theorem run_throw {α : Type} (trap : Trap) (s : Store) :
    run (throw trap : Code α) s = (.error trap, s) := rfl

@[simp] theorem run_get (s : Store) : run (get : Code Store) s = (.ok s, s) := rfl

@[simp] theorem run_modify (f : Store → Store) (s : Store) : run (modify f) s = (.ok (), f s) := rfl

theorem run_bind {α β : Type} (code : Code α) (next : α → Code β) (s : Store) :
    run (code >>= next) s =
      match run code s with
      | (.ok a, s') => run (next a) s'
      | (.error trap, s') => (.error trap, s') := by
  change (ExceptT.bind code next) s = _
  unfold ExceptT.bind ExceptT.mk run
  change (StateT.bind code (ExceptT.bindCont next)) s = _
  unfold StateT.bind
  change (match code s with | (a, s') => ExceptT.bindCont next a s') = _
  cases code s with
  | mk result s' => cases result <;> rfl

theorem run_bind_of_ok {α β : Type} {code : Code α} {next : α → Code β} {s s' : Store} {a : α}
    (h : run code s = (.ok a, s')) : run (code >>= next) s = run (next a) s' := by
  rw [run_bind, h]

theorem run_bind_of_error {α β : Type} {code : Code α} {next : α → Code β} {s s' : Store} {trap : Trap}
    (h : run code s = (.error trap, s')) : run (code >>= next) s = (.error trap, s') := by
  rw [run_bind, h]

@[simp] theorem run_accept_ok {α : Type} (a : α) (s : Store) : run (accept (.ok a)) s = (.ok a, s) := rfl

/-! ### Tables that are as long as they should be -/

theorem element_of_lt {α : Type} (axis : Nat) {table : List α} {i : Nat} (h : i < table.length) :
    element axis table (i : Int) = .ok table[i] := by
  unfold element
  rw [position_val axis (⟨i, h⟩ : Fin table.length)]
  rfl

theorem replace_of_lt {α : Type} (axis : Nat) {table : List α} {i : Nat} (h : i < table.length) (a : α) :
    replace axis table (i : Int) a = .ok (table.set i a) := by
  unfold replace
  rw [position_val axis (⟨i, h⟩ : Fin table.length)]
  rfl

theorem clamp_natCast (size i : Nat) : clamp size (i : Int) = min i size := by
  unfold clamp
  rw [if_neg (by omega), Int.toNat_natCast]

theorem slice_natCast {α : Type} (table : List α) (start count : Nat) (h : start + count ≤ table.length) :
    slice table (start : Int) (start + count : Int) = (table.drop start).take count := by
  unfold slice
  have hstop : ((start : Int) + count) = ((start + count : Nat) : Int) := by omega
  rw [hstop, clamp_natCast, clamp_natCast, Nat.min_eq_left h, Nat.min_eq_left (by omega), List.drop_take,
    Nat.add_sub_cancel_left]

theorem splice_natCast {α : Type} (table values : List α) (start : Nat) (h : start + values.length ≤ table.length) :
    splice table (start : Int) (start + values.length : Int) values =
      table.take start ++ values ++ table.drop (start + values.length) := by
  have hstop : ((start : Int) + values.length) = ((start + values.length : Nat) : Int) := by omega
  simp only [splice]
  rw [hstop, clamp_natCast, clamp_natCast, Nat.min_eq_left h, Nat.min_eq_left (by omega),
    Nat.max_eq_right (by omega)]

/-! ### Tables by place -/

/-- A row of cells that are 1 where `on` holds and 0 elsewhere. -/
def flags {n : Nat} (on : Fin n → Bool) : List Nat := List.ofFn fun i => if on i then 1 else 0

theorem set_ofFn {α : Type} {n : Nat} (f : Fin n → α) (i : Fin n) (a : α) :
    (List.ofFn f).set i.val a = List.ofFn fun j => if j = i then a else f j := by
  apply List.ext_getElem
  · simp
  · intro j hj hj'
    simp only [List.getElem_set, List.getElem_ofFn, Fin.ext_iff]
    by_cases h : i.val = j
    · rw [if_pos h, if_pos h.symm]
    · rw [if_neg h, if_neg fun he => h he.symm]

theorem set_flags {n : Nat} (on : Fin n → Bool) (i : Fin n) (b : Bool) :
    (flags on).set i.val (if b then 1 else 0) = flags fun j => if j = i then b else on j := by
  unfold flags
  rw [set_ofFn]
  congr 1
  funext j
  by_cases h : j = i
  · simp only [h, if_true]
  · simp only [h, if_false]

theorem map_zero_flags {n : Nat} (on : Fin n → Bool) :
    ((flags on).map fun _ => 0) = flags fun _ : Fin n => false := by
  unfold flags
  rw [List.map_ofFn]
  rfl

theorem element_ofFn {α : Type} (axis : Nat) {n : Nat} (f : Fin n → α) (i : Fin n) :
    element axis (List.ofFn f) (i.val : Int) = .ok (f i) := by
  have h : i.val < (List.ofFn f).length := by
    rw [List.length_ofFn]
    exact i.isLt
  rw [element_of_lt axis h, List.getElem_ofFn]

theorem element_flags (axis : Nat) {n : Nat} (on : Fin n → Bool) (i : Fin n) :
    element axis (flags on) (i.val : Int) = .ok (if on i then 1 else 0) :=
  element_ofFn axis _ i

/-- A cell is read as what it stands for. -/
theorem ite_ne_zero (b : Bool) : decide ((if b then 1 else 0 : Nat) ≠ 0) = b := by
  cases b <;> rfl

theorem replace_ofFn {α : Type} (axis : Nat) {n : Nat} (f : Fin n → α) (i : Fin n) (a : α) :
    replace axis (List.ofFn f) (i.val : Int) a = .ok (List.ofFn fun j => if j = i then a else f j) := by
  have h : i.val < (List.ofFn f).length := by
    rw [List.length_ofFn]
    exact i.isLt
  rw [replace_of_lt axis h, set_ofFn]

theorem replace_flags (axis : Nat) {n : Nat} (on : Fin n → Bool) (i : Fin n) (b : Bool) :
    replace axis (flags on) (i.val : Int) (if b then 1 else 0) = .ok (flags fun j => if j = i then b else on j) := by
  have h : i.val < (flags on).length := by
    rw [flags, List.length_ofFn]
    exact i.isLt
  rw [replace_of_lt axis h, set_flags]

/-! ### The cells of a machine -/

/-- What the cells hold beside a machine. -/
structure Rest where
  /-- The slots of the stack above those in use. -/
  stale : List UInt16
  logging : Bool
  printed : List String

/-- The rest after a line was printed. -/
def Rest.say (r : Rest) (line : String) : Rest := { r with printed := r.printed ++ [line] }

/-- The rest after a line was printed if tracing is on. -/
def Rest.log (r : Rest) (line : String) : Rest := if r.logging then r.say line else r

end Micro

open Micro

/-- The cells of the registers. -/
def Registers.cells (r : Registers) : List Int := r.toList.map fun b => (b.toNat : Int)

/-- The cells of the screen. -/
def Screen.cells (s : Screen) : List (List Nat) := List.ofFn fun y : Fin 32 => flags fun x : Fin 64 => s.lit x y

/-- The cells of the keys. -/
def Keypad.cells (k : Keypad) : List Nat := flags fun key : Fin 16 => k.down.get key

/-- A machine laid out in cells. -/
def Machine.bare (m : Machine) (r : Rest) : Store where
  memory := m.memory.bytes.toList
  registers := Registers.cells m.registers
  index := m.index
  counter := m.counter
  slots := m.stack.entries ++ r.stale
  top := m.stack.entries.length
  dialect := m.dialect
  pixels := m.screen.cells
  dirty := m.screen.dirty
  layout := m.keypad.layout
  keys := m.keypad.cells
  pending := m.keypad.pending
  delay := m.timers.delay.toNat
  sound := m.timers.sound.toNat
  random := m.random
  waiting := m.waiting.map fun x => (x.val : Int)
  cycles := m.cycles
  logging := r.logging
  printed := r.printed

namespace Micro

variable (m : Machine) (r : Rest)

@[simp] theorem bare_index : (m.bare r).index = m.index := rfl

@[simp] theorem bare_counter : (m.bare r).counter = m.counter := rfl

@[simp] theorem bare_dialect : (m.bare r).dialect = m.dialect := rfl

@[simp] theorem bare_delay : (m.bare r).delay = (m.timers.delay.toNat : Int) := rfl

@[simp] theorem bare_sound : (m.bare r).sound = (m.timers.sound.toNat : Int) := rfl

@[simp] theorem bare_logging : (m.bare r).logging = r.logging := rfl

@[simp] theorem bare_registers : (m.bare r).registers = Registers.cells m.registers := rfl

@[simp] theorem bare_pixels :
    (m.bare r).pixels = List.ofFn fun y : Fin 32 => flags fun x : Fin 64 => m.screen.lit x y := rfl

@[simp] theorem bare_keys : (m.bare r).keys = flags fun key : Fin 16 => m.keypad.down.get key := rfl

@[simp] theorem bare_pending : (m.bare r).pending = m.keypad.pending := rfl

/-! ### Printing -/

@[simp] theorem run_say (line : String) : run (say line) (m.bare r) = (.ok (), m.bare (r.say line)) := rfl

@[simp] theorem run_log (line : String) : run (log line) (m.bare r) = (.ok (), m.bare (r.log line)) := by
  unfold log Rest.log
  rw [run_bind_of_ok (run_get _), bare_logging]
  split
  · exact run_say m r line
  · rfl

/-! ### Addresses, the key wait, and random numbers -/

@[simp] theorem run_setCounter (address : Int) :
    run (setCounter address) (m.bare r) = (.ok (), { m with counter := address }.bare r) := rfl

@[simp] theorem run_skip : run skip (m.bare r) = (.ok (), { m with counter := m.counter + 2 }.bare r) := rfl

@[simp] theorem run_stepBack : run stepBack (m.bare r) = (.ok (), { m with counter := m.counter - 2 }.bare r) := rfl

@[simp] theorem run_moveIndex (address : Int) :
    run (moveIndex address) (m.bare r) = (.ok (), { m with index := address }.bare r) := rfl

@[simp] theorem run_await (x : Fin 16) :
    run (await (some (x.val : Int))) (m.bare r) = (.ok (), { m with waiting := some x }.bare r) := rfl

@[simp] theorem run_await_none : run (await none) (m.bare r) = (.ok (), { m with waiting := none }.bare r) := rfl

@[simp] theorem run_countCycle : run countCycle (m.bare r) = (.ok (), m.count.bare r) := rfl

theorem toNat_ofInt_byte (value : Int) : ((UInt8.ofInt value).toNat : Int) = value % 256 := by
  simp [UInt8.ofInt]
  omega

@[simp] theorem run_randomByte :
    run randomByte (m.bare r) =
      (.ok ((UInt8.ofInt m.random.next).toNat : Int), { m with random := m.random.advance }.bare r) := by
  rw [toNat_ofInt_byte]
  rfl

/-! ### Registers -/

theorem length_cells (rs : Registers) : (Registers.cells rs).length = 16 := by
  simp [Registers.cells]

theorem getElem_cells (rs : Registers) (x : Fin 16) (h : x.val < (Registers.cells rs).length) :
    (Registers.cells rs)[x.val] = ((rs.get x).toNat : Int) := by
  simp [Registers.cells, get_eq_getElem]

private theorem set_cells (rs : Registers) (x : Fin 16) (b : UInt8) :
    (Registers.cells rs).set x.val (b.toNat : Int) = Registers.cells (setAt rs x b) := by
  simp only [Registers.cells, setAt, Vector.toList_set, List.map_set]

@[simp] theorem run_readRegister (x : Fin 16) :
    run (readRegister (x.val : Int)) (m.bare r) = (.ok ((m.v x).toNat : Int), m.bare r) := by
  have h : x.val < (Registers.cells m.registers).length := by
    rw [length_cells]
    exact x.isLt
  unfold readRegister
  rw [run_bind_of_ok (run_get _), bare_registers, element_of_lt 0 h, getElem_cells]
  rfl

@[simp] theorem run_writeRegister (x : Fin 16) (b : UInt8) :
    run (writeRegister (x.val : Int) (b.toNat : Int)) (m.bare r) = (.ok (), (m.setV x b).bare r) := by
  have h : x.val < (Registers.cells m.registers).length := by
    rw [length_cells]
    exact x.isLt
  unfold writeRegister
  rw [run_bind_of_ok (run_get _), bare_registers, replace_of_lt 0 h, run_bind_of_ok (run_accept_ok _ _), set_cells]
  rfl

@[simp] theorem run_writeFlag (condition : Prop) [Decidable condition] :
    run (writeRegister 15 (if condition then 1 else 0)) (m.bare r) =
      (.ok (), (m.setFlag (decide condition)).bare r) := by
  have h := run_writeRegister m r Registers.flag (if condition then 1 else 0)
  unfold Machine.setFlag
  by_cases hc : condition
  · simp only [hc, if_true, decide_true] at h ⊢
    exact h
  · simp only [hc, if_false, decide_false, Bool.false_eq_true] at h ⊢
    exact h

@[simp] theorem run_valueText (x : Fin 16) :
    run (valueText x.val) (m.bare r) = (.ok (Trace.value m x), m.bare r) := by
  unfold valueText
  rw [run_bind_of_ok (run_readRegister m r x)]
  rfl

@[simp] theorem run_valueText_flag :
    run (valueText 15) (m.bare r) = (.ok (Trace.flagValue m), m.bare r) :=
  run_valueText m r Registers.flag

end Micro

end ChipEight
