import ChipEight.Proofs.MemoryLaws
import ChipEight.Proofs.Micro.Dispatch

/-!
# Microprograms and instructions

The microprogram of an instruction does to the cells of a machine what `Machine.execute` does to the machine, prints
the line of the trace, and runs into a trap exactly if the instruction is refused: before it has written anything,
and into the trap of that fault.

The machine `m` is the one before the cycle, so the instruction meets `m.count.pass`.
-/

namespace ChipEight.Micro

/-- The rest after the line of an instruction, if it has one. -/
def Rest.note (r : Rest) : Option String → Rest
  | some line => r.log line
  | none => r

/-- The microprogram of an instruction turns the cells of a machine into those of `after`, and traces that. -/
def Follows (m : Machine) (i : Instruction) (after : Machine) : Prop :=
  ∀ r : Rest, run (program i) (m.count.pass.bare r) = (.ok (), after.bare (r.note (Trace.line? m after i)))

/-- The microprogram of an instruction runs into a trap, and leaves the cells of the machine as they were. -/
def Refuses (m : Machine) (i : Instruction) (fault : Fault) : Prop :=
  ∀ r : Rest, run (program i) (m.count.pass.bare r) = (.error (.refused fault), m.count.pass.bare r)

variable (m : Machine)

@[simp] theorem bare_waiting (r : Rest) : (m.bare r).waiting = m.waiting.map fun x => (x.val : Int) := rfl

/-! ### Bytes as numbers -/

theorem toNat_add (a b : UInt8) : (((a + b).toNat : Nat) : Int) = (a.toNat + b.toNat : Int) % 256 := by
  rw [UInt8.toNat_add]
  omega

theorem toNat_sub (a b : UInt8) : (((a - b).toNat : Nat) : Int) = (a.toNat - b.toNat : Int) % 256 := by
  have ha := a.toNat_lt
  have hb := b.toNat_lt
  rw [UInt8.toNat_sub]
  omega

theorem toNat_half (b : UInt8) : (((b >>> 1).toNat : Nat) : Int) = (b.toNat : Int) / 2 := by
  rw [UInt8.toNat_shiftRight, show (1 : UInt8).toNat % 8 = 1 by rfl, Nat.shiftRight_one]
  omega

theorem toNat_double (b : UInt8) : (((b <<< 1).toNat : Nat) : Int) = (b.toNat : Int) * 2 % 256 := by
  rw [UInt8.toNat_shiftLeft, show (1 : UInt8).toNat % 8 = 1 by rfl, Nat.shiftLeft_eq]
  omega

theorem lowest_bit (b : UInt8) : (b.toNat : Int) % 2 = if b &&& 1 ≠ 0 then 1 else 0 := by
  have h : (b &&& 1).toNat = b.toNat % 2 := by rw [UInt8.toNat_and]; exact Nat.and_one_is_mod _
  have hzero : b &&& 1 = 0 ↔ b.toNat % 2 = 0 := by rw [← UInt8.toNat_inj, h]; rfl
  split
  · rename_i hne
    rw [ne_eq, hzero] at hne
    omega
  · rename_i heq
    rw [ne_eq, not_not, hzero] at heq
    omega

theorem highest_bit (b : UInt8) : (b.toNat : Int) / 128 % 2 = if b &&& 0x80 ≠ 0 then 1 else 0 := by
  have h : (b &&& 0x80).toNat = 2 ^ 7 * (b.toNat / 2 ^ 7 % 2) := by
    rw [UInt8.toNat_and, show (0x80 : UInt8).toNat = 2 ^ 7 by rfl, Nat.and_two_pow, Nat.testBit_eq_decide_div_mod_eq]
    rcases Nat.mod_two_eq_zero_or_one (b.toNat / 2 ^ 7) with hbit | hbit
    · rw [hbit]
      rfl
    · rw [hbit]
      rfl
  have hzero : b &&& 0x80 = 0 ↔ b.toNat / 128 % 2 = 0 := by
    rw [← UInt8.toNat_inj, h]
    simp
  split
  · rename_i hne
    rw [ne_eq, hzero] at hne
    omega
  · rename_i heq
    rw [ne_eq, not_not, hzero] at heq
    omega

/-! ### Screen, jumps and skips -/

theorem follows_clearScreen :
    Follows m .clearScreen { m.count.pass with screen := m.count.pass.screen.clear } := by
  intro r
  simp only [program, clearScreen]
  rw [run_bind_of_ok (run_clearPixels _ r), run_log]
  rfl

theorem follows_jump (nnn : Fin 4096) : Follows m (.jump nnn) { m.count.pass with counter := nnn.val } := by
  intro r
  simp only [program, jump]
  rw [run_bind_of_ok (run_setCounter _ r nnn.val), run_log]
  rfl

private theorem counter_skipIf (condition : Bool) :
    (m.count.pass.skipIf condition).counter = m.counter + 4 ↔ condition = true := by
  cases condition with
  | true =>
    simp only [Machine.skipIf, if_true, Machine.counter_pass, Machine.counter_count, iff_true]
    omega
  | false =>
    simp only [Machine.skipIf, Bool.false_eq_true, if_false, Machine.counter_pass, Machine.counter_count, iff_false]
    omega

theorem run_skipWhen (r : Rest) (condition : Bool) (text : String) :
    run (skipWhen condition text) (m.count.pass.bare r) =
      (.ok (), (m.count.pass.skipIf condition).bare
        (r.note (Trace.skipLine m (m.count.pass.skipIf condition) text))) := by
  unfold skipWhen Trace.skipLine
  by_cases h : condition = true
  · rw [if_pos h, if_pos ((counter_skipIf m condition).2 h), h, run_bind_of_ok (run_skip _ r), run_log]
    rfl
  · rw [if_neg h, if_neg (mt (counter_skipIf m condition).1 h), Bool.eq_false_of_not_eq_true h]
    rfl

private theorem toNat_eq_iff (a b : UInt8) : ((a.toNat : Int) = (b.toNat : Int)) = (a = b) := by
  rw [← UInt8.toNat_inj]
  exact propext Int.natCast_inj

theorem follows_skipIfByte (x : Fin 16) (nn : UInt8) :
    Follows m (.skipIfByte x nn) (m.count.pass.skipIf (m.count.pass.v x = nn)) := by
  intro r
  simp only [program, skipIfByte]
  rw [run_bind_of_ok (run_readRegister _ r x), run_skipWhen]
  simp only [toNat_eq_iff]
  rfl

theorem follows_skipUnlessByte (x : Fin 16) (nn : UInt8) :
    Follows m (.skipUnlessByte x nn) (m.count.pass.skipIf (m.count.pass.v x ≠ nn)) := by
  intro r
  simp only [program, skipUnlessByte]
  rw [run_bind_of_ok (run_readRegister _ r x), run_skipWhen]
  simp only [ne_eq, toNat_eq_iff]
  rfl

theorem follows_skipIfSame (x y : Fin 16) :
    Follows m (.skipIfSame x y) (m.count.pass.skipIf (m.count.pass.v x = m.count.pass.v y)) := by
  intro r
  simp only [program, skipIfSame]
  rw [run_bind_of_ok (run_readRegister _ r x), run_bind_of_ok (run_readRegister _ r y), run_skipWhen]
  simp only [toNat_eq_iff]
  rfl

theorem follows_skipUnlessSame (x y : Fin 16) :
    Follows m (.skipUnlessSame x y) (m.count.pass.skipIf (m.count.pass.v x ≠ m.count.pass.v y)) := by
  intro r
  simp only [program, skipUnlessSame]
  rw [run_bind_of_ok (run_readRegister _ r x), run_bind_of_ok (run_readRegister _ r y), run_skipWhen]
  simp only [ne_eq, toNat_eq_iff]
  rfl

private theorem isDown_mod (k : Keypad) (key : Int) : k.isDown (key % 16) = k.isDown key := by
  have h : Keypad.lowKey (key % 16) = Keypad.lowKey key := by
    apply Fin.ext
    simp only [Keypad.lowKey]
    omega
  rw [Keypad.isDown, h, Keypad.isDown]

theorem follows_skipIfKey (x : Fin 16) :
    Follows m (.skipIfKey x) (m.count.pass.skipIf (m.count.pass.keypad.isDown (m.count.pass.v x).toNat)) := by
  intro r
  simp only [program, skipIfKey]
  rw [run_bind_of_ok (run_readRegister _ r x), run_bind_of_ok (run_keyDown _ r _), run_skipWhen, isDown_mod]
  rfl

theorem follows_skipUnlessKey (x : Fin 16) :
    Follows m (.skipUnlessKey x) (m.count.pass.skipIf (!m.count.pass.keypad.isDown (m.count.pass.v x).toNat)) := by
  intro r
  simp only [program, skipUnlessKey]
  rw [run_bind_of_ok (run_readRegister _ r x), run_bind_of_ok (run_keyDown _ r _), run_skipWhen, isDown_mod]
  rfl

theorem follows_jumpOffset (x : Fin 16) (nnn : Fin 4096) :
    Follows m (.jumpOffset x nnn)
      { m.count.pass with counter := nnn.val + (m.count.pass.v (m.count.pass.offsetRegister x)).toNat } := by
  intro r
  have hregister : (if m.count.pass.dialect.jumpAddsX then x.val else 0) = (m.count.pass.offsetRegister x).val := by
    unfold Machine.offsetRegister
    split <;> rfl
  simp only [program, jumpOffset]
  rw [run_bind_of_ok (run_get _), bare_dialect, hregister, run_bind_of_ok (run_readRegister _ r _),
    run_bind_of_ok (run_setCounter _ r _), run_bind_of_ok (run_get _), run_log]
  rfl

/-! ### Arithmetic -/

theorem follows_setByte (x : Fin 16) (nn : UInt8) : Follows m (.setByte x nn) (m.count.pass.setV x nn) := by
  intro r
  simp only [program, setByte]
  rw [run_bind_of_ok (run_writeRegister _ r x nn), run_log]
  rfl

theorem follows_addByte (x : Fin 16) (nn : UInt8) :
    Follows m (.addByte x nn) (m.count.pass.setV x (m.count.pass.v x + nn)) := by
  intro r
  simp only [program, addByte]
  rw [run_bind_of_ok (run_readRegister _ r x), ← toNat_add, run_bind_of_ok (run_writeRegister _ r x _),
    run_bind_of_ok (run_valueText _ r x), run_log]
  rfl

theorem follows_copy (x y : Fin 16) : Follows m (.copy x y) (m.count.pass.setV x (m.count.pass.v y)) := by
  intro r
  simp only [program, copy]
  rw [run_bind_of_ok (run_readRegister _ r y), run_bind_of_ok (run_writeRegister _ r x _),
    run_bind_of_ok (run_valueText _ r y), run_log]
  rfl

private theorem run_combine (r : Rest) (f : Int → Int → Int) (g : UInt8 → UInt8 → UInt8)
    (h : ∀ a b : UInt8, f a.toNat b.toNat = (g a b).toNat) (word : String) (x y : Fin 16) :
    run (combine f word x.val y.val) (m.bare r) =
      (.ok (), (m.setV x (g (m.v x) (m.v y))).bare
        (r.log (Trace.combineLine (m.setV x (g (m.v x) (m.v y))) x y word))) := by
  unfold combine
  rw [run_bind_of_ok (run_readRegister m r x), run_bind_of_ok (run_readRegister m r y), h,
    run_bind_of_ok (run_writeRegister m r x _), run_bind_of_ok (run_valueText _ r x), run_log]
  rfl

theorem follows_bitOr (x y : Fin 16) :
    Follows m (.bitOr x y) (m.count.pass.setV x (m.count.pass.v x ||| m.count.pass.v y)) :=
  fun r => run_combine m.count.pass r Int.lor (· ||| ·) (fun a b => by rw [UInt8.toNat_or]; rfl) "OR" x y

theorem follows_bitAnd (x y : Fin 16) :
    Follows m (.bitAnd x y) (m.count.pass.setV x (m.count.pass.v x &&& m.count.pass.v y)) :=
  fun r => run_combine m.count.pass r Int.land (· &&& ·) (fun a b => by rw [UInt8.toNat_and]; rfl) "AND" x y

theorem follows_bitXor (x y : Fin 16) :
    Follows m (.bitXor x y) (m.count.pass.setV x (m.count.pass.v x ^^^ m.count.pass.v y)) :=
  fun r => run_combine m.count.pass r Int.xor (· ^^^ ·) (fun a b => by rw [UInt8.toNat_xor]; rfl) "XOR" x y

theorem follows_add (x y : Fin 16) :
    Follows m (.add x y) ((m.count.pass.setV x (m.count.pass.v x + m.count.pass.v y)).setFlag
      ((m.count.pass.v x).toNat + (m.count.pass.v y).toNat > 255)) := by
  intro r
  have hcarry : decide (((m.count.pass.v x).toNat : Int) + (m.count.pass.v y).toNat > 255) =
      decide ((m.count.pass.v x).toNat + (m.count.pass.v y).toNat > 255) := decide_eq_decide.2 (by omega)
  simp only [program, add]
  rw [run_bind_of_ok (run_readRegister _ r x), run_bind_of_ok (run_readRegister _ r y), ← toNat_add,
    run_bind_of_ok (run_writeRegister _ r x _), run_bind_of_ok (run_writeFlag _ r _), hcarry,
    run_bind_of_ok (run_valueText _ r x), run_bind_of_ok (run_valueText_flag _ r), run_log]
  rfl

private theorem run_difference (r : Rest) (into left right : Fin 16) :
    run (difference into.val left.val right.val) (m.bare r) =
      (.ok (), ((m.setV into (m.v left - m.v right)).setFlag (m.v right ≤ m.v left)).bare r) := by
  have hborrow : decide (((m.v left).toNat : Int) ≥ (m.v right).toNat) = decide (m.v right ≤ m.v left) :=
    decide_eq_decide.2 (by rw [UInt8.le_iff_toNat_le]; omega)
  unfold difference
  rw [run_bind_of_ok (run_readRegister m r left), run_bind_of_ok (run_readRegister m r right), ← toNat_sub,
    run_bind_of_ok (run_writeRegister m r into _), run_writeFlag, hborrow]

theorem follows_subtract (x y : Fin 16) :
    Follows m (.subtract x y) ((m.count.pass.setV x (m.count.pass.v x - m.count.pass.v y)).setFlag
      (m.count.pass.v y ≤ m.count.pass.v x)) := by
  intro r
  simp only [program, subtract]
  rw [run_bind_of_ok (run_difference _ r x x y), run_bind_of_ok (run_valueText _ r x),
    run_bind_of_ok (run_valueText_flag _ r), run_log]
  rfl

theorem follows_subtractFrom (x y : Fin 16) :
    Follows m (.subtractFrom x y) ((m.count.pass.setV x (m.count.pass.v y - m.count.pass.v x)).setFlag
      (m.count.pass.v x ≤ m.count.pass.v y)) := by
  intro r
  simp only [program, subtractFrom]
  rw [run_bind_of_ok (run_difference _ r x y x), run_bind_of_ok (run_valueText _ r x),
    run_bind_of_ok (run_valueText_flag _ r), run_log]
  rfl

private theorem v_setV (x : Fin 16) (b : UInt8) : (m.setV x b).v x = b := by
  simp only [Machine.v, Machine.setV, get_setAt, if_true]

private theorem setV_setV (x : Fin 16) (a b : UInt8) : (m.setV x a).setV x b = m.setV x b := by
  simp only [Machine.setV, setAt_setAt]

private theorem setV_v (x : Fin 16) : m.setV x (m.v x) = m := by
  have h : setAt m.registers x (m.registers.get x) = m.registers := by
    unfold setAt
    exact Vector.set_getElem_self x.isLt
  simp only [Machine.setV, Machine.v, h]

private theorem run_fetchShifted (r : Rest) (x y : Fin 16) :
    run (fetchShifted x.val y.val) (m.bare r) = (.ok (), (m.setV x (m.shiftSource x y)).bare r) := by
  unfold fetchShifted Machine.shiftSource
  rw [run_bind_of_ok (run_get _), bare_dialect]
  split
  · rw [run_bind_of_ok (run_readRegister m r y), run_writeRegister]
  · rw [setV_v]
    rfl

/-- A flag is printed as the number that was written. -/
private theorem flagValue_setFlag (condition : Prop) [Decidable condition] :
    Trace.flagValue (m.setFlag (decide condition)) = toString (if condition then 1 else 0 : Int) := by
  unfold Trace.flagValue Trace.value Machine.setFlag
  rw [v_setV]
  by_cases h : condition
  · simp only [h, decide_true, if_true]
    rfl
  · simp only [h, decide_false, if_false, Bool.false_eq_true]
    rfl

theorem follows_shiftRight (x y : Fin 16) :
    Follows m (.shiftRight x y) ((m.count.pass.setV x (m.count.pass.shiftSource x y >>> 1)).setFlag
      (m.count.pass.shiftSource x y &&& 1 ≠ 0)) := by
  intro r
  simp only [program, shiftRight]
  rw [run_bind_of_ok (run_fetchShifted _ r x y), run_bind_of_ok (run_readRegister _ r x),
    run_bind_of_ok (run_readRegister _ r x), v_setV, ← toNat_half, lowest_bit,
    run_bind_of_ok (run_writeRegister _ r x _), setV_setV, run_bind_of_ok (run_writeFlag _ r _),
    run_bind_of_ok (run_valueText _ r x), run_log, ← flagValue_setFlag]
  rfl

theorem follows_shiftLeft (x y : Fin 16) :
    Follows m (.shiftLeft x y) ((m.count.pass.setV x (m.count.pass.shiftSource x y <<< 1)).setFlag
      (m.count.pass.shiftSource x y &&& 0x80 ≠ 0)) := by
  intro r
  simp only [program, shiftLeft]
  rw [run_bind_of_ok (run_fetchShifted _ r x y), run_bind_of_ok (run_readRegister _ r x),
    run_bind_of_ok (run_readRegister _ r x), v_setV, ← toNat_double, highest_bit,
    run_bind_of_ok (run_writeRegister _ r x _), setV_setV, run_bind_of_ok (run_writeFlag _ r _),
    run_bind_of_ok (run_valueText _ r x), run_log, ← flagValue_setFlag]
  rfl

theorem follows_random (x : Fin 16) (nn : UInt8) :
    Follows m (.random x nn) ({ m.count.pass with random := m.count.pass.random.advance }.setV x
      (UInt8.ofInt m.count.pass.random.next &&& nn)) := by
  intro r
  have hand : Int.land ((UInt8.ofInt m.count.pass.random.next).toNat : Int) (nn.toNat : Int) =
      ((UInt8.ofInt m.count.pass.random.next &&& nn).toNat : Int) := by
    rw [UInt8.toNat_and]
    rfl
  simp only [program, random]
  rw [run_bind_of_ok (run_randomByte _ r), hand, run_bind_of_ok (run_writeRegister _ r x _),
    run_bind_of_ok (run_valueText _ r x), run_log]
  rfl

/-! ### Addresses and timers -/

theorem follows_setIndex (nnn : Fin 4096) : Follows m (.setIndex nnn) { m.count.pass with index := nnn.val } := by
  intro r
  simp only [program, setIndex]
  rw [run_bind_of_ok (run_moveIndex _ r _), run_bind_of_ok (run_get _), run_log]
  rfl

/-- Pointing at a glyph, in a cycle or not. -/
theorem run_pointAtGlyph (r : Rest) (x : Fin 16) :
    let pointed : Machine := { m with index := Font.glyphAddress ((m.v x).toNat % 16) }
    run (pointAtGlyph x) (m.bare r) = (.ok (), pointed.bare (r.note (Trace.line? m pointed (.pointAtGlyph x)))) := by
  unfold pointAtGlyph
  rw [run_bind_of_ok (run_readRegister _ r x), run_bind_of_ok (run_moveIndex _ r _), run_bind_of_ok (run_get _),
    run_log]
  rfl

theorem follows_pointAtGlyph (x : Fin 16) :
    Follows m (.pointAtGlyph x)
      { m.count.pass with index := Font.glyphAddress ((m.count.pass.v x).toNat % 16) } :=
  fun r => run_pointAtGlyph m.count.pass r x

theorem follows_addToIndex (x : Fin 16) :
    Follows m (.addToIndex x)
      (let moved := { m.count.pass with index := (m.count.pass.index + (m.count.pass.v x).toNat) % 65536 }
      if m.count.pass.dialect.indexSetsFlag then
        moved.setFlag (m.count.pass.index + (m.count.pass.v x).toNat > 65535)
      else moved) := by
  intro r
  simp only [program, addToIndex]
  rw [run_bind_of_ok (run_get _), bare_index, run_bind_of_ok (run_readRegister _ r x),
    run_bind_of_ok (run_moveIndex _ r _), run_bind_of_ok (run_get _), bare_dialect]
  by_cases h : m.count.pass.dialect.indexSetsFlag = true
  · rw [if_pos h, if_pos h, run_bind_of_ok (run_writeFlag _ r _), run_bind_of_ok (run_get _), run_log]
    rfl
  · rw [if_neg h, if_neg h, run_bind_of_ok (run_get _), run_log]
    rfl

theorem follows_readDelay (x : Fin 16) :
    Follows m (.readDelay x) (m.count.pass.setV x m.count.pass.timers.delay) := by
  intro r
  simp only [program, readDelay]
  rw [run_bind_of_ok (run_get _), bare_delay, run_bind_of_ok (run_writeRegister _ r x _),
    run_bind_of_ok (run_valueText _ r x), run_log]
  rfl

theorem follows_setDelay (x : Fin 16) :
    Follows m (.setDelay x)
      { m.count.pass with timers := m.count.pass.timers.setDelay (m.count.pass.v x).toNat } := by
  intro r
  simp only [program, loadDelay]
  rw [run_bind_of_ok (run_readRegister _ r x), run_bind_of_ok (run_setDelay _ r _),
    run_bind_of_ok (run_valueText _ r x), run_log]
  rfl

theorem follows_setSound (x : Fin 16) :
    Follows m (.setSound x)
      { m.count.pass with timers := m.count.pass.timers.setSound (m.count.pass.v x).toNat } := by
  intro r
  simp only [program, loadSound]
  rw [run_bind_of_ok (run_readRegister _ r x), run_bind_of_ok (run_setSound _ r _),
    run_bind_of_ok (run_valueText _ r x), run_log]
  rfl

/-! ### The key wait -/

private theorem toNat_ofInt_key {key : Int} (h0 : 0 ≤ key) (h1 : key < 16) : ((UInt8.ofInt key).toNat : Int) = key := by
  rw [toNat_ofInt_byte]
  omega

private theorem run_awaitedPress_of_none (r : Rest) (x : Fin 16) (h : m.waiting = none) :
    run (awaitedPress x.val) (m.bare r) =
      (.ok none, { m with keypad := m.keypad.take, waiting := some x }.bare r) := by
  unfold awaitedPress
  rw [run_bind_of_ok (run_get _), if_pos (by rw [bare_waiting, h]; rfl), run_bind_of_ok (run_takePress m r),
    run_bind_of_ok (run_await _ r x)]
  rfl

private theorem run_awaitedPress_of_some (r : Rest) (x : Fin 16) {y : Fin 16} (h : m.waiting = some y) :
    run (awaitedPress x.val) (m.bare r) = (.ok m.keypad.pending, { m with keypad := m.keypad.take }.bare r) := by
  unfold awaitedPress
  rw [run_bind_of_ok (run_get _), if_neg (by rw [bare_waiting, h]; simp), run_takePress]

private theorem append_waiting (s : String) : s ++ ": " ++ "waiting" = s ++ ": waiting" := by
  rw [String.append_assoc]
  rfl

theorem follows_waitForKey (x : Fin 16) (h : ∀ key, m.keypad.pending = some key → 0 ≤ key ∧ key < 16) :
    Follows m (.waitForKey x) (m.count.pass.awaitKey x) := by
  intro r
  simp only [program, waitForKey]
  cases hwaiting : m.count.pass.waiting with
  | none =>
    have hm : m.waiting = none := hwaiting
    rw [run_bind_of_ok (run_awaitedPress_of_none _ r x hwaiting), run_bind_of_ok (run_stepBack _ r), run_log]
    simp only [Machine.awaitKey, hwaiting, Trace.line?, Trace.awaitedKey, hm, append_waiting]
    rfl
  | some y =>
    have hm : m.waiting = some y := hwaiting
    rw [run_bind_of_ok (run_awaitedPress_of_some _ r x hwaiting)]
    cases hpending : m.count.pass.keypad.pending with
    | none =>
      have hnone : m.keypad.pending = none := hpending
      have htake : m.count.pass.keypad.take = m.count.pass.keypad := by
        simp only [Keypad.take, ← hpending]
      rw [run_bind_of_ok (run_stepBack _ r), run_log, htake]
      simp only [Machine.awaitKey, hwaiting, hpending, Trace.line?, Trace.awaitedKey, hm, hnone, append_waiting]
      rfl
    | some key =>
      have hkey : m.keypad.pending = some key := hpending
      obtain ⟨h0, h1⟩ := h key hkey
      have hbyte := toNat_ofInt_key h0 h1
      rw [run_bind_of_ok (run_await_none _ r), ← hbyte, run_bind_of_ok (run_writeRegister _ r x _), run_log, hbyte]
      simp only [Machine.awaitKey, hwaiting, hpending, Trace.line?, Trace.awaitedKey, hm, hkey]
      rfl

/-! ### Memory -/

private theorem run_passBlock (r : Rest) (x : Fin 16) :
    run (passBlock x.val) (m.bare r) = (.ok (), (m.passBlock x).bare r) := by
  unfold passBlock Machine.passBlock
  rw [run_bind_of_ok (run_get _), bare_dialect]
  split
  · rw [run_bind_of_ok (run_get _), bare_index, run_moveIndex]
  · rfl

private theorem map_decimalDigits (b : UInt8) :
    [(b.toNat : Int) / 100, (b.toNat : Int) / 10 % 10, (b.toNat : Int) % 10] =
      (Machine.decimalDigits b).map fun d => (d.toNat : Int) := by
  simp only [Machine.decimalDigits, List.map_cons, List.map_nil, UInt8.toNat_div, UInt8.toNat_mod]
  rfl

theorem follows_storeDecimal (x : Fin 16) {memory : Memory}
    (h : m.count.pass.memory.store m.count.pass.index (Machine.decimalDigits (m.count.pass.v x)) = .ok memory) :
    Follows m (.storeDecimal x) { m.count.pass with memory := memory } := by
  intro r
  have hwrite := run_writeMemory m.count.pass r m.count.pass.index (Machine.decimalDigits (m.count.pass.v x))
  rw [h] at hwrite
  simp only [program, storeDecimal]
  rw [run_bind_of_ok (run_readRegister _ r x), run_bind_of_ok (run_get _), map_decimalDigits, bare_index,
    run_bind_of_ok hwrite, run_log]
  rfl

theorem refuses_storeDecimal (x : Fin 16) {fault : Fault}
    (h : m.count.pass.memory.store m.count.pass.index (Machine.decimalDigits (m.count.pass.v x)) = .error fault) :
    Refuses m (.storeDecimal x) fault := by
  intro r
  have hwrite := run_writeMemory m.count.pass r m.count.pass.index (Machine.decimalDigits (m.count.pass.v x))
  rw [h] at hwrite
  simp only [program, storeDecimal]
  rw [run_bind_of_ok (run_readRegister _ r x), run_bind_of_ok (run_get _), map_decimalDigits, bare_index,
    run_bind_of_error hwrite]

private theorem slice_cells (rs : Registers) (x : Fin 16) :
    slice (Registers.cells rs) 0 (x.val + 1) = (Registers.first rs (x.val + 1)).map fun b => (b.toNat : Int) := by
  have h := slice_natCast (Registers.cells rs) 0 (x.val + 1) (by rw [length_cells]; omega)
  rw [List.drop_zero, Int.natCast_zero, Int.zero_add] at h
  rw [Registers.first, List.map_take]
  exact h

/-- Storing registers where they have their places, in a cycle or not. -/
theorem run_storeRegisters (r : Rest) (x : Fin 16) {memory : Memory}
    (h : m.memory.store m.index (Registers.first m.registers (x + 1)) = .ok memory) :
    run (storeRegisters x) (m.bare r) =
      (.ok (), ({ m with memory := memory }.passBlock x).bare
        (r.note (Trace.line? m ({ m with memory := memory }.passBlock x) (.storeRegisters x)))) := by
  have hwrite := run_writeMemory m r m.index (Registers.first m.registers (x + 1))
  rw [h] at hwrite
  unfold storeRegisters
  rw [run_bind_of_ok (run_get _), run_bind_of_ok (run_get _), bare_index, bare_registers, slice_cells,
    run_bind_of_ok hwrite, run_bind_of_ok (run_get _), run_bind_of_ok (run_log _ r _), run_passBlock]
  rfl

theorem follows_storeRegisters (x : Fin 16) {memory : Memory}
    (h : m.count.pass.memory.store m.count.pass.index (Registers.first m.count.pass.registers (x + 1)) =
      .ok memory) :
    Follows m (.storeRegisters x) ({ m.count.pass with memory := memory }.passBlock x) :=
  fun r => run_storeRegisters m.count.pass r x h

theorem refuses_storeRegisters (x : Fin 16) {fault : Fault}
    (h : m.count.pass.memory.store m.count.pass.index (Registers.first m.count.pass.registers (x + 1)) =
      .error fault) :
    Refuses m (.storeRegisters x) fault := by
  intro r
  have hwrite := run_writeMemory m.count.pass r m.count.pass.index (Registers.first m.count.pass.registers (x + 1))
  rw [h] at hwrite
  simp only [program, storeRegisters]
  rw [run_bind_of_ok (run_get _), run_bind_of_ok (run_get _), bare_index, bare_registers, slice_cells,
    run_bind_of_error hwrite]

/-- As many registers are written as bytes were read. -/
private theorem splice_cells (rs : Registers) {values : List UInt8} (h : values.length ≤ 16) :
    splice (Registers.cells rs) 0 values.length (values.map fun b => (b.toNat : Int)) =
      Registers.cells (Registers.replaceFirst rs values) := by
  have hsplice := splice_natCast (Registers.cells rs) (values.map fun b => (b.toNat : Int)) 0
    (by rw [length_cells, List.length_map]; omega)
  rw [List.length_map, Int.natCast_zero, Int.zero_add, List.take_zero, List.nil_append, Nat.zero_add] at hsplice
  rw [hsplice]
  apply List.ext_getElem
  · rw [List.length_append, List.length_map, List.length_drop, length_cells, length_cells]
    omega
  · -- register `i` comes from the values as far as they reach, and is the old one behind them
    intro i hi hi'
    have hlt : i < 16 := by rwa [length_cells] at hi'
    have hold := getElem_cells rs ⟨i, hlt⟩ (by rwa [length_cells])
    refine Eq.trans ?_ (getElem_cells (Registers.replaceFirst rs values) ⟨i, hlt⟩ hi').symm
    rw [List.getElem_append, Registers.get_replaceFirst]
    split
    · rename_i hinside
      rw [List.length_map] at hinside
      rw [List.getElem_map, List.getElem?_eq_getElem hinside, Option.getD_some]
    · rename_i hge
      rw [List.length_map] at hge
      have hindex : values.length + (i - values.length) = i := by omega
      simp only [List.getElem_drop, List.length_map, hindex, List.getElem?_eq_none (Nat.le_of_not_lt hge),
        Option.getD_none]
      exact hold

private theorem run_writeFirst (r : Rest) {values : List UInt8} (h : values.length ≤ 16) :
    run (writeFirst values.length (values.map fun b => (b.toNat : Int))) (m.bare r) =
      (.ok (), { m with registers := Registers.replaceFirst m.registers values }.bare r) := by
  unfold writeFirst
  rw [run_modify, bare_registers, splice_cells m.registers h]
  rfl

/-- Loading registers from where there are bytes for them, in a cycle or not. -/
theorem run_loadRegisters (r : Rest) (x : Fin 16) {values : List UInt8}
    (h : m.memory.read m.index (x + 1) = .ok values) :
    run (loadRegisters x) (m.bare r) =
      (.ok (), ({ m with registers := Registers.replaceFirst m.registers values }.passBlock x).bare
        (r.note (Trace.line? m ({ m with registers := Registers.replaceFirst m.registers values }.passBlock x)
          (.loadRegisters x)))) := by
  have hcount : ((x.val : Int) + 1) = ((x.val + 1 : Nat) : Int) := rfl
  have hlength : values.length = x.val + 1 := Memory.length_read h
  have hread := run_readMemory m r m.index (x.val + 1)
  rw [← hcount, h] at hread
  have hwrite := run_writeFirst m r (show values.length ≤ 16 by omega)
  rw [hlength, ← hcount] at hwrite
  unfold loadRegisters
  rw [run_bind_of_ok (run_get _), bare_index, run_bind_of_ok hread, run_bind_of_ok hwrite,
    run_bind_of_ok (run_get _), run_bind_of_ok (run_log _ r _), run_passBlock]
  rfl

theorem follows_loadRegisters (x : Fin 16) {values : List UInt8}
    (h : m.count.pass.memory.read m.count.pass.index (x + 1) = .ok values) :
    Follows m (.loadRegisters x)
      ({ m.count.pass with registers := Registers.replaceFirst m.count.pass.registers values }.passBlock x) :=
  fun r => run_loadRegisters m.count.pass r x h

theorem refuses_loadRegisters (x : Fin 16) {fault : Fault}
    (h : m.count.pass.memory.read m.count.pass.index (x + 1) = .error fault) : Refuses m (.loadRegisters x) fault := by
  intro r
  have hcount : ((x.val : Int) + 1) = ((x.val + 1 : Nat) : Int) := rfl
  have hread := run_readMemory m.count.pass r m.count.pass.index (x.val + 1)
  rw [← hcount, h] at hread
  simp only [program, loadRegisters]
  rw [run_bind_of_ok (run_get _), bare_index, run_bind_of_error hread]

/-! ### Drawing -/

/-- A loop does to the cells what its body does, element by element. -/
private theorem run_forM {α : Type} (r : Rest) (body : α → Code Unit) (step : Machine → α → Machine) (as : List α)
    (h : ∀ a ∈ as, ∀ m : Machine, run (body a) (m.bare r) = (.ok (), (step m a).bare r)) :
    run (as.forM body) (m.bare r) = (.ok (), (as.foldl step m).bare r) := by
  induction as generalizing m with
  | nil => rfl
  | cons a as ih =>
    change run (body a >>= fun _ => as.forM body) (m.bare r) = _
    rw [run_bind_of_ok (h a List.mem_cons_self m), List.foldl_cons]
    exact ih (step m a) fun b hb => h b (List.mem_cons_of_mem a hb)

private theorem run_drawPixel (r : Rest) (p : Fin 64 × Fin 32) :
    run (drawPixel p.1.val p.2.val) (m.bare r) = (.ok (), (m.flip p).bare r) := by
  unfold drawPixel Machine.flip
  rw [run_bind_of_ok (run_readPixel m r p.1 p.2)]
  by_cases h : m.screen.lit p.1 p.2 = true
  · have hflag : run (writeRegister 15 1) (m.bare r) = (.ok (), (m.setFlag true).bare r) :=
      run_writeRegister m r Registers.flag 1
    rw [if_pos h, if_pos h, run_bind_of_ok hflag, run_writePixel]
    rfl
  · rw [if_neg h, if_neg h, run_writePixel]
    rfl

private theorem run_drawRow (r : Rest) {column line : Nat} (hcolumn : column < 64) (hline : line < 32)
    (row : UInt8) :
    run (drawRow column line row) (m.bare r) =
      (.ok (), ((Sprite.rowPlaces column line row).foldl Machine.flip m).bare r) := by
  have hwidth : (min 8 (64 - (column : Int))).toNat = min 8 (64 - column) := by omega
  unfold drawRow Sprite.rowPlaces
  -- a bit that is not set contributes no place, and the loop does nothing for it
  rw [hwidth, List.foldl_flatMap]
  refine run_forM m r _ _ _ ?_
  intro bit hbit m
  rw [List.mem_range] at hbit
  by_cases hset : row.toNat &&& (0x80 >>> bit) ≠ 0
  · have hx : (column : Int) + bit = ((Fin.ofNat 64 (column + bit)).val : Int) := by
      simp only [Fin.ofNat, Nat.mod_eq_of_lt (show column + bit < 64 by omega), Int.natCast_add]
    have hy : (line : Int) = ((Fin.ofNat 32 line).val : Int) := by
      simp only [Fin.ofNat, Nat.mod_eq_of_lt hline]
    rw [if_pos hset, if_pos hset, hx, hy]
    exact run_drawPixel m r (Fin.ofNat 64 (column + bit), Fin.ofNat 32 line)
  · rw [if_neg hset, if_neg hset]
    rfl

private theorem slice_rows (rows : List UInt8) {line : Nat} (h : line < 32) :
    slice rows 0 (32 - (line : Int)) = rows.take (32 - line) := by
  have hstop : 32 - (line : Int) = ((32 - line : Nat) : Int) := by omega
  have hstart : clamp rows.length 0 = 0 := by
    have h := clamp_natCast rows.length 0
    rw [Nat.zero_min] at h
    exact h
  unfold slice
  rw [hstop, clamp_natCast, hstart, List.drop_zero, List.take_eq_take_iff]
  omega

private theorem run_drawRows (r : Rest) {column line : Nat} (hcolumn : column < 64) (hline : line < 32)
    (rows : List UInt8) :
    run ((slice rows 0 (32 - (line : Int))).zipIdx.forM fun row => drawRow column (line + row.2) row.1) (m.bare r) =
      (.ok (), ((Sprite.places column line rows).foldl Machine.flip m).bare r) := by
  unfold Sprite.places
  rw [slice_rows rows hline, List.foldl_flatMap]
  refine run_forM m r _ _ _ ?_
  rintro ⟨row, i⟩ hmem m
  have hi := List.snd_lt_of_mem_zipIdx hmem
  rw [List.length_take] at hi
  exact run_drawRow m r hcolumn (by omega) row

/-- Drawing a sprite that lies in memory, in a cycle or not. -/
theorem run_draw (r : Rest) (x y n : Fin 16) {rows : List UInt8} (h : m.memory.read m.index n.val = .ok rows) :
    run (draw x y n) (m.bare r) =
      (.ok (), (m.drawSprite x y rows).bare (r.note (Trace.line? m (m.drawSprite x y rows) (.draw x y n)))) := by
  have hcolumn : (m.v x).toNat % 64 < 64 := Nat.mod_lt _ (by omega)
  have hline : (m.v y).toNat % 32 < 32 := Nat.mod_lt _ (by omega)
  have hread := run_readMemory m r m.index n.val
  rw [h] at hread
  have hclear : run (writeRegister 15 0) (m.bare r) = (.ok (), (m.setFlag false).bare r) :=
    run_writeRegister m r Registers.flag 0
  have hrows := run_drawRows (m.setFlag false) r hcolumn hline rows
  simp only [Machine.flip_places, Int.natCast_emod, Nat.cast_ofNat] at hrows
  unfold draw
  rw [run_bind_of_ok (run_readRegister _ r x), run_bind_of_ok (run_readRegister _ r y), run_bind_of_ok (run_get _),
    bare_index, run_bind_of_ok hread, run_bind_of_ok hclear, run_bind_of_ok hrows,
    run_bind_of_ok (run_valueText_flag _ r), run_log]
  rfl

theorem follows_draw (x y n : Fin 16) {rows : List UInt8}
    (h : m.count.pass.memory.read m.count.pass.index n.val = .ok rows) :
    Follows m (.draw x y n) (m.count.pass.drawSprite x y rows) :=
  fun r => run_draw m.count.pass r x y n h

theorem refuses_draw (x y n : Fin 16) {fault : Fault}
    (h : m.count.pass.memory.read m.count.pass.index n.val = .error fault) : Refuses m (.draw x y n) fault := by
  intro r
  have hread := run_readMemory m.count.pass r m.count.pass.index n.val
  rw [h] at hread
  simp only [program, draw]
  rw [run_bind_of_ok (run_readRegister _ r x), run_bind_of_ok (run_readRegister _ r y), run_bind_of_ok (run_get _),
    bare_index, run_bind_of_error hread]

/-! ### Calls and returns -/

/-- A return leaves the slot of the address behind. -/
theorem run_ret (r : Rest) {address : UInt16} {stack : ReturnStack}
    (h : m.count.pass.stack.pop = .ok (address, stack)) :
    run (program .ret) (m.count.pass.bare r) =
      (.ok (), { m.count.pass with counter := address.toNat, stack := stack }.bare
        ({ r with stale := address :: r.stale }.log ("Return to " ++ Trace.address address.toNat))) := by
  have hpop := run_pop m.count.pass r
  rw [h] at hpop
  simp only [program, ret]
  rw [run_bind_of_ok hpop, run_bind_of_ok (run_setCounter _ _ _), run_bind_of_ok (run_get _), run_log]
  rfl

theorem refuses_ret {fault : Fault} (h : m.count.pass.stack.pop = .error fault) : Refuses m .ret fault := by
  intro r
  have hpop := run_pop m.count.pass r
  rw [h] at hpop
  simp only [program, ret]
  rw [run_bind_of_error hpop]

/-- A call takes the first slot left behind, and prints the address that it reads there. -/
theorem run_call {r : Rest} (hr : r.Fits m) (nnn : Fin 4096) {stack : ReturnStack}
    (h : m.count.pass.stack.push m.count.pass.counter = .ok stack) :
    run (program (.call nnn)) (m.count.pass.bare r) =
      (.ok (), { m.count.pass with counter := nnn.val, stack := stack }.bare
        ({ r with stale := r.stale.tail }.log
          ("Call subroutine at address " ++ Trace.address nnn.val ++ " (return to " ++
            Trace.address (m.counter + 2) ++ ")"))) := by
  obtain ⟨h0, h1, -, hentries, -⟩ := ReturnStack.push_eq_ok h
  have hpush := run_push m.count.pass r hr m.count.pass.counter
  rw [h] at hpush
  have haddress : stack.entries.getLast?.map (fun a => (a.toNat : Int)) = some (m.counter + 2) := by
    have htoNat := ReturnStack.toNat_ofInt_of_lt h0 h1
    rw [hentries, List.getLast?_concat, Option.map_some, htoNat]
    rfl
  simp only [program, call]
  rw [run_bind_of_ok (run_get _), bare_counter, run_bind_of_ok hpush, run_bind_of_ok (run_setCounter _ _ _),
    run_bind_of_ok (run_peek _ _)]
  simp only [haddress, number]
  rw [run_bind_of_ok (run_pure _ _), run_log]

theorem refuses_call {r : Rest} (hr : r.Fits m) (nnn : Fin 4096) {fault : Fault}
    (h : m.count.pass.stack.push m.count.pass.counter = .error fault) :
    run (program (.call nnn)) (m.count.pass.bare r) = (.error (.refused fault), m.count.pass.bare r) := by
  have hpush := run_push m.count.pass r hr m.count.pass.counter
  rw [h] at hpush
  simp only [program, call]
  rw [run_bind_of_ok (run_get _), bare_counter, run_bind_of_error hpush]

end ChipEight.Micro
