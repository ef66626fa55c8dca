import ChipEight.Proofs.MemoryLaws
import ChipEight.Proofs.Soundness
import ChipEight.Proofs.Words

/-!
# What cycles may change

A cycle is refused, or passes over an unknown opcode, or executes the instruction whose word it reads
(`Machine.cycle_cases`). An instruction works on few parts of a machine: `Machine.Footprint` says which ones it leaves
alone, down to the single byte of memory and the single register. Each way in which instructions change a machine keeps
the footprint of an instruction that is allowed to do so, and `Machine.footprint_of_execute` puts these together.
-/

namespace ChipEight

namespace Instruction

/-- The bytes that an instruction writes, counted from the index on. -/
def storedBytes : Instruction → Nat
  | storeDecimal _ => 3
  | storeRegisters x => x.val + 1
  | _ => 0

/-- The instruction may write the byte at an address. -/
def StoresAt (i : Instruction) (index : Int) (address : Nat) : Prop :=
  index ≤ address ∧ address < index + i.storedBytes

/-- The instruction may move the index. -/
def MovesIndex (d : Dialect) : Instruction → Prop
  | setIndex _ | addToIndex _ | pointAtGlyph _ => True
  | storeRegisters _ | loadRegisters _ => d.blockMovesIndex = true
  | _ => False

/-- The instruction, executed by this machine, may set a register. A key wait sets its register when it ends. -/
def Sets (m : Machine) (r : Fin 16) : Instruction → Prop
  | setByte x _ | addByte x _ | random x _ => r = x
  | copy x _ | bitOr x _ | bitAnd x _ | bitXor x _ => r = x
  | add x _ | subtract x _ | shiftRight x _ | subtractFrom x _ | shiftLeft x _ => r = x ∨ r = Registers.flag
  | readDelay x => r = x
  | waitForKey x => m.waiting ≠ none ∧ m.keypad.pending ≠ none ∧ r = x
  | draw _ _ _ => r = Registers.flag
  | addToIndex _ => m.dialect.indexSetsFlag = true ∧ r = Registers.flag
  | loadRegisters x => r ≤ x
  | _ => False

end Instruction

namespace Machine

/-- The parts that an instruction leaves alone, unless it is one of the few that work on them. -/
structure Confined (m : Machine) (i : Instruction) (after : Machine) : Prop where
  stack : i = .ret ∨ (∃ nnn, i = .call nnn) ∨ after.stack = m.stack
  waiting : (∃ x, i = .waitForKey x) ∨ after.waiting = m.waiting
  screen : i = .clearScreen ∨ (∃ x y n, i = .draw x y n) ∨ after.screen = m.screen

/-- What an instruction leaves as it was. -/
structure Footprint (m : Machine) (i : Instruction) (after : Machine) : Prop extends Confined m i after where
  memory : ∀ address : Nat, ¬ i.StoresAt m.index address → after.memory.byteAt address = m.memory.byteAt address
  register : ∀ r : Fin 16, ¬ i.Sets m r → after.v r = m.v r
  index : ¬ i.MovesIndex m.dialect → after.index = m.index
  /-- No instruction takes back that the pixels have to be shown again. -/
  dirty : m.screen.dirty = true → after.screen.dirty = true
  delay : (∃ x, i = .setDelay x) ∨ after.timers.delay = m.timers.delay
  sound : (∃ x, i = .setSound x) ∨ after.timers.sound = m.timers.sound
  pending : (∃ x, i = .waitForKey x) ∨ after.keypad.pending = m.keypad.pending
  random : (∃ x nn, i = .random x nn) ∨ after.random = m.random
  down : after.keypad.down = m.keypad.down
  layout : after.keypad.layout = m.keypad.layout
  dialect : after.dialect = m.dialect

variable {m after : Machine} {i : Instruction}

/-! ### Changes within the footprint of an instruction -/

private theorem footprint_self (m : Machine) (i : Instruction) : m.Footprint i m where
  stack := .inr (.inr rfl)
  waiting := .inr rfl
  screen := .inr (.inr rfl)
  memory _ _ := rfl
  register _ _ := rfl
  index _ := rfl
  dirty h := h
  delay := .inr rfl
  sound := .inr rfl
  pending := .inr rfl
  random := .inr rfl
  down := rfl
  layout := rfl
  dialect := rfl

theorem v_setV (m : Machine) (x r : Fin 16) (b : UInt8) : (m.setV x b).v r = if r = x then b else m.v r :=
  get_setAt m.registers x r b

private theorem Footprint.setV (h : m.Footprint i after) {x : Fin 16} (hx : i.Sets m x) (b : UInt8) :
    m.Footprint i (after.setV x b) :=
  { h with
    register := by
      intro r hr
      have hne : r ≠ x := fun heq => hr (heq ▸ hx)
      rw [v_setV, if_neg hne]
      exact h.register r hr }

private theorem Footprint.setFlag (h : m.Footprint i after) (hflag : i.Sets m Registers.flag) (flag : Bool) :
    m.Footprint i (after.setFlag flag) :=
  h.setV hflag _

private theorem Footprint.withCounter (h : m.Footprint i after) (counter : Int) :
    m.Footprint i { after with counter := counter } :=
  { h with }

private theorem Footprint.skipIf (h : m.Footprint i after) (condition : Bool) :
    m.Footprint i (after.skipIf condition) := by
  unfold Machine.skipIf
  split
  · exact h.withCounter _
  · exact h

private theorem Footprint.withIndex (h : m.Footprint i after) (hmoves : i.MovesIndex m.dialect) (index : Int) :
    m.Footprint i { after with index := index } :=
  { h with index := fun hstays => absurd hmoves hstays }

private theorem Footprint.passBlock (h : m.Footprint i after)
    (hmoves : m.dialect.blockMovesIndex = true → i.MovesIndex m.dialect) (x : Fin 16) :
    m.Footprint i (after.passBlock x) := by
  unfold Machine.passBlock
  split
  · rename_i hdialect
    rw [h.dialect] at hdialect
    exact h.withIndex (hmoves hdialect) _
  · exact h

private theorem footprint_clearScreen (m : Machine) :
    m.Footprint .clearScreen { m with screen := m.screen.clear } :=
  { m.footprint_self .clearScreen with
    screen := .inl rfl
    dirty := fun _ => rfl }

private theorem footprint_drawSprite (m : Machine) (x y n : Fin 16) (sprite : List UInt8) :
    m.Footprint (.draw x y n) (m.drawSprite x y sprite) := by
  have hscreen : m.Footprint (.draw x y n)
      { m with screen := m.screen.toggle (Sprite.place (m.v x) (m.v y) sprite) } :=
    { m.footprint_self (.draw x y n) with
      screen := .inr (.inl ⟨x, y, n, rfl⟩)
      dirty := fun hdirty => Bool.or_eq_true_iff.2 (.inl hdirty) }
  exact hscreen.setFlag rfl _

private theorem footprint_awaitKey (m : Machine) (x : Fin 16) : m.Footprint (.waitForKey x) (m.awaitKey x) := by
  have htake : ∀ waiting, m.Footprint (.waitForKey x) { m with keypad := m.keypad.take, waiting := waiting } :=
    fun waiting =>
      { m.footprint_self (.waitForKey x) with
        waiting := .inl ⟨x, rfl⟩
        pending := .inl ⟨x, rfl⟩ }
  unfold awaitKey
  split
  · rename_i register key hwaiting hpending
    have hends : (Instruction.waitForKey x).Sets m x := ⟨by rw [hwaiting]; exact nofun, by rw [hpending]; exact nofun, rfl⟩
    exact (htake none).setV hends _
  · exact (m.footprint_self _).withCounter _
  · exact (htake (some x)).withCounter (m.counter - 2)

private theorem footprint_store (m : Machine) {i : Instruction} {values : List UInt8}
    (hlength : values.length = i.storedBytes)
    {memory : Memory} (h : m.memory.store m.index values = .ok memory) : m.Footprint i { m with memory := memory } :=
  { m.footprint_self i with
    memory := fun address haddress => by
      unfold Instruction.StoresAt at haddress
      rw [← hlength] at haddress
      exact Memory.byteAt_store h haddress }

private theorem footprint_replaceFirst (m : Machine) (x : Fin 16) {values : List UInt8}
    (hlength : values.length = x.val + 1) :
    m.Footprint (.loadRegisters x) { m with registers := Registers.replaceFirst m.registers values } :=
  { m.footprint_self (.loadRegisters x) with
    register := by
      intro r hr
      have hbehind : values.length ≤ r.val := by
        have hlt : ¬ r ≤ x := hr
        omega
      change (Registers.replaceFirst m.registers values).get r = m.v r
      rw [Registers.get_replaceFirst, List.getElem?_eq_none hbehind]
      rfl }

/-! ### Instructions -/

theorem footprint_of_execute (hi : m.execute i = .ok after) : m.Footprint i after := by
  have h := m.footprint_self i
  cases i with
  | clearScreen =>
    cases hi
    exact m.footprint_clearScreen
  | ret =>
    obtain ⟨popped, -, rfl⟩ := Except.map_eq_ok hi
    exact { h with stack := .inl rfl }
  | jump nnn | jumpOffset x nnn =>
    cases hi
    exact h.withCounter _
  | call nnn =>
    obtain ⟨stack, -, rfl⟩ := Except.map_eq_ok hi
    exact { h with stack := .inr (.inl ⟨nnn, rfl⟩) }
  | skipIfByte x nn | skipUnlessByte x nn =>
    cases hi
    exact h.skipIf _
  | skipIfSame x y | skipUnlessSame x y =>
    cases hi
    exact h.skipIf _
  | skipIfKey x | skipUnlessKey x =>
    cases hi
    exact h.skipIf _
  | setByte x nn | addByte x nn =>
    cases hi
    exact h.setV rfl _
  | copy x y | bitOr x y | bitAnd x y | bitXor x y =>
    cases hi
    exact h.setV rfl _
  | add x y | subtract x y | shiftRight x y | subtractFrom x y | shiftLeft x y =>
    cases hi
    exact (h.setV (.inl rfl) _).setFlag (.inr rfl) _
  | setIndex nnn | pointAtGlyph x =>
    cases hi
    exact h.withIndex trivial _
  | random x nn =>
    cases hi
    have hrandom : m.Footprint (.random x nn) { m with random := m.random.advance } :=
      { h with random := .inl ⟨x, nn, rfl⟩ }
    exact hrandom.setV rfl _
  | draw x y n =>
    obtain ⟨sprite, -, rfl⟩ := Except.map_eq_ok hi
    exact m.footprint_drawSprite x y n sprite
  | readDelay x =>
    cases hi
    exact h.setV rfl _
  | waitForKey x =>
    cases hi
    exact m.footprint_awaitKey x
  | setDelay x =>
    cases hi
    exact { h with delay := .inl ⟨x, rfl⟩ }
  | setSound x =>
    cases hi
    exact { h with sound := .inl ⟨x, rfl⟩ }
  | addToIndex x =>
    cases hi
    have hmoved := h.withIndex trivial ((m.index + (m.v x).toNat) % 65536)
    split
    · rename_i hflag
      exact hmoved.setFlag ⟨hflag, rfl⟩ _
    · exact hmoved
  | storeDecimal x =>
    obtain ⟨memory, hstore, rfl⟩ := Except.map_eq_ok hi
    exact m.footprint_store rfl hstore
  | storeRegisters x =>
    obtain ⟨memory, hstore, rfl⟩ := Except.map_eq_ok hi
    have hlength : (Registers.first m.registers (x + 1)).length = x.val + 1 := by
      rw [Registers.first, List.length_take, Vector.length_toList]
      omega
    exact (m.footprint_store (i := .storeRegisters x) hlength hstore).passBlock id x
  | loadRegisters x =>
    obtain ⟨values, hread, rfl⟩ := Except.map_eq_ok hi
    exact (m.footprint_replaceFirst x (Memory.length_read hread)).passBlock id x

theorem confined_of_execute (hi : m.execute i = .ok after) : m.Confined i after :=
  (footprint_of_execute hi).toConfined

/-- A skip passes over its own opcode, and over the next one if it takes place. -/
theorem counter_pass_skipIf (m : Machine) (condition : Bool) :
    (m.count.pass.skipIf condition).counter = if condition then m.counter + 4 else m.counter + 2 := by
  cases condition with
  | true =>
    change m.counter + 2 + 2 = m.counter + 4
    omega
  | false => rfl

private theorem cycles_skipIf (m : Machine) (condition : Bool) : (m.skipIf condition).cycles = m.cycles := by
  unfold skipIf
  split <;> rfl

private theorem cycles_passBlock (m : Machine) (x : Fin 16) : (m.passBlock x).cycles = m.cycles := by
  unfold passBlock
  split <;> rfl

/-- Instructions do not count cycles. -/
theorem cycles_of_execute (hi : m.execute i = .ok after) : after.cycles = m.cycles := by
  cases i with
  | ret | call nnn | storeDecimal x =>
    obtain ⟨part, -, rfl⟩ := Except.map_eq_ok hi
    rfl
  | draw x y n =>
    obtain ⟨sprite, -, rfl⟩ := Except.map_eq_ok hi
    rfl
  | storeRegisters x | loadRegisters x =>
    obtain ⟨part, -, rfl⟩ := Except.map_eq_ok hi
    exact cycles_passBlock _ x
  | skipIfByte x nn | skipUnlessByte x nn =>
    cases hi
    exact m.cycles_skipIf _
  | skipIfSame x y | skipUnlessSame x y =>
    cases hi
    exact m.cycles_skipIf _
  | skipIfKey x | skipUnlessKey x =>
    cases hi
    exact m.cycles_skipIf _
  | waitForKey x =>
    cases hi
    unfold awaitKey
    split <;> rfl
  | addToIndex x =>
    cases hi
    split <;> rfl
  | _ =>
    cases hi
    rfl

/-! ### The three ends of a cycle -/

theorem cycle_cases (m : Machine) :
    (∃ fault, m.cycle = (m.refused, .error fault)) ∨
      (∃ op, m.cycle = (m.count.pass, .ok (.unknown op))) ∨
        ∃ i after, m.Reads i.word ∧ i.Proper ∧ m.count.pass.execute i = .ok after ∧
          m.cycle = (after, .ok (.known i)) := by
  cases hc : m.cycle.2 with
  | error fault => exact .inl ⟨fault, cycle_of_error hc⟩
  | ok step =>
    unfold Machine.cycle at hc ⊢
    cases hop : m.fetch with
    | error fault =>
      rw [hop] at hc
      cases hc
    | ok op =>
      obtain ⟨w, hw, rfl⟩ := reads_of_fetch hop
      rw [hop] at hc
      dsimp only at hc ⊢
      cases hi : Instruction.decode? (Opcode.mk w) with
      | none => exact .inr (.inl ⟨_, rfl⟩)
      | some i =>
        rw [hi] at hc
        dsimp only at hc ⊢
        cases hexecute : m.count.pass.execute i with
        | error fault =>
          rw [hexecute] at hc
          cases hc
        | ok after =>
          rw [Instruction.word_of_decode? hw.lt hi] at hw
          exact .inr (.inr ⟨i, after, hw, Instruction.proper_of_decode? hi, hexecute, rfl⟩)

end ChipEight.Machine
