import ChipEight.Proofs.Host
import ChipEight.Proofs.Results
import ChipEight.Proofs.StackLaws

/-!
# Sound machines

The types of a machine's parts bound the registers, the timers, the awaited register and the pixels. The index, the
counter, the return addresses and the pending press are numbers that the instructions have to keep in bounds:
`Machine.Sound` states these bounds, and every machine that a host brings about from a fresh one is sound
(`Machine.sound_after`).

The bounds on the counter and on the return addresses need each other. The counter is checked only when an opcode
is read, so it may run past the end of memory, but never by more than one instruction can move it; a return address
is a counter behind an opcode that was read.
-/

namespace ChipEight

/-- The bounds that the types of the parts of a machine leave open. -/
structure Machine.Sound (m : Machine) : Prop where
  index_nonneg : 0 ≤ m.index
  index_lt : m.index < 65536
  counter_nonneg : 0 ≤ m.counter
  counter_le : m.counter ≤ 0xFFF + 255
  depth : m.stack.depth = ReturnStack.standardDepth
  entries : ∀ a ∈ m.stack.entries, 2 ≤ a.toNat ∧ a.toNat ≤ 4096
  pending : ∀ key, m.keypad.pending = some key → 0 ≤ key ∧ key < 16

/-- A machine that has read an opcode: its counter stands behind two bytes of memory. -/
structure Machine.Loaded (m : Machine) : Prop extends Machine.Sound m where
  two_le : 2 ≤ m.counter
  le_size : m.counter ≤ 4096

namespace Machine

/-! ### Parts that no bound speaks of -/

@[simp] theorem index_setV (m : Machine) (x : Fin 16) (b : UInt8) : (m.setV x b).index = m.index := rfl

@[simp] theorem counter_setV (m : Machine) (x : Fin 16) (b : UInt8) : (m.setV x b).counter = m.counter := rfl

@[simp] theorem stack_setV (m : Machine) (x : Fin 16) (b : UInt8) : (m.setV x b).stack = m.stack := rfl

@[simp] theorem keypad_setV (m : Machine) (x : Fin 16) (b : UInt8) : (m.setV x b).keypad = m.keypad := rfl

@[simp] theorem counter_count (m : Machine) : m.count.counter = m.counter := rfl

@[simp] theorem counter_pass (m : Machine) : m.pass.counter = m.counter + 2 := rfl

theorem Sound.setV {m : Machine} (h : m.Sound) (x : Fin 16) (b : UInt8) : (m.setV x b).Sound :=
  ⟨h.index_nonneg, h.index_lt, h.counter_nonneg, h.counter_le, h.depth, h.entries, h.pending⟩

theorem Sound.setFlag {m : Machine} (h : m.Sound) (flag : Bool) : (m.setFlag flag).Sound := h.setV _ _

/-- A machine is sound with any counter that an instruction can reach. -/
theorem Sound.withCounter {m : Machine} (h : m.Sound) (counter : Int) (h0 : 0 ≤ counter)
    (h1 : counter ≤ 0xFFF + 255) : { m with counter := counter }.Sound :=
  ⟨h.index_nonneg, h.index_lt, h0, h1, h.depth, h.entries, h.pending⟩

theorem Sound.withIndex {m : Machine} (h : m.Sound) (index : Int) (h0 : 0 ≤ index) (h1 : index < 65536) :
    { m with index := index }.Sound :=
  ⟨h0, h1, h.counter_nonneg, h.counter_le, h.depth, h.entries, h.pending⟩

/-- Forgetting the pending press and changing what is awaited leaves a machine sound. -/
theorem Sound.take {m : Machine} (h : m.Sound) (waiting : Option (Fin 16)) :
    { m with keypad := m.keypad.take, waiting := waiting }.Sound :=
  ⟨h.index_nonneg, h.index_lt, h.counter_nonneg, h.counter_le, h.depth, h.entries, by
    intro key hkey
    cases hkey⟩

theorem Sound.count {m : Machine} (h : m.Sound) : m.count.Sound :=
  ⟨h.index_nonneg, h.index_lt, h.counter_nonneg, h.counter_le, h.depth, h.entries, h.pending⟩

theorem Sound.passBlock {m : Machine} (h : m.Sound) (x : Fin 16) : (m.passBlock x).Sound := by
  unfold Machine.passBlock
  split
  · exact h.withIndex _ (by omega) (by omega)
  · exact h

theorem Loaded.skipIf {m : Machine} (h : m.Loaded) (condition : Bool) : (m.skipIf condition).Sound := by
  have h1 := h.two_le
  have h2 := h.le_size
  unfold Machine.skipIf
  split
  · exact h.toSound.withCounter _ (by omega) (by omega)
  · exact h.toSound

/-! ### The stack -/

theorem Loaded.ret {m : Machine} (h : m.Loaded) {address : UInt16} {stack : ReturnStack}
    (hpop : m.stack.pop = .ok (address, stack)) :
    { m with counter := address.toNat, stack := stack }.Sound := by
  obtain ⟨hentries, hdepth⟩ := ReturnStack.pop_eq_ok hpop
  have haddress := h.entries address (by rw [hentries]; simp)
  exact
    { h.toSound.withCounter address.toNat (by omega) (by omega) with
      depth := hdepth.trans h.depth
      entries := fun a ha => h.entries a (by rw [hentries]; exact List.mem_append_left _ ha) }

theorem Loaded.call {m : Machine} (h : m.Loaded) (nnn : Fin 4096) {stack : ReturnStack}
    (hpush : m.stack.push m.counter = .ok stack) : { m with counter := nnn.val, stack := stack }.Sound := by
  obtain ⟨h0, h1, -, hentries, hdepth⟩ := ReturnStack.push_eq_ok hpush
  have htwo := h.two_le
  have hsize := h.le_size
  refine
    { h.toSound.withCounter nnn.val (by omega) (by omega) with
      depth := hdepth.trans h.depth
      entries := ?_ }
  -- the new entry is the counter behind the opcode of the call
  intro a ha
  simp only [hentries, List.mem_append, List.mem_singleton] at ha
  rcases ha with ha | rfl
  · exact h.entries a ha
  · have := ReturnStack.toNat_ofInt_of_lt h0 h1
    omega

/-! ### Instructions -/

theorem Loaded.awaitKey {m : Machine} (h : m.Loaded) (x : Fin 16) : (m.awaitKey x).Sound := by
  have htwo := h.two_le
  have hsize := h.le_size
  unfold Machine.awaitKey
  split
  · exact (h.toSound.take none).setV _ _
  · exact h.toSound.withCounter _ (by omega) (by omega)
  · exact (h.toSound.take (some x)).withCounter (m.counter - 2) (by omega) (by omega)

/-- An instruction that is not refused leaves a sound machine behind. -/
theorem Loaded.execute {m m' : Machine} (h : m.Loaded) {i : Instruction} (hi : m.execute i = .ok m') :
    m'.Sound := by
  have hs := h.toSound
  cases i with
  | clearScreen =>
    cases hi
    exact { hs with }
  | ret =>
    obtain ⟨⟨address, stack⟩, hpop, rfl⟩ := Except.map_eq_ok hi
    exact h.ret hpop
  | jump nnn =>
    cases hi
    exact hs.withCounter _ (by omega) (by omega)
  | call nnn =>
    obtain ⟨stack, hpush, rfl⟩ := Except.map_eq_ok hi
    exact h.call nnn hpush
  | skipIfByte x nn | skipUnlessByte x nn =>
    cases hi
    exact h.skipIf _
  | skipIfSame x y | skipUnlessSame x y =>
    cases hi
    exact h.skipIf _
  | skipIfKey x | skipUnlessKey x =>
    cases hi
    exact h.skipIf _
  | setByte x nn | addByte x nn =>
    cases hi
    exact hs.setV _ _
  | copy x y | bitOr x y | bitAnd x y | bitXor x y =>
    cases hi
    exact hs.setV _ _
  | add x y | subtract x y | shiftRight x y | subtractFrom x y | shiftLeft x y =>
    cases hi
    exact (hs.setV _ _).setFlag _
  | setIndex nnn =>
    cases hi
    exact hs.withIndex _ (by omega) (by omega)
  | jumpOffset x nnn =>
    cases hi
    -- no jump goes farther than this one
    have := (m.v (m.offsetRegister x)).toNat_lt
    exact hs.withCounter _ (by omega) (by omega)
  | random x nn =>
    cases hi
    exact { hs.setV x (UInt8.ofInt m.random.next &&& nn) with }
  | draw x y n =>
    obtain ⟨sprite, -, rfl⟩ := Except.map_eq_ok hi
    have hscreen : { m with screen := m.screen.toggle (Sprite.place (m.v x) (m.v y) sprite) }.Sound := { hs with }
    exact hscreen.setFlag _
  | readDelay x =>
    cases hi
    exact hs.setV _ _
  | waitForKey x =>
    cases hi
    exact h.awaitKey x
  | setDelay x | setSound x =>
    cases hi
    exact { hs with }
  | addToIndex x =>
    cases hi
    have hmoved := hs.withIndex ((m.index + (m.v x).toNat) % 65536) (by omega) (by omega)
    split
    · exact hmoved.setFlag _
    · exact hmoved
  | pointAtGlyph x =>
    cases hi
    have hdigit : (m.v x).toNat % 16 < 16 := Nat.mod_lt _ (by omega)
    refine hs.withIndex _ (by omega) ?_
    simp only [Font.glyphAddress, Font.start, Font.glyphHeight]
    omega
  | storeDecimal x =>
    obtain ⟨memory, -, rfl⟩ := Except.map_eq_ok hi
    exact { hs with }
  | storeRegisters x =>
    obtain ⟨memory, -, rfl⟩ := Except.map_eq_ok hi
    have hstored : { m with memory := memory }.Sound := { hs with }
    exact hstored.passBlock x
  | loadRegisters x =>
    obtain ⟨values, -, rfl⟩ := Except.map_eq_ok hi
    have hloaded : { m with registers := Registers.replaceFirst m.registers values }.Sound := { hs with }
    exact hloaded.passBlock x

/-! ### Cycles -/

theorem fetch_eq_ok {m : Machine} {op : Opcode} (h : m.fetch = .ok op) :
    0 ≤ m.counter ∧ m.counter + 2 ≤ 4096 ∧
      op = Opcode.ofBytes (m.memory.byteAt m.counter.toNat).toNat (m.memory.byteAt (m.counter.toNat + 1)).toNat := by
  unfold fetch at h
  split at h
  · rename_i hfits
    exact ⟨hfits.1, hfits.2, (Except.ok.inj h).symm⟩
  · cases h

theorem Sound.loaded {m : Machine} (h : m.Sound) {op : Opcode} (hop : m.fetch = .ok op) : m.count.pass.Loaded := by
  obtain ⟨h0, h1, -⟩ := fetch_eq_ok hop
  have hpass : m.count.pass.Sound := h.count.withCounter (m.counter + 2) (by omega) (by omega)
  exact { hpass with
    two_le := by rw [counter_pass, counter_count]; omega
    le_size := by rw [counter_pass, counter_count]; omega }

theorem Sound.cycle {m : Machine} (h : m.Sound) : m.cycle.1.Sound := by
  unfold Machine.cycle
  cases hop : m.fetch with
  | error fault => exact h.count
  | ok op =>
    have hloaded := h.loaded hop
    dsimp only
    cases Instruction.decode? op with
    | none => exact hloaded.toSound
    | some i =>
      dsimp only
      cases hi : m.count.pass.execute i with
      | error fault => exact hloaded.toSound
      | ok after => exact hloaded.execute hi

/-! ### Hosts -/

theorem sound_fresh (dialect : Dialect) (layout : Layout) (random : Wheel) :
    (fresh dialect layout random).Sound := by
  have hindex : (fresh dialect layout random).index = 0 := rfl
  have hcounter : (fresh dialect layout random).counter = 0x200 := rfl
  refine ⟨by omega, by omega, by omega, by omega, rfl, ?_, ?_⟩
  · intro a ha
    cases ha
  · intro key hkey
    cases hkey

theorem Sound.press {m : Machine} (h : m.Sound) (key : Fin 16) :
    { m with keypad := m.keypad.pressKey key }.Sound := by
  refine { h with pending := ?_ }
  intro k hk
  simp only [Keypad.pressKey] at hk
  split at hk
  · exact h.pending k hk
  · cases hp : m.keypad.pending with
    | none =>
      rw [hp] at hk
      cases hk
      omega
    | some first =>
      rw [hp] at hk
      exact h.pending k (hp.trans hk)

theorem kept_sound : Kept Sound where
  load m memory h := { h with }
  cycle m h := h.cycle
  timers m timers h := { h with }
  press m key h := h.press key
  release m key h := { h with }
  take m h := h.take m.waiting
  reset m h := { h with pending := fun key hkey => by cases hkey }
  screen m screen h := { h with }

/-- Whatever a host does, a fresh machine stays sound. -/
theorem sound_after (dialect : Dialect) (layout : Layout) (random : Wheel) (steps : List HostStep) :
    ((fresh dialect layout random).after steps).Sound :=
  after_induction kept_sound (sound_fresh dialect layout random) steps

end Machine

end ChipEight
