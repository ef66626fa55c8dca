import ChipEight.Proofs.Calls

/-!
# Footprints of cycles

A cycle that executes an instruction changes the counter, the number of cycles, and what the footprint of the
instruction allows, and nothing else; where it works on the stack or on the random numbers, it is by one address or by
one number. A cycle that comes upon an unknown opcode changes the counter and the number of cycles only
(`successful_cycle_within_footprint`).
-/

namespace ChipEight

namespace Machine

/-- The one address that a call puts on the stack or a return takes off, and the one random number that is dealt. -/
structure Turnover (m : Machine) (i : Instruction) (after : Machine) : Prop where
  pushed : (∃ nnn, i = .call nnn) → ∃ address, after.stack.entries = m.stack.entries ++ [address]
  popped : i = .ret → ∃ address, m.stack.entries = after.stack.entries ++ [address]
  dealt : (∃ x nn, i = .random x nn) →
    after.random.dealt = m.random.dealt + 1 ∧ after.random.numbers = m.random.numbers

variable {m : Machine} {i : Instruction}

/-- A cycle that succeeds with an instruction has read it and executed it. -/
theorem execute_of_cycle (h : m.cycle.2 = .ok (.known i)) :
    m.Reads i.word ∧ i.Proper ∧ m.count.pass.execute i = .ok m.cycle.1 := by
  rcases m.cycle_cases with ⟨fault, hc⟩ | ⟨op, hc⟩ | ⟨j, after, hreads, hproper, hexecute, hc⟩
  · rw [hc] at h
    cases h
  · rw [hc] at h
    cases h
  · rw [hc] at h ⊢
    cases h
    exact ⟨hreads, hproper, hexecute⟩

theorem footprint_cycle (h : m.cycle.2 = .ok (.known i)) : m.Footprint i m.cycle.1 := by
  obtain ⟨-, -, hexecute⟩ := execute_of_cycle h
  -- counting the cycle and passing the opcode touches nothing that a footprint speaks of
  exact { footprint_of_execute hexecute with }

theorem turnover_cycle (h : m.cycle.2 = .ok (.known i)) : m.Turnover i m.cycle.1 := by
  have hexecuted : m.executed? = some i := by rw [executed?, h]
  have hstack := m.cycle_stack
  rw [hexecuted] at hstack
  refine ⟨?_, ?_, ?_⟩
  · rintro ⟨nnn, rfl⟩
    rcases hstack with ⟨hret, -⟩ | ⟨-, -, hentries⟩ | ⟨-, hcall, -⟩
    · cases hret
    · exact ⟨_, hentries⟩
    · exact absurd rfl (hcall nnn)
  · rintro rfl
    rcases hstack with ⟨-, address, hentries, -⟩ | ⟨nnn, hcall, -⟩ | ⟨hret, -, -⟩
    · exact ⟨address, hentries⟩
    · cases hcall
    · exact absurd rfl hret
  · rintro ⟨x, nn, rfl⟩
    obtain ⟨-, -, hexecute⟩ := execute_of_cycle h
    rw [← Except.ok.inj hexecute]
    exact ⟨rfl, rfl⟩

theorem cycles_cycle (m : Machine) : m.cycle.1.cycles = m.cycles + 1 := by
  rcases m.cycle_cases with ⟨fault, hc⟩ | ⟨op, hc⟩ | ⟨j, after, -, -, hexecute, hc⟩
  · rw [hc]
    rfl
  · rw [hc]
    rfl
  · rw [hc]
    exact cycles_of_execute hexecute

/-- No cycle at all, be it refused, takes back that the pixels have to be shown again, or changes what only hosts
change. -/
theorem lasting_cycle (m : Machine) :
    (m.screen.dirty = true → m.cycle.1.screen.dirty = true) ∧ m.cycle.1.keypad.down = m.keypad.down ∧
      m.cycle.1.keypad.layout = m.keypad.layout ∧ m.cycle.1.dialect = m.dialect := by
  cases hc : m.cycle.2 with
  | error fault =>
    rw [cycle_of_error hc]
    exact ⟨id, rfl, rfl, rfl⟩
  | ok step =>
    cases step with
    | unknown op =>
      obtain ⟨w, -, hreads, hw⟩ := (m.cycle_eq_unknown_iff op).1 hc
      rw [cycle_of_unassigned hreads hw]
      exact ⟨id, rfl, rfl, rfl⟩
    | known i =>
      have h := footprint_cycle hc
      exact ⟨h.dirty, h.down, h.layout, h.dialect⟩

end Machine

open Micro

/-- A cycle that succeeds stays within the footprint of the instruction that it executes, or it has come upon a word
that no instruction is written as, and changes the counter and the number of cycles only. -/
theorem successful_cycle_within_footprint (dialect : Dialect) (layout : Layout) (random : Wheel) (logging : Bool)
    (steps : List HostStep) :
    let s := (Session.fresh dialect layout random logging).after steps
    let store := (Store.fresh dialect layout random logging).after steps
    let lines := (Session.fresh dialect layout random logging).printed steps
    let m := s.machine
    let after := m.cycle.1
    (∀ i, m.cycle.2 = .ok (.known i) →
      m.Reads i.word ∧ after.cycles = m.cycles + 1 ∧ m.Footprint i after ∧ m.Turnover i after) ∧
    (∀ w, m.Reads w → Instruction.Unassigned w →
      m.cycle = ({ m with counter := m.counter + 2, cycles := m.cycles + 1 }, .ok (.unknown ⟨w⟩))) ∧
    (∀ op, m.cycle.2 = .ok (.unknown op) → ∃ w : Nat, op = ⟨w⟩ ∧ m.Reads w ∧ Instruction.Unassigned w) ∧
    ((m.screen.dirty = true → after.screen.dirty = true) ∧ after.keypad.down = m.keypad.down ∧
      after.keypad.layout = m.keypad.layout ∧ after.dialect = m.dialect) ∧
    (s.perform .cycle).session.machine = after ∧ Mirrors store s lines ∧
      (run cycle store).1 = outcome (s.perform .cycle) ∧
      Mirrors (run cycle store).2 (s.perform .cycle).session (lines ++ (s.perform .cycle).lines.toList) := by
  intro s store lines m after
  obtain ⟨hsound, hmirrors⟩ := reachable dialect layout random logging steps
  refine ⟨?_, ?_, ?_, m.lasting_cycle, machine_perform s .cycle, hmirrors, run_perform hsound hmirrors .cycle⟩
  · intro i hi
    exact ⟨(Machine.execute_of_cycle hi).1, m.cycles_cycle, Machine.footprint_cycle hi, Machine.turnover_cycle hi⟩
  · intro w hreads hw
    exact Machine.cycle_of_unassigned hreads hw
  · intro op hop
    exact (m.cycle_eq_unknown_iff op).1 hop

/-- Where blocks move the index, V0 and V1 are stored at 0x300; behind that stands a word of no instruction, and then an
instruction that takes the next random number, although no bit of it gets into V2. -/
theorem successful_cycle_within_footprint_of_block :
    let rom : List UInt8 := [0xA3, 0x00, 0xF1, 0x55, 0x50, 0x01, 0xC2, 0x00]
    let fresh := Session.fresh Dialect.vip Layout.standard { numbers := #[7, 9] } true
    let stores := (fresh.after [.load rom, .cycle]).machine
    let passes := (fresh.after [.load rom, .cycle, .cycle]).machine
    let deals := (fresh.after [.load rom, .cycle, .cycle, .cycle]).machine
    (stores.cycle.2 = .ok (.known (.storeRegisters 1)) ∧
        stores.cycle.1.memory.byteAt 0x302 = stores.memory.byteAt 0x302 ∧
        stores.cycle.1.random = stores.random) ∧
      (passes.Reads 0x5001 ∧ Instruction.Unassigned 0x5001 ∧
        passes.cycle =
          ({ passes with counter := passes.counter + 2, cycles := passes.cycles + 1 }, .ok (.unknown ⟨0x5001⟩))) ∧
      deals.cycle.2 = .ok (.known (.random 2 0)) ∧ deals.random.dealt = 0 ∧ deals.cycle.1.random.dealt = 1 ∧
        deals.cycle.1.random.numbers = #[7, 9] := by
  intro rom fresh stores passes deals
  have hstores : stores.cycle.2 = .ok (.known (.storeRegisters 1)) := by decide +kernel
  have hreads : passes.Reads 0x5001 := by decide +kernel
  have hunassigned : Instruction.Unassigned 0x5001 := (Instruction.decode?_eq_none_iff (by omega)).1 (by decide +kernel)
  have hdeals : deals.cycle.2 = .ok (.known (.random 2 0)) := by decide +kernel
  have hwheel : deals.random = { numbers := #[7, 9] } := by decide +kernel
  obtain ⟨hblock, -⟩ := successful_cycle_within_footprint Dialect.vip Layout.standard { numbers := #[7, 9] } true
    [.load rom, .cycle]
  obtain ⟨-, hunknown, -⟩ := successful_cycle_within_footprint Dialect.vip Layout.standard { numbers := #[7, 9] } true
    [.load rom, .cycle, .cycle]
  obtain ⟨hnumber, -⟩ := successful_cycle_within_footprint Dialect.vip Layout.standard { numbers := #[7, 9] } true
    [.load rom, .cycle, .cycle, .cycle]
  obtain ⟨-, -, hfootprint, -⟩ := hblock _ hstores
  obtain ⟨-, -, -, hturnover⟩ := hnumber _ hdeals
  obtain ⟨hdealt, hnumbers⟩ := hturnover.dealt ⟨2, 0, rfl⟩
  have houtside : ¬ (Instruction.storeRegisters 1).StoresAt stores.index 0x302 := by
    have hindex : stores.index = 0x300 := by decide +kernel
    rw [hindex]
    rintro ⟨-, hlt⟩
    exact absurd hlt (by decide)
  have hkept : stores.cycle.1.random = stores.random := by
    rcases hfootprint.random with ⟨x, nn, hi⟩ | hsame
    · cases hi
    · exact hsame
  refine ⟨⟨hstores, hfootprint.memory 0x302 houtside, hkept⟩,
    ⟨hreads, hunassigned, hunknown _ hreads hunassigned⟩, hdeals, congrArg Wheel.dealt hwheel, ?_, ?_⟩
  · rw [hdealt]
    exact congrArg (Wheel.dealt · + 1) hwheel
  · rw [hnumbers]
    exact congrArg Wheel.numbers hwheel

end ChipEight
