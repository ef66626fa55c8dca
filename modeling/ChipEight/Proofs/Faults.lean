import ChipEight.Proofs.Micro.Simulation

/-!
# Faults of cycles

`Refusal` lists the causes for which a cycle is refused, by the word at the counter: no opcode can be read, a return
meets an empty stack, a call a full one, or a sprite, a number or a block of registers would reach past the end of
memory. A cycle of a machine that a host has brought about is refused for these causes and no others, with the
fault of the cause, and the same cycle on bare cells runs into no other trap (`cycle_refused_iff`).

A refused cycle leaves everything but the counts as it was (`refused_cycle_unchanged`).
-/

namespace ChipEight

/-- The causes for which a cycle is refused, with their faults. -/
inductive Refusal (m : Machine) : Fault → Prop
  | pastEnd (h : m.counter + 2 > 4096) : Refusal m (.memoryBounds m.counter 2)
  | emptyStack (hword : m.Reads 0x00EE) (h : m.stack.entries = []) : Refusal m .stackUnderflow
  | fullStack (nnn : Fin 4096) (hword : m.Reads (0x2000 + nnn)) (h : m.stack.entries.length = 16) :
    Refusal m .stackOverflow
  | sprite (x y n : Fin 16) (hword : m.Reads (0xD000 + 0x100 * x + 0x10 * y + n)) (h : m.index + n.val > 4096) :
    Refusal m (.memoryBounds m.index n.val)
  | decimal (x : Fin 16) (hword : m.Reads (0xF033 + 0x100 * x)) (h : m.index + 3 > 4096) :
    Refusal m (.memoryBounds m.index 3)
  | storing (x : Fin 16) (hword : m.Reads (0xF055 + 0x100 * x)) (h : m.index + x.val + 1 > 4096) :
    Refusal m (.memoryBounds m.index (x.val + 1))
  | loading (x : Fin 16) (hword : m.Reads (0xF065 + 0x100 * x)) (h : m.index + x.val + 1 > 4096) :
    Refusal m (.memoryBounds m.index (x.val + 1))

theorem Refusal.stops {m : Machine} {fault : Fault} (h : Refusal m fault) : fault.stopsProgram = true := by
  cases h <;> rfl

namespace Machine

/-- When and how an instruction is refused. -/
def Refuses (m : Machine) (fault : Fault) : Instruction → Prop
  | .ret => m.stack.entries = [] ∧ fault = .stackUnderflow
  | .call _ => m.stack.entries.length = m.stack.depth ∧ fault = .stackOverflow
  | .draw _ _ n => m.index + n.val > 4096 ∧ fault = .memoryBounds m.index n.val
  | .storeDecimal _ => m.index + 3 > 4096 ∧ fault = .memoryBounds m.index 3
  | .storeRegisters x => m.index + x.val + 1 > 4096 ∧ fault = .memoryBounds m.index (x.val + 1)
  | .loadRegisters x => m.index + x.val + 1 > 4096 ∧ fault = .memoryBounds m.index (x.val + 1)
  | _ => False

/-- An access from an address that is not negative is refused only if it goes past the end. -/
private theorem access_eq_error_iff {α : Type} (a : α) {address count : Int} (h : 0 ≤ address) (fault : Fault) :
    (if Memory.Fits address count then .ok a else .error (.memoryBounds address count) : Except Fault α) =
      .error fault ↔ address + count > 4096 ∧ fault = .memoryBounds address count := by
  have hsize : (Memory.size : Int) = 4096 := rfl
  by_cases hfits : Memory.Fits address count
  · have hle := hfits.2
    rw [if_pos hfits]
    constructor
    · intro h
      cases h
    · rintro ⟨h, -⟩
      omega
  · have hgt : address + count > 4096 := by
      by_contra hle
      exact hfits ⟨h, by omega⟩
    rw [if_neg hfits]
    constructor
    · intro h
      exact ⟨hgt, (Except.error.inj h).symm⟩
    · rintro ⟨-, rfl⟩
      rfl

/-- Behind an opcode that was read, an instruction is refused for its own cause only. -/
theorem Loaded.execute_eq_error_iff {m : Machine} (h : m.Loaded) (i : Instruction) (fault : Fault) :
    m.execute i = .error fault ↔ m.Refuses fault i := by
  have h0 := h.two_le
  have h1 := h.le_size
  cases i with
  | ret =>
    simp only [Machine.execute, Refuses]
    rw [Except.map_eq_error_iff, ReturnStack.pop_eq_error_iff]
  | call nnn =>
    simp only [Machine.execute, Refuses]
    rw [Except.map_eq_error_iff, ReturnStack.push_eq_error_iff (by omega) (by omega)]
  | draw x y n =>
    simp only [Machine.execute, Refuses]
    rw [Except.map_eq_error_iff, Memory.read, access_eq_error_iff _ h.index_nonneg]
  | storeDecimal x =>
    simp only [Machine.execute, Refuses]
    rw [Except.map_eq_error_iff, Memory.store, access_eq_error_iff _ h.index_nonneg]
    rfl
  | storeRegisters x =>
    have hlength : (Registers.first m.registers (x + 1)).length = x.val + 1 := by
      rw [Registers.first, List.length_take, Vector.length_toList]
      omega
    simp only [Machine.execute, Refuses]
    rw [Except.map_eq_error_iff, Memory.store, access_eq_error_iff _ h.index_nonneg, hlength, Int.natCast_add,
      ← Int.add_assoc]
    rfl
  | loadRegisters x =>
    simp only [Machine.execute, Refuses]
    rw [Except.map_eq_error_iff, Memory.read, access_eq_error_iff _ h.index_nonneg, ← Int.add_assoc]
  | _ =>
    simp only [Refuses, iff_false]
    intro hi
    cases hi

theorem Sound.loaded_of_reads {m : Machine} (h : m.Sound) {w : Nat} (hw : m.Reads w) : m.count.pass.Loaded :=
  h.loaded hw.fetch

/-- The instruction that a cycle reads is the cause of its fault. -/
theorem Sound.cycle_of_refuses {m : Machine} (h : m.Sound) {i : Instruction} (hreads : m.Reads i.word)
    (hproper : i.Proper) {fault : Fault} (hi : m.count.pass.Refuses fault i) : m.cycle.2 = .error fault := by
  have hexecute := ((h.loaded_of_reads hreads).execute_eq_error_iff i fault).2 hi
  exact (Machine.cycle_eq_error_iff m fault).2 (.inr ⟨i, hreads, hproper, hexecute⟩)

/-- A cycle of a sound machine is refused for one of the causes, with its fault. -/
theorem Sound.cycle_eq_error_iff {m : Machine} (h : m.Sound) (fault : Fault) :
    m.cycle.2 = .error fault ↔ Refusal m fault := by
  have hsize : (Memory.size : Int) = 4096 := rfl
  have hfull : m.stack.entries.length = m.stack.depth ↔ m.stack.entries.length = 16 := by
    rw [h.depth]
    rfl
  constructor
  · intro herror
    rcases (Machine.cycle_eq_error_iff m fault).1 herror with hfetch | ⟨i, hreads, -, hi⟩
    · obtain ⟨hfits, rfl⟩ := (fetch_eq_error_iff m fault).1 hfetch
      refine .pastEnd ?_
      by_contra hle
      exact hfits ⟨h.counter_nonneg, by omega⟩
    · have hrefuses := ((h.loaded_of_reads hreads).execute_eq_error_iff i fault).1 hi
      cases i with
      | ret =>
        obtain ⟨hempty, rfl⟩ := hrefuses
        exact .emptyStack hreads hempty
      | call nnn =>
        obtain ⟨hlength, rfl⟩ := hrefuses
        exact .fullStack nnn hreads (hfull.1 hlength)
      | draw x y n =>
        obtain ⟨hpast, rfl⟩ := hrefuses
        exact .sprite x y n hreads hpast
      | storeDecimal x =>
        obtain ⟨hpast, rfl⟩ := hrefuses
        exact .decimal x hreads hpast
      | storeRegisters x =>
        obtain ⟨hpast, rfl⟩ := hrefuses
        exact .storing x hreads hpast
      | loadRegisters x =>
        obtain ⟨hpast, rfl⟩ := hrefuses
        exact .loading x hreads hpast
      | _ => exact hrefuses.elim
  · intro hrefusal
    cases hrefusal with
    | pastEnd hpast =>
      have hfits : ¬ Memory.Fits m.counter 2 := by
        rintro ⟨-, hle⟩
        omega
      exact (Machine.cycle_eq_error_iff m _).2 (.inl ((fetch_eq_error_iff m _).2 ⟨hfits, rfl⟩))
    | emptyStack hword hempty => exact h.cycle_of_refuses (i := .ret) hword trivial ⟨hempty, rfl⟩
    | fullStack nnn hword hlength => exact h.cycle_of_refuses (i := .call nnn) hword trivial ⟨hfull.2 hlength, rfl⟩
    | sprite x y n hword hpast => exact h.cycle_of_refuses (i := .draw x y n) hword trivial ⟨hpast, rfl⟩
    | decimal x hword hpast => exact h.cycle_of_refuses (i := .storeDecimal x) hword trivial ⟨hpast, rfl⟩
    | storing x hword hpast => exact h.cycle_of_refuses (i := .storeRegisters x) hword trivial ⟨hpast, rfl⟩
    | loading x hword hpast => exact h.cycle_of_refuses (i := .loadRegisters x) hword trivial ⟨hpast, rfl⟩

end Machine

open Micro

/-! ### Which cycles are refused -/

private theorem answer_eq_error_iff (s : Session) (fault : Fault) :
    (s.perform .cycle).answer = .error fault ↔ s.machine.cycle.2 = .error fault := by
  rw [perform_cycle]
  exact Except.map_eq_error_iff

/-- A cycle on bare cells ends in the trap of the fault that refuses the cycle of the machine. -/
theorem trap_iff {store : Store} {s : Session} {lines : List String} (hs : s.machine.Sound)
    (h : Mirrors store s lines) (trap : Trap) :
    (run cycle store).1 = .error trap ↔ ∃ fault, s.machine.cycle.2 = .error fault ∧ trap = .refused fault := by
  obtain ⟨r, rfl, hr, -, -⟩ := h
  have hcycle := run_cycle hs hr
  cases hc : s.machine.cycle with
  | mk after result =>
    rw [hc] at hcycle
    cases result with
    | error fault =>
      rw [hcycle]
      constructor
      · intro htrap
        exact ⟨fault, rfl, (Except.error.inj htrap).symm⟩
      · rintro ⟨other, hother, rfl⟩
        cases hother
        rfl
    | ok step =>
      obtain ⟨r', hrun, -⟩ := hcycle
      rw [hrun]
      constructor
      · intro htrap
        cases htrap
      · rintro ⟨other, hother, -⟩
        cases hother

/-- A cycle is refused for the causes of `Refusal` and no others, on bare cells too. -/
theorem cycle_refused_iff (dialect : Dialect) (layout : Layout) (random : Wheel) (logging : Bool)
    (steps : List HostStep) :
    let s := (Session.fresh dialect layout random logging).after steps
    let store := (Store.fresh dialect layout random logging).after steps
    (∀ fault, (s.perform .cycle).answer = .error fault ↔ Refusal s.machine fault) ∧
      Mirrors store s ((Session.fresh dialect layout random logging).printed steps) ∧
      ∀ trap, (run cycle store).1 = .error trap ↔ ∃ fault, Refusal s.machine fault ∧ trap = .refused fault := by
  intro s store
  obtain ⟨hsound, hmirrors⟩ := reachable dialect layout random logging steps
  refine ⟨?_, hmirrors, ?_⟩
  · intro fault
    rw [answer_eq_error_iff]
    exact hsound.cycle_eq_error_iff fault
  · intro trap
    rw [trap_iff hsound hmirrors]
    constructor
    · rintro ⟨fault, hfault, rfl⟩
      exact ⟨fault, (hsound.cycle_eq_error_iff fault).1 hfault, rfl⟩
    · rintro ⟨fault, hfault, rfl⟩
      exact ⟨fault, (hsound.cycle_eq_error_iff fault).2 hfault, rfl⟩

/-! ### What a refused cycle leaves behind -/

/-- The cells after a refused cycle. -/
def Micro.Store.refused (s : Store) : Store :=
  { s with
    cycles := s.cycles + 1
    counter := if (run fetch s).1.isOk then s.counter + 2 else s.counter }

private theorem isOk_fetch (m : Machine) (r : Rest) : (run fetch (m.bare r)).1.isOk = m.fetch.isOk := by
  rw [run_fetch]
  cases m.fetch <;> rfl

theorem Micro.Mirrors.refused {store : Store} {s : Session} {lines : List String} (hs : s.machine.Sound)
    (h : Mirrors store s lines) {trap : Trap} (htrap : (run cycle store).1 = .error trap) :
    (run cycle store).2 = store.refused := by
  obtain ⟨fault, hfault, rfl⟩ := (trap_iff hs h trap).1 htrap
  obtain ⟨r, rfl, hr, -, -⟩ := h
  have hcycle := run_cycle hs hr
  rw [Machine.cycle_of_error hfault] at hcycle
  rw [hcycle]
  unfold Micro.Store.refused
  rw [isOk_fetch]
  rfl

/-! ### Frames -/

/-- A run is refused when one of its cycles is, and that one is the last: the cycles before it succeeded. -/
theorem go_refused (n : Nat) {s : Session} {q : Run} (hmachine : q.machine = s.machine) (hq : q.fault = none)
    {fault : Fault} (h : (Run.go s.logging n q).fault = some fault) :
    ∃ k < n,
      (∀ j < k, ∃ answer, ((s.after (List.replicate j .cycle)).perform .cycle).answer = .ok answer) ∧
      ((s.after (List.replicate k .cycle)).perform .cycle).answer = .error fault ∧
      (Run.go s.logging n q).machine = ((s.after (List.replicate k .cycle)).perform .cycle).session.machine ∧
      (Run.go s.logging n q).lines.toList = q.lines.toList ++ s.printed (List.replicate k .cycle) := by
  -- either the first cycle is refused, or the run after it is
  induction n generalizing s q with
  | zero =>
    rw [Run.go, hq] at h
    cases h
  | succ n ih =>
    have hperform := perform_cycle s
    cases hc : s.machine.cycle with
    | mk after result =>
      have hc' : q.machine.cycle = (after, result) := by rw [hmachine, hc]
      rw [hc] at hperform
      cases result with
      | error first =>
        rw [Run.go_succ_of_error s.logging n hq hc'] at h ⊢
        cases h
        refine ⟨0, Nat.succ_pos n, ?_, ?_, ?_, ?_⟩
        · intro j hj
          exact absurd hj (Nat.not_lt_zero j)
        · exact congrArg Reply.answer hperform
        · exact (congrArg (fun reply : Reply => reply.session.machine) hperform).symm
        · exact (List.append_nil _).symm
      | ok step =>
        rw [Run.go_succ_of_ok s.logging n hq hc'] at h ⊢
        have hafter : after = (s.perform .cycle).session.machine := by
          rw [hperform]
          rfl
        have hlogging : (s.perform .cycle).session.logging = s.logging := by
          rw [hperform]
          rfl
        have hlines : (s.perform .cycle).lines.toList = Run.cycleLines s.logging q.machine after (.ok step) := by
          rw [hperform, hmachine]
        rw [← hlogging] at h
        obtain ⟨k, hk, hok, herror, hend, hprinted⟩ := ih hafter rfl h
        rw [hlogging] at hend hprinted
        refine ⟨k + 1, Nat.succ_lt_succ hk, ?_, herror, hend, ?_⟩
        · intro j hj
          cases j with
          | zero => exact ⟨.nothing, congrArg Reply.answer hperform⟩
          | succ j => exact hok j (Nat.lt_of_succ_lt_succ hj)
        · rw [hprinted, Array.toList_appendList, List.append_assoc, ← hlines]
          rfl

theorem cyclesOf_refused (n : Nat) {store : Store} {trap : Trap} (h : (run (cyclesOf n) store).1 = .error trap) :
    ∃ k < n,
      (∀ j < k, (run cycle (store.after (List.replicate j .cycle))).1 = .ok ()) ∧
      run cycle (store.after (List.replicate k .cycle)) = (.error trap, (run (cyclesOf n) store).2) := by
  induction n generalizing store with
  | zero => cases h
  | succ n ih =>
    unfold cyclesOf at h ⊢
    cases hc : run cycle store with
    | mk result store' =>
      cases result with
      | error first =>
        rw [run_bind_of_error hc] at h ⊢
        cases h
        refine ⟨0, Nat.succ_pos n, ?_, hc⟩
        intro j hj
        exact absurd hj (Nat.not_lt_zero j)
      | ok _ =>
        have hafter : (run cycle store).2 = store' := by rw [hc]
        rw [run_bind_of_ok hc] at h ⊢
        obtain ⟨k, hk, hok, herror⟩ := ih h
        refine ⟨k + 1, Nat.succ_lt_succ hk, ?_, ?_⟩
        · intro j hj
          cases j with
          | zero => exact congrArg Prod.fst hc
          | succ j =>
            have := hok j (Nat.lt_of_succ_lt_succ hj)
            rw [← hafter] at this
            exact this
        · rw [← hafter] at herror ⊢
          exact herror

/-! ### What stays as it was -/

/-- Once no opcode can be read, none can be read after any number of further cycles. -/
theorem fetch_after_cycles {s : Session} {fault : Fault} (h : s.machine.fetch = .error fault) (n : Nat) :
    (s.after (List.replicate n .cycle)).machine.fetch = .error fault := by
  induction n generalizing s with
  | zero => exact h
  | succ n ih =>
    have hcycle : (s.perform .cycle).session.machine = s.machine.count := by
      rw [perform_cycle]
      unfold Machine.cycle
      rw [h]
      rfl
    have hfetch : (s.perform .cycle).session.machine.fetch = .error fault := by
      rw [hcycle]
      exact h
    exact ih hfetch

private theorem cycle_of_fetch {m : Machine} {fault : Fault} (h : m.fetch = .error fault) :
    m.cycle.2 = .error fault :=
  (Machine.cycle_eq_error_iff m fault).2 (.inl h)

private theorem fetch_of_trap {store : Store} {s : Session} {lines : List String} (h : Mirrors store s lines)
    {trap : Trap} (htrap : (run fetch store).1 = .error trap) :
    ∃ fault, s.machine.fetch = .error fault ∧ trap = .refused fault := by
  obtain ⟨r, rfl, -, -, -⟩ := h
  rw [run_fetch] at htrap
  cases hop : s.machine.fetch with
  | error fault =>
    rw [hop] at htrap
    exact ⟨fault, rfl, (Except.error.inj htrap).symm⟩
  | ok op =>
    rw [hop] at htrap
    cases htrap

private theorem session_of_refused {s : Session} {fault : Fault}
    (h : (s.perform .cycle).answer = .error fault) :
    (s.perform .cycle).session = { s with machine := s.machine.refused } ∧ (s.perform .cycle).lines = #[] := by
  have hcycle := Machine.cycle_of_error ((answer_eq_error_iff s fault).1 h)
  rw [perform_cycle, hcycle]
  exact ⟨rfl, rfl⟩

private theorem sound_cycles {s : Session} (hs : s.machine.Sound) (n : Nat) :
    (s.after (List.replicate n .cycle)).machine.Sound := by
  rw [machine_after]
  exact Machine.after_induction Machine.kept_sound hs _

/-- A frame that is refused is a tick, cycles that succeeded, and one refused cycle. -/
theorem frame_refused {s : Session} {n : Int} {fault : Fault}
    (h : (s.perform (.frame n)).answer = .error fault) :
    let ticked := (s.perform .tick).session
    ∃ k : Nat, (k : Int) < n ∧
      (∀ j < k, ∃ answer, ((ticked.after (List.replicate j .cycle)).perform .cycle).answer = .ok answer) ∧
      ((ticked.after (List.replicate k .cycle)).perform .cycle).answer = .error fault ∧
      (s.perform (.frame n)).session = { s with machine := (ticked.after (List.replicate k .cycle)).machine.refused } ∧
      (s.perform (.frame n)).lines.toList = ticked.printed (List.replicate k .cycle) := by
  intro ticked
  have hperform : s.perform (.frame n) = s.ofRun (Run.go ticked.logging n.toNat { machine := ticked.machine }) := rfl
  rw [hperform] at h ⊢
  have hfault : (Run.go ticked.logging n.toNat { machine := ticked.machine }).fault = some fault := by
    unfold Session.ofRun at h
    dsimp only at h
    split at h
    · rename_i other hother
      cases h
      exact hother
    · cases h
  obtain ⟨k, hk, hok, herror, hend, hlines⟩ := go_refused n.toNat rfl rfl hfault
  obtain ⟨hsession, -⟩ := session_of_refused herror
  refine ⟨k, by omega, hok, herror, ?_, hlines⟩
  rw [hsession] at hend
  exact congrArg s.withMachine hend

theorem frame_trapped {store : Store} {s : Session} {lines : List String} (hs : s.machine.Sound)
    (h : Mirrors store s lines) {n : Int} {trap : Trap} (htrap : (run (perform (.frame n)) store).1 = .error trap) :
    let ticked := (run tick store).2
    ∃ k : Nat, (k : Int) < n ∧
      (∀ j < k, (run cycle (ticked.after (List.replicate j .cycle))).1 = .ok ()) ∧
      (run cycle (ticked.after (List.replicate k .cycle))).1 = .error trap ∧
      (run (perform (.frame n)) store).2 = (ticked.after (List.replicate k .cycle)).refused := by
  intro ticked
  obtain ⟨htick, hmirrors⟩ := run_perform hs h .tick
  have hticked : (s.perform .tick).session.machine.Sound :=
    Machine.kept_sound.timers s.machine s.machine.timers.tick hs
  have hrun : run tick store = (.ok (), ticked) := Prod.ext htick rfl
  have hframe : run (perform (.frame n)) store = run (cyclesOf n.toNat) ticked := run_bind_of_ok hrun
  rw [hframe] at htrap ⊢
  obtain ⟨k, hk, hok, herror⟩ := cyclesOf_refused n.toNat htrap
  have hlast := congrArg Prod.fst herror
  refine ⟨k, by omega, hok, hlast, ?_⟩
  have hrefused := (mirrors_after hticked hmirrors _).refused (sound_cycles hticked k) hlast
  exact (congrArg Prod.snd herror).symm.trans hrefused

/-- A refused cycle changes the counts only, and prints nothing; a machine that cannot read an opcode is stuck; and a
frame that is refused is a tick and cycles that succeeded, and then one refused cycle. -/
theorem refused_cycle_unchanged (dialect : Dialect) (layout : Layout) (random : Wheel) (logging : Bool)
    (steps : List HostStep) :
    let s := (Session.fresh dialect layout random logging).after steps
    let store := (Store.fresh dialect layout random logging).after steps
    let ticked := (s.perform .tick).session
    let tickedStore := (run tick store).2
    Mirrors store s ((Session.fresh dialect layout random logging).printed steps) ∧
      (∀ fault, (s.perform .cycle).answer = .error fault →
        (s.perform .cycle).session = { s with machine := s.machine.refused } ∧ (s.perform .cycle).lines = #[]) ∧
      (∀ trap, (run cycle store).1 = .error trap → (run cycle store).2 = store.refused) ∧
      (∀ fault n, s.machine.fetch = .error fault →
        ((s.after (List.replicate n .cycle)).perform .cycle).answer = .error fault) ∧
      (∀ trap n, (run fetch store).1 = .error trap →
        (run cycle (store.after (List.replicate n .cycle))).1 = .error trap) ∧
      (∀ (n : Int) fault, (s.perform (.frame n)).answer = .error fault →
        ∃ k : Nat, (k : Int) < n ∧
          (∀ j < k, ∃ answer, ((ticked.after (List.replicate j .cycle)).perform .cycle).answer = .ok answer) ∧
          ((ticked.after (List.replicate k .cycle)).perform .cycle).answer = .error fault ∧
          (s.perform (.frame n)).session =
            { s with machine := (ticked.after (List.replicate k .cycle)).machine.refused } ∧
          (s.perform (.frame n)).lines.toList = ticked.printed (List.replicate k .cycle)) ∧
      ∀ (n : Int) trap, (run (perform (.frame n)) store).1 = .error trap →
        ∃ k : Nat, (k : Int) < n ∧
          (∀ j < k, (run cycle (tickedStore.after (List.replicate j .cycle))).1 = .ok ()) ∧
          (run cycle (tickedStore.after (List.replicate k .cycle))).1 = .error trap ∧
          (run (perform (.frame n)) store).2 = (tickedStore.after (List.replicate k .cycle)).refused := by
  intro s store ticked tickedStore
  obtain ⟨hsound, hmirrors⟩ := reachable dialect layout random logging steps
  refine ⟨hmirrors, ?_, ?_, ?_, ?_, ?_, ?_⟩
  · intro fault hfault
    exact session_of_refused hfault
  · intro trap htrap
    exact hmirrors.refused hsound htrap
  · intro fault n hfetch
    rw [answer_eq_error_iff]
    exact cycle_of_fetch (fetch_after_cycles hfetch n)
  · intro trap n htrap
    obtain ⟨fault, hfetch, rfl⟩ := fetch_of_trap hmirrors htrap
    rw [trap_iff (sound_cycles hsound n) (mirrors_after hsound hmirrors _)]
    exact ⟨fault, cycle_of_fetch (fetch_after_cycles hfetch n), rfl⟩
  · intro n fault hfault
    exact frame_refused hfault
  · intro n trap htrap
    exact frame_trapped hsound hmirrors htrap

/-- A jump to the last byte of memory, behind which no opcode can be read; and four registers stored where only two of
them fit, of which none gets into memory. -/
theorem refused_cycle_unchanged_past_end :
    let s := (Session.fresh Dialect.modern Layout.standard {} false).after [.load [0x1F, 0xFF], .cycle]
    let store := (Store.fresh Dialect.modern Layout.standard {} false).after [.load [0x1F, 0xFF], .cycle]
    let block : List HostStep := [.load [0x60, 0x07, 0xAF, 0xFE, 0xF3, 0x55], .cycle, .cycle]
    let stores := (Session.fresh Dialect.modern Layout.standard {} false).after block
    let cells := (Store.fresh Dialect.modern Layout.standard {} false).after block
    ((s.perform .cycle).session = { s with machine := s.machine.refused } ∧
      (run cycle store).2 = store.refused ∧
      ((s.after (List.replicate 5 .cycle)).perform .cycle).answer = .error (.memoryBounds 0xFFF 2) ∧
      (run cycle (store.after (List.replicate 5 .cycle))).1 = .error (.refused (.memoryBounds 0xFFF 2)) ∧
      (∃ k : Nat, (k : Int) < 3 ∧
        (s.perform (.frame 3)).session =
          { s with machine := ((s.perform .tick).session.after (List.replicate k .cycle)).machine.refused }) ∧
      ∃ k : Nat, (k : Int) < 3 ∧
        (run (perform (.frame 3)) store).2 = ((run tick store).2.after (List.replicate k .cycle)).refused) ∧
    (stores.perform .cycle).answer = .error (.memoryBounds 0xFFE 4) ∧
      stores.machine.v 0 = 7 ∧ stores.machine.memory.byteAt 0xFFE = 0 ∧
      (stores.perform .cycle).session.machine =
        { stores.machine with cycles := stores.machine.cycles + 1, counter := stores.machine.counter + 2 } ∧
      (run cycle cells).2 = cells.refused := by
  intro s store block stores cells
  obtain ⟨-, hcycle, hcells, hfetch, hfetchCells, hframe, hframeCells⟩ :=
    refused_cycle_unchanged Dialect.modern Layout.standard {} false [.load [0x1F, 0xFF], .cycle]
  obtain ⟨hsession, -⟩ := hcycle (.memoryBounds 0xFFF 2) (by decide +kernel)
  obtain ⟨k, hk, -, -, hend, -⟩ := hframe 3 (.memoryBounds 0xFFF 2) (by decide +kernel)
  obtain ⟨k', hk', -, -, hend'⟩ := hframeCells 3 (.refused (.memoryBounds 0xFFF 2)) (by decide +kernel)
  refine ⟨⟨hsession, hcells (.refused (.memoryBounds 0xFFF 2)) (by decide +kernel),
    hfetch (.memoryBounds 0xFFF 2) 5 (by decide +kernel),
    hfetchCells (.refused (.memoryBounds 0xFFF 2)) 5 (by decide +kernel), ⟨k, hk, hend⟩, k', hk', hend'⟩, ?_⟩
  obtain ⟨-, hblock, hblockCells, -⟩ := refused_cycle_unchanged Dialect.modern Layout.standard {} false block
  have hfault : (stores.perform .cycle).answer = .error (.memoryBounds 0xFFE 4) := by decide +kernel
  have hread : stores.machine.fetch.isOk = true := by decide +kernel
  have hsame : (stores.perform .cycle).session.machine = stores.machine.refused := by rw [(hblock _ hfault).1]
  rw [Machine.refused_of_fetch hread] at hsame
  exact ⟨hfault, by decide +kernel, by decide +kernel, hsame,
    hblockCells (.refused (.memoryBounds 0xFFE 4)) (by decide +kernel)⟩

end ChipEight
