import ChipEight.Proofs.Calls

/-!
# The cycles of a run

A host runs cycles one by one or many in a frame, with other things between them. `Machine.begun` takes a run apart
into its cycles: it lists the machines at which they begin. A frame ends at the first cycle that is refused, so that
cycle is the last one it lists.

Two runs are compared cycle by cycle. Their cycles are alike if the instructions that they read are
(`cycle_alike`). If the hosts cut the cycles in different ways, what one cycle leaves behind is still where the next one
begins, save for what the host does in between (`Linked`, `linked_begun`).

What a run keeps for a reason that its cycles have to give is proved by `Session.passes_induction`.
-/

namespace ChipEight

/-- The machines at which at most `n` cycles begin, until one is refused. -/
def Machine.begunBy (m : Machine) : Nat → List Machine
  | 0 => []
  | n + 1 =>
    m :: match m.cycle with
      | (_, .error _) => []
      | (after, .ok _) => after.begunBy n

def HostStep.begun (m : Machine) : HostStep → List Machine
  | cycle => [m]
  | frame n => m.tick.begunBy n.toNat
  | _ => []

/-- The machines at which cycles begin while a host goes through its steps. -/
def Machine.begun (m : Machine) : List HostStep → List Machine
  | [] => []
  | step :: steps => step.begun m ++ (step.effect m).begun steps

/-- The step runs cycles, or works on the timers and the keys and nothing else. -/
def HostStep.onDevices : HostStep → Bool
  | load _ | clearScreen | markShown => false
  | _ => true

namespace Machine

/-! ### What is executed -/

private theorem executedBy_eq (m : Machine) (n : Nat) : m.executedBy n = (m.begunBy n).filterMap executed? := by
  induction n generalizing m with
  | zero => rfl
  | succ n ih =>
    unfold executedBy begunBy
    rw [List.filterMap_cons]
    cases hc : m.cycle with
    | mk after result =>
      cases result with
      | error fault =>
        have hnone : m.executed? = none := by rw [executed?, hc]
        rw [hnone]
        rfl
      | ok step =>
        dsimp only
        rw [ih]
        cases m.executed? <;> rfl

private theorem executed_step_eq (m : Machine) (step : HostStep) :
    step.executed m = (step.begun m).filterMap executed? := by
  cases step with
  | cycle =>
    change m.executed?.toList = [m].filterMap executed?
    rw [List.filterMap_cons]
    cases m.executed? <;> rfl
  | frame n => exact m.tick.executedBy_eq n.toNat
  | _ => rfl

/-- The instructions of a run are those that its cycles execute. -/
theorem executed_eq (m : Machine) (steps : List HostStep) : m.executed steps = (m.begun steps).filterMap executed? := by
  induction steps generalizing m with
  | nil => rfl
  | cons step steps ih =>
    unfold executed begun
    rw [List.filterMap_append, executed_step_eq, ih]

theorem mem_executed {m begins : Machine} {steps : List HostStep} (hbegins : begins ∈ m.begun steps) {i : Instruction}
    (hi : begins.executed? = some i) : i ∈ m.executed steps := by
  rw [executed_eq]
  exact List.mem_filterMap.2 ⟨begins, hbegins, hi⟩

/-! ### Where cycles begin -/

theorem begun_append (m : Machine) (first second : List HostStep) :
    m.begun (first ++ second) = m.begun first ++ (m.after first).begun second := by
  induction first generalizing m with
  | nil => rfl
  | cons step first ih =>
    have hrest := ih (step.effect m)
    rw [List.cons_append, begun, begun, hrest, List.append_assoc]
    rfl

/-- A property that each cycle of a frame keeps holds where these cycles begin, and at the end. -/
theorem begunBy_of_cycles {P : Machine → Prop} {m : Machine} {n : Nat} (h : P m)
    (hcycle : ∀ b ∈ m.begunBy n, P b → P b.cycle.1) : (∀ b ∈ m.begunBy n, P b) ∧ P (m.cyclesOf n).1 := by
  induction n generalizing m with
  | zero => exact ⟨List.forall_mem_nil P, h⟩
  | succ n ih =>
    unfold begunBy at hcycle ⊢
    unfold cyclesOf
    have hafter := hcycle m List.mem_cons_self h
    cases hc : m.cycle with
    | mk after result =>
      rw [hc] at hcycle hafter
      cases result with
      | error fault => exact ⟨List.forall_mem_singleton.2 h, hafter⟩
      | ok step =>
        obtain ⟨hbegun, hlast⟩ := ih hafter fun b hb => hcycle b (List.mem_cons_of_mem _ hb)
        exact ⟨List.forall_mem_cons.2 ⟨h, hbegun⟩, hlast⟩

/-- So does a property that each cycle of a run keeps, and the other host steps in any case. -/
theorem begun_of_cycles {P : Machine → Prop} {m : Machine} {steps : List HostStep}
    (hstep : ∀ (m : Machine) (step : HostStep), step.runsCycles = false → P m → P (step.effect m)) (h : P m)
    (hcycle : ∀ b ∈ m.begun steps, P b → P b.cycle.1) : (∀ b ∈ m.begun steps, P b) ∧ P (m.after steps) := by
  induction steps generalizing m with
  | nil => exact ⟨List.forall_mem_nil P, h⟩
  | cons step steps ih =>
    have hhere : ∀ b ∈ step.begun m, P b → P b.cycle.1 := fun b hb => hcycle b (List.mem_append_left _ hb)
    have hfirst : (∀ b ∈ step.begun m, P b) ∧ P (step.effect m) := by
      cases step with
      | cycle => exact ⟨List.forall_mem_singleton.2 h, hhere m List.mem_cons_self h⟩
      | frame n => exact begunBy_of_cycles (hstep m .tick rfl h) hhere
      | _ => exact ⟨List.forall_mem_nil P, hstep m _ rfl h⟩
    obtain ⟨hbegun, hlast⟩ := ih hfirst.2 fun b hb => hcycle b (List.mem_append_right _ hb)
    exact ⟨List.forall_mem_append.2 ⟨hfirst.1, hbegun⟩, hlast⟩

theorem begunBy_induction {P : Machine → Prop} (hcycle : ∀ m : Machine, P m → P m.cycle.1) {m : Machine}
    (h : P m) (n : Nat) : ∀ b ∈ m.begunBy n, P b :=
  (begunBy_of_cycles h fun b _ hb => hcycle b hb).1

theorem begunBy_one (m : Machine) : m.begunBy 1 = [m] := by
  unfold begunBy
  cases hc : m.cycle with
  | mk after result => cases result <;> rfl

/-- A property that host steps keep holds where cycles begin. -/
theorem begun_induction {P : Machine → Prop} (kept : Kept P) {m : Machine} (h : P m) (steps : List HostStep) :
    ∀ b ∈ m.begun steps, P b :=
  (begun_of_cycles (P := P) (fun _ step _ hm => kept.effect hm step) h fun b _ hb => kept.cycle b hb).1

/-- A property that cycles and ticks keep holds where the cycles of a host begin that does nothing else. -/
theorem begun_induction_of {P : Machine → Prop} (hcycle : ∀ m : Machine, P m → P m.cycle.1)
    (htick : ∀ m : Machine, P m → P m.tick) {m : Machine} (h : P m) {steps : List HostStep}
    (hsteps : ∀ step ∈ steps, step.runsCycles = true) : ∀ b ∈ m.begun steps, P b := by
  induction steps generalizing m with
  | nil => exact List.forall_mem_nil P
  | cons step steps ih =>
    rw [List.forall_mem_cons] at hsteps
    cases step with
    | cycle => exact List.forall_mem_cons.2 ⟨h, ih (hcycle m h) hsteps.2⟩
    | frame n =>
      refine List.forall_mem_append.2 ⟨begunBy_induction hcycle (htick m h) n.toNat, ?_⟩
      exact ih (cyclesOf_induction hcycle (htick m h) n.toNat) hsteps.2
    | _ => cases hsteps.1

/-- At most `n` cycles are some cycles one by one: `n` of them, or less if the last one is refused. -/
theorem cyclesOf_eq_after (m : Machine) (n : Nat) :
    ∃ k ≤ n, (m.cyclesOf n).1 = m.after (List.replicate k .cycle) ∧ m.begunBy n = m.begun (List.replicate k .cycle) ∧
      (∀ j, j + 1 < k → ∃ step, (m.after (List.replicate j .cycle)).cycle.2 = .ok step) ∧
      (k = n ∨ ∃ j fault, k = j + 1 ∧ (m.after (List.replicate j .cycle)).cycle.2 = .error fault) := by
  induction n generalizing m with
  | zero => exact ⟨0, Nat.le_refl 0, rfl, rfl, fun j hj => absurd hj (Nat.not_lt_zero _), .inl rfl⟩
  | succ n ih =>
    unfold cyclesOf begunBy
    cases hc : m.cycle with
    | mk after result =>
      have hafter : HostStep.effect m .cycle = after := congrArg Prod.fst hc
      cases result with
      | error fault =>
        refine ⟨1, Nat.le_add_left 1 n, hafter.symm, rfl, fun j hj => ?_, .inr ⟨0, fault, rfl, congrArg Prod.snd hc⟩⟩
        omega
      | ok step =>
        obtain ⟨k, hk, hend, hbegun, hok, hlast⟩ := ih after
        rw [← hafter] at hend hbegun hok hlast
        refine ⟨k + 1, Nat.succ_le_succ hk, ?_, ?_, ?_, ?_⟩
        · rw [← hafter]
          exact hend
        · rw [← hafter]
          exact congrArg (m :: ·) hbegun
        · intro j hj
          cases j with
          | zero => exact ⟨step, congrArg Prod.snd hc⟩
          | succ j => exact hok j (Nat.lt_of_succ_lt_succ hj)
        · rcases hlast with rfl | ⟨j, fault, rfl, hfault⟩
          · exact .inl rfl
          · exact .inr ⟨j + 1, fault, rfl, hfault⟩

/-! ### Cycles alike -/

/-- A cycle executes the instruction that it reads if that is not refused. -/
theorem executed?_of_reads {m after : Machine} {i : Instruction} (hreads : m.Reads i.word) (hproper : i.Proper)
    (hexecute : m.count.pass.execute i = .ok after) : m.executed? = some i := by
  rw [executed?, cycle_of_reads hreads hproper, hexecute]

/-- Cycles that read the same opcode come to the same, in what is seen of the machines, if the instruction does. -/
theorem cycle_alike {α : Type} (seen : Machine → α) {m m' : Machine} (hfetch : m.fetch = m'.fetch)
    (hcount : seen m.count = seen m'.count) (hpass : seen m.count.pass = seen m'.count.pass)
    (hexecute : ∀ i : Instruction, m.Reads i.word → i.Proper →
      (m.count.pass.execute i).map seen = (m'.count.pass.execute i).map seen) :
    m.cycle.2 = m'.cycle.2 ∧ seen m.cycle.1 = seen m'.cycle.1 := by
  unfold cycle
  rw [← hfetch]
  cases hop : m.fetch with
  | error fault => exact ⟨rfl, hcount⟩
  | ok op =>
    obtain ⟨w, hreads, rfl⟩ := reads_of_fetch hop
    dsimp only
    cases hdecode : Instruction.decode? (Opcode.mk w) with
    | none => exact ⟨rfl, hpass⟩
    | some i =>
      rw [Instruction.word_of_decode? hreads.lt hdecode] at hreads
      have hi := hexecute i hreads (Instruction.proper_of_decode? hdecode)
      dsimp only
      cases he : m.count.pass.execute i with
      | error fault =>
        cases he' : m'.count.pass.execute i with
        | error fault' =>
          rw [he, he'] at hi
          exact ⟨congrArg Except.error (Except.error.inj hi), hpass⟩
        | ok after' =>
          rw [he, he'] at hi
          cases hi
      | ok after =>
        cases he' : m'.count.pass.execute i with
        | error fault' =>
          rw [he, he'] at hi
          cases hi
        | ok after' =>
          rw [he, he'] at hi
          exact ⟨rfl, Except.ok.inj hi⟩

/-! ### From one cycle to the next -/

/-- The second machine is the first one with other keys and timers. -/
def SameButDevices (m m' : Machine) : Prop := ∃ keypad timers, m' = { m with keypad := keypad, timers := timers }

theorem SameButDevices.refl (m : Machine) : m.SameButDevices m := ⟨m.keypad, m.timers, rfl⟩

theorem SameButDevices.trans {m m' m'' : Machine} (h : m.SameButDevices m') (h' : m'.SameButDevices m'') :
    m.SameButDevices m'' := by
  obtain ⟨keypad, timers, rfl⟩ := h
  obtain ⟨keypad', timers', rfl⟩ := h'
  exact ⟨keypad', timers', rfl⟩

/-- The cycles of a run from `m` to `last`: but for keys and timers, each one begins where the one before it ended. -/
def Linked (m : Machine) : List Machine → Machine → Prop
  | [], last => m.SameButDevices last
  | begins :: rest, last => m.SameButDevices begins ∧ begins.cycle.1.Linked rest last

theorem SameButDevices.linked {m m' last : Machine} {begun : List Machine} (h : m.SameButDevices m')
    (hlinked : m'.Linked begun last) : m.Linked begun last := by
  cases begun with
  | nil => exact h.trans hlinked
  | cons begins rest => exact ⟨h.trans hlinked.1, hlinked.2⟩

theorem Linked.append {m middle last : Machine} {first second : List Machine} (h : m.Linked first middle)
    (h' : middle.Linked second last) : m.Linked (first ++ second) last := by
  induction first generalizing m with
  | nil => exact h.linked h'
  | cons begins rest ih => exact ⟨h.1, ih h.2⟩

private theorem linked_begunBy (m : Machine) (n : Nat) : m.Linked (m.begunBy n) (m.cyclesOf n).1 := by
  induction n generalizing m with
  | zero => exact .refl m
  | succ n ih =>
    unfold begunBy cyclesOf
    refine ⟨.refl m, ?_⟩
    cases hc : m.cycle with
    | mk after result =>
      cases result with
      | error fault => exact .refl after
      | ok step => exact ih after

private theorem linked_step (m : Machine) {step : HostStep} (hstep : step.onDevices = true) :
    m.Linked (step.begun m) (step.effect m) := by
  cases step with
  | load rom | clearScreen | markShown => cases hstep
  | cycle => exact ⟨.refl m, .refl m.cycle.1⟩
  | frame n => exact SameButDevices.linked ⟨m.keypad, m.timers.tick, rfl⟩ (m.tick.linked_begunBy n.toNat)
  | _ => exact ⟨_, _, rfl⟩

theorem linked_begun (m : Machine) {steps : List HostStep} (hsteps : ∀ step ∈ steps, step.onDevices = true) :
    m.Linked (m.begun steps) (m.after steps) := by
  induction steps generalizing m with
  | nil => exact .refl m
  | cons step steps ih =>
    rw [List.forall_mem_cons] at hsteps
    exact (m.linked_step hsteps.1).append (ih (step.effect m) hsteps.2)

end Machine

/-! ### The points of a run -/

/-- The run comes past this machine: between two steps of the host, or before or after a cycle. -/
def Session.Passes (s : Session) (steps : List HostStep) (point : Machine) : Prop :=
  (∃ earlier, earlier <+: steps ∧ point = (s.after earlier).machine) ∨
    ∃ b ∈ s.machine.begun steps, point = b ∨ point = b.cycle.1

/-- A property that each cycle of a run keeps, and the other host steps in any case, holds all along the run. -/
theorem Session.passes_induction {P : Machine → Prop} {s : Session} {steps : List HostStep}
    (hstep : ∀ (m : Machine) (step : HostStep), step.runsCycles = false → P m → P (step.effect m)) (h : P s.machine)
    (hcycle : ∀ b ∈ s.machine.begun steps, P b → P b.cycle.1) {point : Machine} (hpoint : s.Passes steps point) :
    P point := by
  rcases hpoint with ⟨earlier, ⟨later, rfl⟩, rfl⟩ | ⟨b, hb, hpoint⟩
  · rw [Machine.begun_append] at hcycle
    rw [machine_after]
    exact (Machine.begun_of_cycles hstep h fun b hb => hcycle b (List.mem_append_left _ hb)).2
  · have hbegins : P b := (Machine.begun_of_cycles hstep h hcycle).1 b hb
    rcases hpoint with rfl | rfl
    · exact hbegins
    · exact hcycle b hb hbegins

end ChipEight
