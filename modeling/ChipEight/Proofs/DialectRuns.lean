import ChipEight.Proofs.Footprints
import ChipEight.Proofs.RunCycles

/-!
# Machines of two dialects

Two dialects differ in the instructions that read one of their switches, and of these only where the switch makes a
difference: a shift of a register by itself or a jump with an offset below 0x100 is the same in all dialects
(`Instruction.tellsApart`). A machine of another dialect executes every other instruction, and reports it, as the
machine itself does (`Machine.execute_withDialect`, `Machine.line?_withDialect`), and so it goes cycle by cycle and
command by command through a run in which no instruction tells the dialects apart (`dialects_in_lockstep`).
-/

namespace ChipEight

/-- The instructions that the two dialects read differently. -/
def Instruction.tellsApart (d d' : Dialect) : Instruction → Bool
  | shiftRight x y | shiftLeft x y => x ≠ y && d.shiftReadsY ≠ d'.shiftReadsY
  | jumpOffset _ nnn => nnn.val / 256 ≠ 0 && d.jumpAddsX ≠ d'.jumpAddsX
  | addToIndex _ => d.indexSetsFlag ≠ d'.indexSetsFlag
  | storeRegisters _ | loadRegisters _ => d.blockMovesIndex ≠ d'.blockMovesIndex
  | _ => false

namespace Machine

/-- The machine with another dialect. -/
def withDialect (d : Dialect) (m : Machine) : Machine := { m with dialect := d }

variable {m : Machine} {d : Dialect}

private theorem eq_of_decide_ne {α : Type} [DecidableEq α] {a b : α} (h : decide (a ≠ b) = false) : a = b :=
  not_ne_iff.1 (of_decide_eq_false h)

private theorem withDialect_of_eq (h : m.dialect = d) : m.withDialect d = m := by
  subst h
  rfl

/-! ### Instructions -/

private theorem shiftSource_withDialect {x y : Fin 16} (h : x = y ∨ m.dialect.shiftReadsY = d.shiftReadsY) :
    (m.withDialect d).shiftSource x y = m.shiftSource x y := by
  unfold shiftSource
  rcases h with rfl | h
  · rw [ite_self, ite_self]
    rfl
  · change (if d.shiftReadsY then m.v y else m.v x) = _
    rw [h]

private theorem offsetRegister_withDialect {x : Fin 16} {nnn : Fin 4096}
    (hproper : (Instruction.jumpOffset x nnn).Proper)
    (h : (Instruction.jumpOffset x nnn).tellsApart m.dialect d = false) :
    (m.withDialect d).offsetRegister x = m.offsetRegister x := by
  unfold offsetRegister
  rcases Bool.and_eq_false_iff.1 h with htop | hflag
  · -- then the operand has no top digit, and both dialects add V0
    have hbase : x = Registers.base := Fin.ext (Eq.trans hproper (eq_of_decide_ne htop))
    rw [hbase, ite_self, ite_self]
  · change (if d.jumpAddsX then x else Registers.base) = _
    rw [eq_of_decide_ne hflag]

private theorem passBlock_withDialect (h : m.dialect.blockMovesIndex = d.blockMovesIndex) (x : Fin 16) :
    (m.withDialect d).passBlock x = (m.passBlock x).withDialect d := by
  unfold passBlock
  change (if d.blockMovesIndex then _ else _ : Machine) = _
  rw [h]
  split <;> rfl

private theorem skipIf_withDialect (m : Machine) (d : Dialect) (condition : Bool) :
    (m.withDialect d).skipIf condition = (m.skipIf condition).withDialect d := by
  unfold skipIf
  split <;> rfl

private theorem awaitKey_withDialect (m : Machine) (d : Dialect) (x : Fin 16) :
    (m.withDialect d).awaitKey x = (m.awaitKey x).withDialect d := by
  cases hwaiting : m.waiting with
  | none => simp only [awaitKey, withDialect, hwaiting]
  | some y =>
    cases hpending : m.keypad.pending with
    | none => simp only [awaitKey, withDialect, hwaiting, hpending]
    | some key =>
      simp only [awaitKey, withDialect, hwaiting, hpending]
      rfl

private theorem map_withDialect {α : Type} {r : Except Fault α} {f g : α → Machine}
    (h : ∀ a, r = .ok a → f a = (g a).withDialect d) : r.map f = (r.map g).map (withDialect d) := by
  cases r with
  | error fault => rfl
  | ok a => exact congrArg Except.ok (h a rfl)

/-- An instruction that is refused is refused in all dialects, and one that is executed does the same in both unless
it tells them apart. -/
theorem execute_withDialect {i : Instruction} (hproper : i.Proper)
    (h : ∀ after, m.execute i = .ok after → i.tellsApart m.dialect d = false) :
    (m.withDialect d).execute i = (m.execute i).map (withDialect d) := by
  cases i with
  | ret | call nnn | draw x y n | storeDecimal x => exact map_withDialect fun _ _ => rfl
  | skipIfByte x nn | skipUnlessByte x nn => exact congrArg Except.ok (m.skipIf_withDialect d _)
  | skipIfSame x y | skipUnlessSame x y => exact congrArg Except.ok (m.skipIf_withDialect d _)
  | skipIfKey x | skipUnlessKey x => exact congrArg Except.ok (m.skipIf_withDialect d _)
  | waitForKey x => exact congrArg Except.ok (m.awaitKey_withDialect d x)
  | shiftRight x y | shiftLeft x y =>
    have hsource : x = y ∨ m.dialect.shiftReadsY = d.shiftReadsY :=
      (Bool.and_eq_false_iff.1 (h _ rfl)).imp eq_of_decide_ne eq_of_decide_ne
    simp only [execute, shiftSource_withDialect hsource]
    rfl
  | jumpOffset x nnn =>
    simp only [execute, offsetRegister_withDialect hproper (h _ rfl)]
    rfl
  | addToIndex x =>
    have hflag : m.dialect.indexSetsFlag = d.indexSetsFlag := eq_of_decide_ne (h _ rfl)
    simp only [execute, withDialect, ← hflag]
    split <;> rfl
  | storeRegisters x =>
    refine map_withDialect fun memory (hstore : m.memory.store m.index (Registers.first m.registers (x + 1)) = _) => ?_
    have hexecute : m.execute (.storeRegisters x) = .ok ({ m with memory := memory }.passBlock x) := by
      simp only [execute, hstore, Except.map]
    exact @passBlock_withDialect { m with memory := memory } d (eq_of_decide_ne (h _ hexecute)) x
  | loadRegisters x =>
    refine map_withDialect fun values (hread : m.memory.read m.index (x + 1) = _) => ?_
    have hexecute : m.execute (.loadRegisters x) =
        .ok ({ m with registers := Registers.replaceFirst m.registers values }.passBlock x) := by
      simp only [execute, hread, Except.map]
    exact @passBlock_withDialect { m with registers := Registers.replaceFirst m.registers values } d
      (eq_of_decide_ne (h _ hexecute)) x
  | _ => rfl

/-- The trace of an instruction is the same in both dialects unless it tells them apart. -/
theorem line?_withDialect (after : Machine) {i : Instruction} (hproper : i.Proper)
    (h : i.tellsApart m.dialect d = false) :
    Trace.line? (m.withDialect d) (after.withDialect d) i = Trace.line? m after i := by
  cases i with
  | jumpOffset x nnn =>
    simp only [Trace.line?, offsetRegister_withDialect hproper h]
    rfl
  | _ => rfl

/-! ### Cycles -/

theorem kept_dialect (d : Dialect) : Kept (·.dialect = d) where
  load _ _ h := h
  cycle m h := m.lasting_cycle.2.2.2.trans h
  timers _ _ h := h
  press _ _ h := h
  release _ _ h := h
  take _ h := h
  reset _ h := h
  screen _ _ h := h

/-- The next cycle executes no instruction that tells the two dialects apart. -/
def Indifferent (d : Dialect) (m : Machine) : Prop := ∀ i, m.executed? = some i → i.tellsApart m.dialect d = false

theorem cycle_withDialect (h : m.Indifferent d) : (m.withDialect d).cycle = (m.cycle.1.withDialect d, m.cycle.2) := by
  obtain ⟨-, -, -, hdialect⟩ := (m.withDialect d).lasting_cycle
  have hkeeps : (m.withDialect d).cycle.1.withDialect d = (m.withDialect d).cycle.1 := withDialect_of_eq hdialect
  have hsame (i : Instruction) (hreads : m.Reads i.word) (hproper : i.Proper) :
      (m.count.pass.execute i).map (withDialect d) = ((m.withDialect d).count.pass.execute i).map (withDialect d) := by
    have hexecute : (m.count.pass.withDialect d).execute i = (m.count.pass.execute i).map (withDialect d) :=
      execute_withDialect hproper fun after he => h i (executed?_of_reads hreads hproper he)
    change _ = Except.map (withDialect d) ((m.count.pass.withDialect d).execute i)
    rw [hexecute]
    cases m.count.pass.execute i <;> rfl
  obtain ⟨hresult, hafter⟩ := @cycle_alike _ (withDialect d) m (m.withDialect d) rfl rfl rfl hsame
  rw [hafter, hkeeps, hresult]

theorem cycleLines_withDialect (h : m.Indifferent d) (logging : Bool) :
    Run.cycleLines logging (m.withDialect d) (m.cycle.1.withDialect d) m.cycle.2 =
      Run.cycleLines logging m m.cycle.1 m.cycle.2 := by
  cases hc : m.cycle.2 with
  | error fault => rfl
  | ok step =>
    cases step with
    | unknown op => rfl
    | known i =>
      have hexecuted : m.executed? = some i := by rw [executed?, hc]
      simp only [Run.cycleLines, line?_withDialect _ (execute_of_cycle hc).2.1 (h i hexecuted)]

private theorem begunBy_withDialect {n : Nat} (h : ∀ b ∈ m.begunBy n, b.Indifferent d) :
    (m.withDialect d).begunBy n = (m.begunBy n).map (withDialect d) := by
  induction n generalizing m with
  | zero => rfl
  | succ n ih =>
    unfold begunBy at h ⊢
    obtain ⟨hfirst, hrest⟩ := List.forall_mem_cons.1 h
    rw [cycle_withDialect hfirst]
    cases hc : m.cycle with
    | mk after result =>
      rw [hc] at hrest
      cases result with
      | error fault => rfl
      | ok step => exact congrArg (m.withDialect d :: ·) (ih hrest)

end Machine

/-! ### Runs -/

def Run.withDialect (d : Dialect) (q : Run) : Run := { q with machine := q.machine.withDialect d }

def Session.withDialect (d : Dialect) (s : Session) : Session := s.withMachine (s.machine.withDialect d)

def Reply.withDialect (d : Dialect) (reply : Reply) : Reply := { reply with session := reply.session.withDialect d }

variable {d : Dialect}

private theorem go_withDialect (logging : Bool) {n : Nat} {q : Run} (hq : q.fault = none)
    (h : ∀ b ∈ q.machine.begunBy n, b.Indifferent d) :
    Run.go logging n (q.withDialect d) = (Run.go logging n q).withDialect d := by
  induction n generalizing q with
  | zero => rfl
  | succ n ih =>
    unfold Machine.begunBy at h
    obtain ⟨hfirst, hrest⟩ := List.forall_mem_cons.1 h
    have hcycle := Machine.cycle_withDialect hfirst
    have hlines := Machine.cycleLines_withDialect hfirst logging
    cases hc : q.machine.cycle with
    | mk after result =>
      rw [hc] at hcycle hlines hrest
      dsimp only at hcycle hlines hrest
      cases result with
      | error fault =>
        rw [Run.go_succ_of_error logging n hq hc, @Run.go_succ_of_error logging n (q.withDialect d) hq _ _ hcycle]
        rfl
      | ok step =>
        rw [Run.go_succ_of_ok logging n hq hc, @Run.go_succ_of_ok logging n (q.withDialect d) hq _ _ hcycle]
        have hprinted : Run.cycleLines logging (q.withDialect d).machine (after.withDialect d) (.ok step) =
            Run.cycleLines logging q.machine after (.ok step) := hlines
        rw [hprinted]
        exact @ih { machine := after, lines := q.lines ++ Run.cycleLines logging q.machine after (.ok step) } rfl hrest

private theorem ofRun_withDialect {s : Session} {m : Machine} {n : Int}
    (h : ∀ b ∈ m.begunBy n.toNat, b.Indifferent d) :
    (s.withDialect d).ofRun ((m.withDialect d).run s.logging n) = (s.ofRun (m.run s.logging n)).withDialect d := by
  have hrun : (m.withDialect d).run s.logging n = (m.run s.logging n).withDialect d :=
    @go_withDialect d s.logging n.toNat { machine := m } rfl h
  rw [hrun]
  rfl

/-- A command whose cycles do not tell the dialects apart does the same in both, prints the same and answers the
same. -/
theorem perform_withDialect {s : Session} {step : HostStep} (h : ∀ b ∈ step.begun s.machine, b.Indifferent d) :
    (s.withDialect d).perform step.command = (s.perform step.command).withDialect d := by
  cases step with
  | load rom =>
    have hload : (s.withDialect d).machine.loadRom rom = (s.machine.loadRom rom).map (Machine.withDialect d) := by
      unfold Machine.loadRom
      change (s.machine.memory.loadRom rom).map _ = _
      cases s.machine.memory.loadRom rom <;> rfl
    change (s.withDialect d).load rom = (s.load rom).withDialect d
    simp only [Session.load, hload]
    cases s.machine.loadRom rom <;> rfl
  | cycle =>
    have hone : ∀ b ∈ s.machine.begunBy 1, b.Indifferent d := by
      rw [s.machine.begunBy_one]
      exact h
    exact @ofRun_withDialect d s s.machine 1 hone
  | frame n => exact @ofRun_withDialect d s s.machine.tick n h
  | press key =>
    simp only [HostStep.command, Session.perform, Session.withDialect, Session.withMachine, Machine.withDialect,
      Keypad.press_val]
    rfl
  | release key =>
    simp only [HostStep.command, Session.perform, Session.withDialect, Session.withMachine, Machine.withDialect,
      Keypad.release_val]
    rfl
  | _ => rfl

private theorem begun_step_withDialect {m : Machine} {step : HostStep} (h : ∀ b ∈ step.begun m, b.Indifferent d) :
    step.begun (m.withDialect d) = (step.begun m).map (Machine.withDialect d) := by
  cases step with
  | frame n => exact @Machine.begunBy_withDialect m.tick d n.toNat h
  | _ => rfl

private theorem effect_withDialect {s : Session} {step : HostStep}
    (h : ∀ b ∈ step.begun s.machine, b.Indifferent d) :
    step.effect (s.machine.withDialect d) = (step.effect s.machine).withDialect d := by
  rw [← machine_perform s step]
  exact (machine_perform (s.withDialect d) step).symm.trans (congrArg (·.session.machine) (perform_withDialect h))

private theorem replies_withDialect {s : Session} {steps : List HostStep}
    (h : ∀ b ∈ s.machine.begun steps, b.Indifferent d) :
    (s.withDialect d).replies steps = (s.replies steps).map (Reply.withDialect d) ∧
      (s.withDialect d).after steps = (s.after steps).withDialect d := by
  induction steps generalizing s with
  | nil => exact ⟨rfl, rfl⟩
  | cons step steps ih =>
    obtain ⟨hstep, hrest⟩ := List.forall_mem_append.1 h
    rw [← machine_perform] at hrest
    obtain ⟨hreplies, hafter⟩ := ih hrest
    have hfirst := perform_withDialect hstep
    constructor
    · unfold Session.replies
      rw [hfirst]
      exact congrArg (_ :: ·) hreplies
    · unfold Session.after at hafter ⊢
      rw [List.foldl_cons, List.foldl_cons, hfirst]
      exact hafter

private theorem begun_withDialect {s : Session} {steps : List HostStep}
    (h : ∀ b ∈ s.machine.begun steps, b.Indifferent d) :
    (s.machine.withDialect d).begun steps = (s.machine.begun steps).map (Machine.withDialect d) := by
  induction steps generalizing s with
  | nil => rfl
  | cons step steps ih =>
    obtain ⟨hstep, hrest⟩ := List.forall_mem_append.1 h
    unfold Machine.begun
    rw [List.map_append, begun_step_withDialect hstep, effect_withDialect hstep]
    rw [← machine_perform] at hrest ⊢
    rw [ih hrest]

/-- Two machines that are the same but for their dialects, under the same host: as long as no executed instruction
tells the dialects apart, every command and every cycle does the same to both, prints the same and ends the same. -/
theorem dialects_in_lockstep (s : Session) (d : Dialect) (steps : List HostStep)
    (h : ∀ i ∈ s.machine.executed steps, i.tellsApart s.machine.dialect d = false) :
    (s.withDialect d).replies steps = (s.replies steps).map (Reply.withDialect d) ∧
      (s.withDialect d).after steps = (s.after steps).withDialect d ∧
      (s.withDialect d).printed steps = s.printed steps ∧
      (s.machine.withDialect d).begun steps = (s.machine.begun steps).map (Machine.withDialect d) ∧
      ∀ b ∈ s.machine.begun steps, (b.withDialect d).cycle = (b.cycle.1.withDialect d, b.cycle.2) ∧
        ∀ logging, Run.cycleLines logging (b.withDialect d) (b.withDialect d).cycle.1 (b.withDialect d).cycle.2 =
          Run.cycleLines logging b b.cycle.1 b.cycle.2 := by
  have hdialect := Machine.begun_induction (Machine.kept_dialect s.machine.dialect) rfl steps
  have hindifferent : ∀ b ∈ s.machine.begun steps, b.Indifferent d := by
    intro b hb i hi
    rw [hdialect b hb]
    exact h i (Machine.mem_executed hb hi)
  obtain ⟨hreplies, hafter⟩ := replies_withDialect hindifferent
  refine ⟨hreplies, hafter, ?_, begun_withDialect hindifferent, ?_⟩
  · rw [Session.printed_eq_replies, Session.printed_eq_replies, hreplies, List.flatMap_map]
    rfl
  · intro b hb
    have hcycle := Machine.cycle_withDialect (hindifferent b hb)
    refine ⟨hcycle, fun logging => ?_⟩
    rw [hcycle]
    exact Machine.cycleLines_withDialect (hindifferent b hb) logging

/-- The two usual dialects on a shift of a register by itself, a block that does not fit into memory, and a jump with
an offset below 0x100. -/
theorem dialects_in_lockstep_usual :
    let rom : List UInt8 := [0x83, 0x36, 0xAF, 0xFF, 0xF1, 0x55, 0xB0, 0x50]
    let s := (Session.fresh Dialect.modern Layout.standard {} true).after [.load rom]
    let steps : List HostStep := [.frame 3, .cycle, .press 4, .cycle]
    (∀ i ∈ s.machine.executed steps, i.tellsApart s.machine.dialect Dialect.vip = false) ∧
      s.machine.executed steps = [.shiftRight 3 3, .setIndex 0xFFF, .jumpOffset 0 0x50] ∧
      (s.withDialect Dialect.vip).printed steps = s.printed steps ∧
      (s.withDialect Dialect.vip).after steps = (s.after steps).withDialect Dialect.vip := by
  intro rom s steps
  have h : ∀ i ∈ s.machine.executed steps, i.tellsApart s.machine.dialect Dialect.vip = false := by decide +kernel
  obtain ⟨-, hafter, hprinted, -⟩ := dialects_in_lockstep s Dialect.vip steps h
  exact ⟨h, by decide +kernel, hprinted, hafter⟩

end ChipEight
