import ChipEight.Proofs.Footprints
import ChipEight.Proofs.OpcodeText
import ChipEight.Proofs.RunCycles
import Mathlib.Data.List.Flatten

/-!
# Tracing

Turning tracing on and off changes nothing but what is printed. Two hosts that do the same, but for when they turn
tracing on and off, have the same machine after every step and the same answers and faults, although a machine on bare
cells puts the line of every instruction together whether it is printed or not (`tracing_only_prints`).

What a run prints is put together from its cycles. `Session.begun` takes it apart, as `Machine.begun` does with the
machine, and `Session.cycleLines` are the lines of one cycle: an unknown opcode is always reported; a known instruction
has exactly one line while tracing is on, unless it is a skip that does not take place.
-/

namespace ChipEight

/-! ### The lines of one cycle -/

/-- The skips. -/
def Instruction.isSkip : Instruction → Bool
  | skipIfByte .. | skipUnlessByte .. | skipIfSame .. | skipUnlessSame .. | skipIfKey _ | skipUnlessKey _ => true
  | _ => false

/-- The unknown opcode that the next cycle comes upon. -/
def Machine.unknown? (m : Machine) : Option Opcode :=
  match m.cycle.2 with
  | .ok (.unknown op) => some op
  | _ => none

/-- The report of an unknown opcode. -/
def Opcode.report (op : Opcode) : String := "Unknown opcode: " ++ op.text

/-- The reports of the unknown opcodes that a run comes upon, in their order. -/
def Machine.reports (m : Machine) (steps : List HostStep) : List String :=
  ((m.begun steps).filterMap Machine.unknown?).map Opcode.report

/-- The next cycle is refused, or executes a skip that does not take place. -/
def Machine.Quiet (m : Machine) : Prop :=
  (∃ fault, m.cycle.2 = .error fault) ∨
    ∃ i, m.cycle.2 = .ok (.known i) ∧ i.isSkip = true ∧ m.cycle.1.counter = m.counter + 2

/-- The lines that the next cycle prints. -/
def Session.cycleLines (s : Session) : List String :=
  Run.cycleLines s.logging s.machine s.machine.cycle.1 s.machine.cycle.2

/-- The sessions at which cycles begin while a host goes through its steps. -/
def Session.begun (s : Session) : List HostStep → List Session
  | [] => []
  | step :: steps => (step.begun s.machine).map s.withMachine ++ (s.perform step.command).session.begun steps

/-- The steps that do not turn tracing on or off. -/
def HostStep.untraced (steps : List HostStep) : List HostStep := steps.filter (· ≠ toggleLogging)

theorem Opcode.report_mk {w : Nat} (hw : w < 65536) :
    (mk w).report =
      "Unknown opcode: " ++ String.ofList ([(mk w).family, (mk w).x, (mk w).y, (mk w).n].map Text.digitChar) :=
  congrArg ("Unknown opcode: " ++ ·) (text_mk hw)

namespace Machine

theorem unknown?_eq_some_iff (m : Machine) (op : Opcode) :
    m.unknown? = some op ↔ ∃ w : Nat, op = ⟨w⟩ ∧ m.Reads w ∧ Instruction.Unassigned w := by
  rw [← m.cycle_eq_unknown_iff op]
  unfold unknown?
  constructor
  · intro h
    split at h
    · next hc => rw [hc, Option.some.inj h]
    · cases h
  · intro h
    rw [h]

private theorem eq_skipIf_of_isSkip {m after : Machine} {i : Instruction} (hi : i.isSkip = true)
    (h : m.execute i = .ok after) : ∃ condition, after = m.skipIf condition := by
  cases i with
  | skipIfByte x nn | skipUnlessByte x nn =>
    cases h
    exact ⟨_, rfl⟩
  | skipIfSame x y | skipUnlessSame x y =>
    cases h
    exact ⟨_, rfl⟩
  | skipIfKey x | skipUnlessKey x =>
    cases h
    exact ⟨_, rfl⟩
  | _ => cases hi

/-- Only a skip can be without a line, and is if it does not take place. -/
private theorem line?_eq_none_iff (before after : Machine) (i : Instruction) :
    Trace.line? before after i = none ↔ i.isSkip = true ∧ after.counter ≠ before.counter + 4 := by
  have hskip (condition : String) :
      Trace.skipLine before after condition = none ↔ true = true ∧ after.counter ≠ before.counter + 4 := by
    unfold Trace.skipLine
    split
    · next h => simp [h]
    · next h => simp [h]
  cases i with
  | skipIfByte x nn | skipUnlessByte x nn => exact hskip _
  | skipIfSame x y | skipUnlessSame x y => exact hskip _
  | skipIfKey x | skipUnlessKey x => exact hskip _
  | _ =>
    constructor
    · intro h
      cases h
    · rintro ⟨h, -⟩
      cases h

theorem line?_cycle_eq_none_iff {m : Machine} {i : Instruction} (h : m.cycle.2 = .ok (.known i)) :
    Trace.line? m m.cycle.1 i = none ↔ i.isSkip = true ∧ m.cycle.1.counter = m.counter + 2 := by
  rw [line?_eq_none_iff]
  refine and_congr_right fun hi => ?_
  obtain ⟨condition, hskip⟩ := eq_skipIf_of_isSkip hi (execute_of_cycle h).2.2
  rw [hskip, counter_pass_skipIf]
  split <;> omega

end Machine

namespace Session

/-- While tracing is off, a cycle prints the report of an unknown opcode and nothing else. -/
theorem cycleLines_of_off {s : Session} (h : s.logging = false) :
    s.cycleLines = s.machine.unknown?.toList.map Opcode.report := by
  unfold cycleLines Machine.unknown?
  rw [h]
  cases s.machine.cycle.2 with
  | error fault => rfl
  | ok step => cases step <;> rfl

/-- While tracing is on, a cycle prints one line unless it is quiet. -/
theorem cycleLines_of_on {s : Session} (h : s.logging = true) :
    (s.machine.Quiet → s.cycleLines = []) ∧ (¬ s.machine.Quiet → ∃ line, s.cycleLines = [line]) := by
  unfold cycleLines Machine.Quiet
  rw [h]
  cases hc : s.machine.cycle.2 with
  | error fault => exact ⟨fun _ => rfl, fun hquiet => absurd (.inl ⟨fault, rfl⟩) hquiet⟩
  | ok step =>
    cases step with
    | unknown op =>
      refine ⟨?_, fun _ => ⟨_, rfl⟩⟩
      rintro (⟨fault, hfault⟩ | ⟨i, hi, -⟩)
      · cases hfault
      · cases hi
    | known i =>
      have hquiet := Machine.line?_cycle_eq_none_iff hc
      constructor
      · rintro (⟨fault, hfault⟩ | ⟨j, hj, hskip⟩)
        · cases hfault
        · cases hj
          simp only [Run.cycleLines, if_true, hquiet.2 hskip, Option.toList_none]
      · intro hspeaks
        cases hline : Trace.line? s.machine s.machine.cycle.1 i with
        | none => exact absurd (.inr ⟨i, rfl, hquiet.1 hline⟩) hspeaks
        | some line =>
          refine ⟨line, ?_⟩
          simp only [Run.cycleLines, if_true, hline, Option.toList_some]

/-- Whether tracing is on or off, an unknown opcode is reported. -/
theorem report_sublist (s : Session) : (s.machine.unknown?.toList.map Opcode.report).Sublist s.cycleLines := by
  unfold cycleLines Machine.unknown?
  cases s.machine.cycle.2 with
  | error fault => exact List.nil_sublist _
  | ok step =>
    cases step with
    | unknown op => exact List.Sublist.refl _
    | known i => exact List.nil_sublist _

/-! ### The lines of a run -/

theorem machines_begun (s : Session) (steps : List HostStep) :
    (s.begun steps).map (·.machine) = s.machine.begun steps := by
  induction steps generalizing s with
  | nil => rfl
  | cons step steps ih =>
    have hfirst : ((step.begun s.machine).map s.withMachine).map (·.machine) = step.begun s.machine := by
      rw [List.map_map]
      exact List.map_id _
    unfold begun Machine.begun
    rw [List.map_append, hfirst, ih, machine_perform]

theorem reports_eq_flatMap (s : Session) (steps : List HostStep) :
    s.machine.reports steps = (s.begun steps).flatMap fun b => b.machine.unknown?.toList.map Opcode.report := by
  unfold Machine.reports
  rw [← s.machines_begun, List.filterMap_eq_flatMap_toList, List.map_flatMap, List.flatMap_map]

/-- With tracing off, the reports are all that cycles print. -/
theorem cycleLines_eq_reports {s : Session} {steps : List HostStep} (h : ∀ b ∈ s.begun steps, b.logging = false) :
    (s.begun steps).flatMap cycleLines = s.machine.reports steps := by
  rw [reports_eq_flatMap]
  exact List.flatMap_congr fun b hb => cycleLines_of_off (h b hb)

theorem reports_sublist (s : Session) (steps : List HostStep) :
    (s.machine.reports steps).Sublist ((s.begun steps).flatMap cycleLines) := by
  rw [reports_eq_flatMap]
  exact List.Sublist.flatMap_right _ fun b _ => b.report_sublist

private theorem lines_go (logging : Bool) (n : Nat) {q : Run} (hq : q.fault = none) :
    (Run.go logging n q).lines.toList =
      q.lines.toList ++ (q.machine.begunBy n).flatMap fun b => Run.cycleLines logging b b.cycle.1 b.cycle.2 := by
  induction n generalizing q with
  | zero => exact (List.append_nil _).symm
  | succ n ih =>
    unfold Machine.begunBy
    rw [List.flatMap_cons]
    cases hc : q.machine.cycle with
    | mk after result =>
      cases result with
      | error fault =>
        rw [Run.go_succ_of_error logging n hq hc]
        exact (List.append_nil _).symm
      | ok step =>
        rw [Run.go_succ_of_ok logging n hq hc, ih rfl, Array.toList_appendList, List.append_assoc]

/-- A step that runs cycles prints their lines. -/
theorem lines_perform (s : Session) {step : HostStep} (h : step.runsCycles = true) :
    (s.perform step.command).lines.toList = ((step.begun s.machine).map s.withMachine).flatMap cycleLines := by
  rw [List.flatMap_map]
  cases step with
  | cycle =>
    change (s.perform .cycle).lines.toList = s.cycleLines ++ []
    rw [perform_cycle, List.append_nil]
    rfl
  | frame n => exact @lines_go s.logging n.toNat { machine := s.machine.tick } rfl
  | _ => cases h

/-- A run prints the lines of its cycles, and between them what the other steps print. -/
theorem cycleLines_sublist_printed (s : Session) (steps : List HostStep) :
    ((s.begun steps).flatMap cycleLines).Sublist (s.printed steps) := by
  induction steps generalizing s with
  | nil => exact List.Sublist.refl _
  | cons step steps ih =>
    unfold begun printed
    rw [List.flatMap_append]
    refine List.Sublist.append ?_ (ih _)
    cases hruns : step.runsCycles with
    | true =>
      rw [s.lines_perform hruns]
    | false =>
      have hnone : step.begun s.machine = [] := by
        cases step with
        | cycle | frame n => cases hruns
        | _ => rfl
      rw [hnone]
      exact List.nil_sublist _

end Session

/-! ### Hosts that trace differently -/

theorem Machine.after_untraced (m : Machine) (steps : List HostStep) :
    m.after (HostStep.untraced steps) = m.after steps := by
  induction steps generalizing m with
  | nil => rfl
  | cons step steps ih =>
    unfold HostStep.untraced Machine.after at ih ⊢
    by_cases h : step = .toggleLogging
    · rw [List.filter_cons_of_neg (by simp [h]), ih, List.foldl_cons, h]
      rfl
    · rw [List.filter_cons_of_pos (by simp [h]), List.foldl_cons, List.foldl_cons, ih]

/-- Whether tracing is on matters for no answer but that of the switch itself. -/
theorem answer_perform {s s' : Session} (h : s'.machine = s.machine) {step : HostStep}
    (hstep : step ≠ .toggleLogging) :
    (s'.perform step.command).answer = (s.perform step.command).answer := by
  obtain ⟨m, logging⟩ := s
  obtain ⟨m', logging'⟩ := s'
  subst h
  have hfault (q : Machine) (n : Nat) :
      (Run.go logging' n { machine := q }).fault = (Run.go logging n { machine := q }).fault := by
    have hgo := @Machine.go_eq_cyclesOf logging n { machine := q } rfl
    have hgo' := @Machine.go_eq_cyclesOf logging' n { machine := q } rfl
    exact congrArg Prod.snd (hgo'.trans hgo.symm)
  cases step with
  | toggleLogging => exact absurd rfl hstep
  | load rom =>
    simp only [HostStep.command, Session.perform, Session.load]
    cases Machine.loadRom _ rom <;> rfl
  | cycle =>
    simp only [HostStep.command, Session.perform, Session.ofRun, Machine.run, hfault]
  | frame n =>
    simp only [HostStep.command, Session.perform, Session.ofRun, Machine.frame, Machine.run, hfault]
  | press key =>
    simp only [HostStep.command, Session.perform, Keypad.press_val]
    rfl
  | release key =>
    simp only [HostStep.command, Session.perform, Keypad.release_val]
    rfl
  | _ => rfl

theorem machine_after_untraced {s s' : Session} (h : s'.machine = s.machine) {steps steps' : List HostStep}
    (huntraced : HostStep.untraced steps' = HostStep.untraced steps) :
    (s'.after steps').machine = (s.after steps).machine := by
  rw [machine_after, machine_after, ← Machine.after_untraced, huntraced, Machine.after_untraced, h]

open Micro

/-- Bare cells put the lines of a trace together even if they are not printed, and run into no other trap for it. -/
private theorem run_perform_alike {store store' : Store} {s s' : Session} {lines lines' : List String}
    (hsound : s.machine.Sound) (hmirrors : Mirrors store s lines) (hmirrors' : Mirrors store' s' lines')
    (h : s'.machine = s.machine) {step : HostStep} (hstep : step ≠ .toggleLogging) :
    (run (perform step) store').1 = (run (perform step) store).1 := by
  have hsound' : s'.machine.Sound := by
    rw [h]
    exact hsound
  rw [(run_perform hsound' hmirrors' step).1, (run_perform hsound hmirrors step).1]
  unfold outcome
  rw [answer_perform h hstep]

/-- Two machines under the same host, but for when it turns tracing on and off, are the same after every step, with the
same answers and faults, also on bare cells. Their cycles report every unknown opcode, by its four digits, and print
nothing else while tracing is off; while it is on, they print one line each unless they are quiet. -/
theorem tracing_only_prints (dialect : Dialect) (layout : Layout) (random : Wheel) (logging : Bool)
    (steps : List HostStep) :
    let s := (Session.fresh dialect layout random logging).after steps
    let store := (Store.fresh dialect layout random logging).after steps
    (Mirrors store s ((Session.fresh dialect layout random logging).printed steps) ∧
      ∀ logging' steps', HostStep.untraced steps' = HostStep.untraced steps →
        let s' := (Session.fresh dialect layout random logging').after steps'
        let store' := (Store.fresh dialect layout random logging').after steps'
        s'.machine = s.machine ∧ Mirrors store' s' ((Session.fresh dialect layout random logging').printed steps') ∧
          ∀ step ≠ HostStep.toggleLogging,
            (s'.perform step.command).session.machine = (s.perform step.command).session.machine ∧
              (s'.perform step.command).answer = (s.perform step.command).answer ∧
              (run (perform step) store').1 = (run (perform step) store).1) ∧
    (∀ step : HostStep, step.runsCycles = true →
      (s.perform step.command).lines.toList = (s.begun [step]).flatMap Session.cycleLines ∧
        (run (perform step) store).2.printed = store.printed ++ (s.begun [step]).flatMap Session.cycleLines) ∧
    ∀ more : List HostStep,
      (∀ b ∈ s.begun more, ∀ op, b.machine.unknown? = some op ↔
        ∃ w : Nat, op = ⟨w⟩ ∧ b.machine.Reads w ∧ Instruction.Unassigned w ∧
          w = 4096 * op.family.val + 256 * op.x.val + 16 * op.y.val + op.n.val ∧
          op.report =
            "Unknown opcode: " ++ String.ofList ([op.family, op.x, op.y, op.n].map Text.digitChar)) ∧
      ((∀ b ∈ s.begun more, b.logging = false) →
        (s.begun more).flatMap Session.cycleLines = s.machine.reports more) ∧
      (s.machine.reports more).Sublist ((s.begun more).flatMap Session.cycleLines) ∧
      ((s.begun more).flatMap Session.cycleLines).Sublist (s.printed more) ∧
      ∀ b ∈ s.begun more, b.logging = true →
        (b.machine.Quiet → b.cycleLines = []) ∧ (¬ b.machine.Quiet → ∃ line, b.cycleLines = [line]) := by
  intro s store
  obtain ⟨hsound, hmirrors⟩ := reachable dialect layout random logging steps
  refine ⟨⟨hmirrors, ?_⟩, ?_, ?_⟩
  · intro logging' steps' huntraced s' store'
    obtain ⟨-, hmirrors'⟩ := reachable dialect layout random logging' steps'
    have hfresh : (Session.fresh dialect layout random logging').machine =
        (Session.fresh dialect layout random logging).machine := rfl
    have hmachine : s'.machine = s.machine := machine_after_untraced hfresh huntraced
    refine ⟨hmachine, hmirrors', fun step hstep => ⟨?_, ?_, ?_⟩⟩
    · rw [machine_perform, machine_perform, hmachine]
    · exact answer_perform hmachine hstep
    · exact run_perform_alike hsound hmirrors hmirrors' hmachine hstep
  · intro step hstep
    have hlines : (s.perform step.command).lines.toList = (s.begun [step]).flatMap Session.cycleLines := by
      rw [s.lines_perform hstep, Session.begun, Session.begun, List.append_nil]
    refine ⟨hlines, ?_⟩
    rw [(run_perform hsound hmirrors step).2.printed_eq, hmirrors.printed_eq, ← hlines]
  · intro more
    refine ⟨fun b _ op => ?_, Session.cycleLines_eq_reports, s.reports_sublist more,
      s.cycleLines_sublist_printed more, fun b _ hb => Session.cycleLines_of_on hb⟩
    rw [b.machine.unknown?_eq_some_iff]
    constructor
    · rintro ⟨w, rfl, hreads, hw⟩
      exact ⟨w, rfl, hreads, hw, Opcode.eq_digits_mk hreads.lt, Opcode.report_mk hreads.lt⟩
    · rintro ⟨w, hop, hreads, hw, -⟩
      exact ⟨w, hop, hreads, hw⟩

/-- Two unknown opcodes with a skip that takes place in between, and a refused return; once with tracing off and once
with tracing turned on and off. -/
theorem tracing_only_prints_unknown :
    let rom : List UInt8 := [0x01, 0x23, 0x30, 0x00, 0x00, 0x00, 0xFA, 0xBC, 0x00, 0xEE]
    let fresh := Session.fresh Dialect.modern Layout.standard {}
    let steps : List HostStep := [.load rom]
    let steps' : List HostStep := [.toggleLogging, .load rom, .toggleLogging, .toggleLogging]
    let more : List HostStep := [.cycle, .frame 5]
    let s := (fresh false).after steps
    let s' := (fresh false).after steps'
    HostStep.untraced steps' = HostStep.untraced steps ∧ s'.machine = s.machine ∧
      (s'.perform .cycle).answer = (s.perform .cycle).answer ∧
      (∀ b ∈ s.begun more, b.logging = false) ∧
      (s.begun more).flatMap Session.cycleLines = ["Unknown opcode: 0123", "Unknown opcode: FABC"] ∧
      ["Unknown opcode: 0123", "Unknown opcode: FABC"].Sublist (s'.printed more) := by
  intro rom fresh steps steps' more s s'
  have huntraced : HostStep.untraced steps' = HostStep.untraced steps := by decide
  obtain ⟨⟨-, htwo⟩, -, hcycles⟩ := tracing_only_prints Dialect.modern Layout.standard {} false steps
  obtain ⟨-, -, hcycles'⟩ := tracing_only_prints Dialect.modern Layout.standard {} false steps'
  obtain ⟨hmachine, -, hsteps⟩ := htwo false steps' huntraced
  obtain ⟨-, hanswer, -⟩ := hsteps .cycle (by decide)
  obtain ⟨-, hoff, -⟩ := hcycles more
  obtain ⟨-, -, hreported, hprinted, -⟩ := hcycles' more
  have hsilent : ∀ b ∈ s.begun more, b.logging = false := by decide +kernel
  have hreports : s.machine.reports more = ["Unknown opcode: 0123", "Unknown opcode: FABC"] := by decide +kernel
  have hreports' : s'.machine.reports more = ["Unknown opcode: 0123", "Unknown opcode: FABC"] := by
    rw [← hreports]
    exact congrArg (·.reports more) hmachine
  refine ⟨huntraced, hmachine, hanswer, hsilent, (hoff hsilent).trans hreports, ?_⟩
  rw [← hreports']
  exact hreported.trans hprinted

end ChipEight
