import ChipEight.Proofs.Vectors
import ChipEight.Session

/-!
# Hosts

What a host does with a machine that was switched on: it loads programs, runs cycles and frames, lets the timers
tick, sets them, handles the sixteen keys and the screen, and turns tracing on and off. It does not reach into the
registers, the memory or the stack. Every `HostStep` is a command of a session; `Session.after` is the session that
a list of them leaves behind, refused ones included.

Tracing has no effect on the machine of a session: `HostStep.effect` is what a step does to the machine alone, and
`machine_after` says that nothing else matters. A property that the parts of a host step keep is kept by all lists
of host steps (`Machine.after_induction`).
-/

namespace ChipEight

/-- What a host does with a machine. -/
inductive HostStep where
  | load (rom : List UInt8)
  | cycle
  /-- A tick of the timers and a number of cycles. -/
  | frame (n : Int)
  | tick
  | setDelay (value : Int)
  | setSound (value : Int)
  | press (key : Fin 16)
  | release (key : Fin 16)
  | takePress
  | resetKeys
  | clearScreen
  | markShown
  | toggleLogging
deriving DecidableEq

namespace HostStep

/-- The command of a session that a host step is. -/
def command : HostStep → Command
  | load rom => .load rom
  | cycle => .cycle
  | frame n => .frame n
  | tick => .tick
  | setDelay value => .setDelay value
  | setSound value => .setSound value
  | press key => .press key.val
  | release key => .release key.val
  | takePress => .takePress
  | resetKeys => .resetKeys
  | clearScreen => .clearScreen
  | markShown => .markShown
  | toggleLogging => .toggleLogging

/-- The step may run cycles. -/
def runsCycles : HostStep → Bool
  | cycle | frame _ => true
  | _ => false

/-- The step puts a program into memory. -/
def loads : HostStep → Bool
  | load _ => true
  | _ => false

/-- The step is a frame, which is a tick and many cycles at once. -/
def isFrame : HostStep → Bool
  | frame _ => true
  | _ => false

end HostStep

/-- A machine as it is switched on, of any dialect, with any keypad layout and any source of random numbers. -/
def Machine.fresh (dialect : Dialect) (layout : Layout) (random : Wheel) : Machine :=
  { dialect := dialect, keypad := { layout := layout }, random := random }

def Session.fresh (dialect : Dialect) (layout : Layout) (random : Wheel) (logging : Bool) : Session :=
  { machine := Machine.fresh dialect layout random, logging := logging }

/-- The session after a list of host steps. -/
def Session.after (s : Session) (steps : List HostStep) : Session :=
  steps.foldl (fun s step => (s.perform step.command).session) s

/-- The lines that a list of host steps prints. -/
def Session.printed (s : Session) : List HostStep → List String
  | [] => []
  | step :: steps =>
    (s.perform step.command).lines.toList ++ (s.perform step.command).session.printed steps

/-- The outcomes of a list of host steps, one by one. -/
def Session.replies (s : Session) : List HostStep → List Reply
  | [] => []
  | step :: steps => s.perform step.command :: (s.perform step.command).session.replies steps

theorem Session.after_append (s : Session) (first second : List HostStep) :
    s.after (first ++ second) = (s.after first).after second :=
  List.foldl_append

theorem Session.printed_append (s : Session) (first second : List HostStep) :
    s.printed (first ++ second) = s.printed first ++ (s.after first).printed second := by
  induction first generalizing s with
  | nil => rfl
  | cons step first ih =>
    exact (congrArg ((s.perform step.command).lines.toList ++ ·) (ih _)).trans (List.append_assoc _ _ _).symm

theorem Session.printed_eq_replies (s : Session) (steps : List HostStep) :
    s.printed steps = (s.replies steps).flatMap (·.lines.toList) := by
  induction steps generalizing s with
  | nil => rfl
  | cons step steps ih => exact congrArg (_ ++ ·) (ih _)

/-! ### Cycles in a row -/

namespace Run

private theorem go_of_fault (logging : Bool) (n : Nat) {q : Run} {fault : Fault} (h : q.fault = some fault) :
    go logging n q = q := by
  cases n with
  | zero => rfl
  | succ n => simp only [go, h]

/-- A refused cycle ends a run. -/
theorem go_succ_of_error (logging : Bool) (n : Nat) {q : Run} (hq : q.fault = none) {after : Machine} {fault : Fault}
    (hc : q.machine.cycle = (after, .error fault)) :
    go logging (n + 1) q = { machine := after, lines := q.lines, fault := some fault } := by
  have hgo : go logging (n + 1) q = go logging n (q.step logging) := by simp only [go, hq]
  have hstep : q.step logging = { machine := after, lines := q.lines, fault := some fault } := by
    simp [step, hc, cycleLines]
  rw [hgo, hstep]
  exact go_of_fault logging n rfl

/-- After a cycle that is not refused a run goes on. -/
theorem go_succ_of_ok (logging : Bool) (n : Nat) {q : Run} (hq : q.fault = none) {after : Machine} {step : Step}
    (hc : q.machine.cycle = (after, .ok step)) :
    go logging (n + 1) q =
      go logging n { machine := after, lines := q.lines ++ cycleLines logging q.machine after (.ok step) } := by
  have hgo : go logging (n + 1) q = go logging n (q.step logging) := by simp only [go, hq]
  rw [hgo, Run.step, hc]

end Run

namespace Machine

/-- At most `n` cycles, until one fails: the machine afterwards, and the fault if there was one. -/
def cyclesOf (m : Machine) : Nat → Machine × Option Fault
  | 0 => (m, none)
  | n + 1 =>
    match m.cycle with
    | (after, .error fault) => (after, some fault)
    | (after, .ok _) => after.cyclesOf n

/-- A run without a fault so far goes on as its machine does alone. -/
theorem go_eq_cyclesOf (logging : Bool) (n : Nat) {q : Run} (hq : q.fault = none) :
    ((Run.go logging n q).machine, (Run.go logging n q).fault) = q.machine.cyclesOf n := by
  -- the lines differ from cycle to cycle, so the induction is for all runs
  induction n generalizing q with
  | zero => simp only [Run.go, cyclesOf, hq]
  | succ n ih =>
    unfold cyclesOf
    cases hc : q.machine.cycle with
    | mk after result =>
      cases result with
      | error fault => rw [Run.go_succ_of_error logging n hq hc]
      | ok step =>
        rw [Run.go_succ_of_ok logging n hq hc]
        exact ih rfl

theorem run_machine (m : Machine) (logging : Bool) (n : Int) :
    (m.run logging n).machine = (m.cyclesOf n.toNat).1 :=
  congrArg Prod.fst (@go_eq_cyclesOf logging n.toNat { machine := m } rfl)

theorem cyclesOf_one (m : Machine) : (m.cyclesOf 1).1 = m.cycle.1 := by
  unfold cyclesOf
  cases hc : m.cycle with
  | mk after result => cases result <;> rfl

theorem cyclesOf_induction {P : Machine → Prop} (hcycle : ∀ m : Machine, P m → P m.cycle.1) {m : Machine} (h : P m)
    (n : Nat) : P (m.cyclesOf n).1 := by
  induction n generalizing m with
  | zero => exact h
  | succ n ih =>
    have hafter := hcycle m h
    unfold cyclesOf
    cases hc : m.cycle with
    | mk after result =>
      rw [hc] at hafter
      cases result with
      | error fault => exact hafter
      | ok step => exact ih hafter

end Machine

/-! ### Keys -/

namespace Keypad

/-- A key of the keypad goes down. -/
def pressKey (k : Keypad) (key : Fin 16) : Keypad :=
  { k with
    down := setAt k.down key true
    pending := if k.down.get key then k.pending else k.pending.or (some (key.val : Int)) }

/-- A key of the keypad goes up. -/
def releaseKey (k : Keypad) (key : Fin 16) : Keypad := { k with down := setAt k.down key false }

theorem press_val (k : Keypad) (key : Fin 16) : k.press key.val = .ok (k.pressKey key) := by
  unfold press
  rw [position_val]
  rfl

theorem release_val (k : Keypad) (key : Fin 16) : k.release key.val = .ok (k.releaseKey key) := by
  unfold release
  rw [position_val]
  rfl

end Keypad

/-! ### The machine under a host -/

/-- What a host step does to the machine. -/
def HostStep.effect (m : Machine) : HostStep → Machine
  | load rom => ((m.loadRom rom).toOption).getD m
  | cycle => m.cycle.1
  | frame n => (m.tick.cyclesOf n.toNat).1
  | tick => m.tick
  | setDelay value => { m with timers := m.timers.setDelay value }
  | setSound value => { m with timers := m.timers.setSound value }
  | press key => { m with keypad := m.keypad.pressKey key }
  | release key => { m with keypad := m.keypad.releaseKey key }
  | takePress => { m with keypad := m.keypad.take }
  | resetKeys => { m with keypad := m.keypad.reset }
  | clearScreen => { m with screen := m.screen.clear }
  | markShown => { m with screen := m.screen.shown }
  | toggleLogging => m

def Machine.after (m : Machine) (steps : List HostStep) : Machine :=
  steps.foldl HostStep.effect m

theorem Machine.after_append (m : Machine) (first second : List HostStep) :
    m.after (first ++ second) = (m.after first).after second :=
  List.foldl_append

/-- The machine has a property before the first step and after each of them. -/
def Machine.Throughout (P : Machine → Prop) (m : Machine) (steps : List HostStep) : Prop :=
  ∀ n ≤ steps.length, P (m.after (steps.take n))

instance (P : Machine → Prop) [DecidablePred P] (m : Machine) (steps : List HostStep) :
    Decidable (m.Throughout P steps) :=
  inferInstanceAs (Decidable (∀ n ≤ steps.length, P (m.after (steps.take n))))

theorem Machine.Throughout.of_cons {P : Machine → Prop} {m : Machine} {step : HostStep} {steps : List HostStep}
    (h : m.Throughout P (step :: steps)) : (step.effect m).Throughout P steps := by
  intro n hn
  exact h (n + 1) (Nat.succ_le_succ hn)

theorem Machine.Throughout.now {P : Machine → Prop} {m : Machine} {steps : List HostStep} (h : m.Throughout P steps) :
    P m := h 0 (Nat.zero_le _)

/-- Between cycles a host works on the devices only, and on memory when it loads a program. -/
theorem HostStep.effect_eq (m : Machine) {step : HostStep} (hstep : step.runsCycles = false) :
    ∃ memory keypad timers screen, step.effect m =
      { m with memory := memory, keypad := keypad, timers := timers, screen := screen } := by
  cases step with
  | cycle | frame n => cases hstep
  | load rom =>
    simp only [effect, Machine.loadRom]
    cases m.memory.loadRom rom with
    | error fault => exact ⟨m.memory, m.keypad, m.timers, m.screen, rfl⟩
    | ok memory => exact ⟨memory, m.keypad, m.timers, m.screen, rfl⟩
  | _ => exact ⟨m.memory, _, _, _, rfl⟩

theorem machine_perform (s : Session) (step : HostStep) :
    (s.perform step.command).session.machine = step.effect s.machine := by
  cases step with
  | load rom =>
    simp only [HostStep.command, Session.perform, Session.load, HostStep.effect]
    cases s.machine.loadRom rom <;> rfl
  | cycle =>
    simp only [HostStep.command, Session.perform, Session.ofRun, Session.withMachine, HostStep.effect,
      Machine.run_machine]
    exact s.machine.cyclesOf_one
  | frame n =>
    simp only [HostStep.command, Session.perform, Session.ofRun, Session.withMachine, HostStep.effect,
      Machine.frame, Machine.run_machine]
  | press key =>
    simp only [HostStep.command, Session.perform, Keypad.press_val]
    rfl
  | release key =>
    simp only [HostStep.command, Session.perform, Keypad.release_val]
    rfl
  | _ => rfl

theorem perform_cycle (s : Session) :
    s.perform .cycle =
      { session := s.withMachine s.machine.cycle.1
        lines := (Run.cycleLines s.logging s.machine s.machine.cycle.1 s.machine.cycle.2).toArray
        answer := s.machine.cycle.2.map fun _ => .nothing } := by
  have hrun : s.machine.run s.logging 1 = Run.step s.logging { machine := s.machine } := rfl
  simp only [Session.perform, hrun, Session.ofRun, Run.step]
  cases s.machine.cycle with
  | mk after result =>
    cases result <;> simp [Run.cycleLines, Except.map]

theorem machine_after (s : Session) (steps : List HostStep) :
    (s.after steps).machine = s.machine.after steps := by
  unfold Session.after Machine.after
  induction steps generalizing s with
  | nil => rfl
  | cons step steps ih =>
    simp only [List.foldl_cons]
    rw [ih, machine_perform]

namespace Machine

/-- A property that cycles keep, and all that a host does between them, is kept by host steps. -/
structure Kept (P : Machine → Prop) : Prop where
  load : ∀ (m : Machine) (memory : Memory), P m → P { m with memory := memory }
  cycle : ∀ m : Machine, P m → P m.cycle.1
  timers : ∀ (m : Machine) (timers : Timers), P m → P { m with timers := timers }
  press : ∀ (m : Machine) (key : Fin 16), P m → P { m with keypad := m.keypad.pressKey key }
  release : ∀ (m : Machine) (key : Fin 16), P m → P { m with keypad := m.keypad.releaseKey key }
  take : ∀ m : Machine, P m → P { m with keypad := m.keypad.take }
  reset : ∀ m : Machine, P m → P { m with keypad := m.keypad.reset }
  screen : ∀ (m : Machine) (screen : Screen), P m → P { m with screen := screen }

theorem Kept.effect {P : Machine → Prop} (kept : Kept P) {m : Machine} (h : P m) (step : HostStep) :
    P (step.effect m) := by
  cases step with
  | load rom =>
    simp only [HostStep.effect, loadRom]
    cases m.memory.loadRom rom with
    | error fault => exact h
    | ok memory => exact kept.load m memory h
  | cycle => exact kept.cycle m h
  | frame n => exact cyclesOf_induction kept.cycle (kept.timers m m.timers.tick h) n.toNat
  | tick => exact kept.timers m m.timers.tick h
  | setDelay value => exact kept.timers m (m.timers.setDelay value) h
  | setSound value => exact kept.timers m (m.timers.setSound value) h
  | press key => exact kept.press m key h
  | release key => exact kept.release m key h
  | takePress => exact kept.take m h
  | resetKeys => exact kept.reset m h
  | clearScreen => exact kept.screen m m.screen.clear h
  | markShown => exact kept.screen m m.screen.shown h
  | toggleLogging => exact h

/-- A property that the allowed steps keep is kept by lists of them. -/
theorem after_induction_of {P : Machine → Prop} {allowed : HostStep → Prop}
    (heffect : ∀ (m : Machine) (step : HostStep), P m → allowed step → P (step.effect m)) {m : Machine} (h : P m)
    {steps : List HostStep} (hsteps : ∀ step ∈ steps, allowed step) : P (m.after steps) := by
  unfold after
  induction steps generalizing m with
  | nil => exact h
  | cons step steps ih =>
    rw [List.forall_mem_cons] at hsteps
    exact ih (heffect m step h hsteps.1) hsteps.2

theorem after_induction {P : Machine → Prop} (kept : Kept P) {m : Machine} (h : P m) (steps : List HostStep) :
    P (m.after steps) :=
  @after_induction_of P (fun _ => True) (fun _ step hm _ => kept.effect hm step) m h steps fun _ _ => trivial

end Machine

end ChipEight
