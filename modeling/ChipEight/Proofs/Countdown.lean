import ChipEight.Proofs.Footprints
import ChipEight.Proofs.RunCycles
import Mathlib.Data.List.Induction

/-!
# The timers count down

What happens to a timer in a run is that it is set, by the host or by an instruction, and that it ticks
(`Timer.history`). From these alone its value follows: it is the low byte of what it was last set to, less one for every
tick since then, and not below 0 (`countdown`, `Timer.value_after`). A frame is one tick and then cycles, however it
ends (`Machine.frame_eq_cycles`), so its history has one tick, and that comes first.
-/

namespace ChipEight

/-- The two timers. -/
inductive Timer where
  | delay
  | sound
deriving DecidableEq

/-- What can happen to a timer. -/
inductive TimerEvent where
  | tick
  | set (value : Int)
deriving DecidableEq

/-! ### Counting down -/

namespace TimerEvent

def value? : TimerEvent → Option Int
  | set value => some value
  | tick => none

/-- The value that a timer was last set to, 0 if it never was. -/
def lastSet (events : List TimerEvent) : Int := (events.filterMap value?).getLast?.getD 0

/-- The ticks since a timer was last set. -/
def ticksSince (events : List TimerEvent) : Nat := (events.reverse.takeWhile (· = tick)).length

/-- The low byte of what a timer was last set to, less the ticks since then, but not below 0. -/
def countdown (events : List TimerEvent) : Int := max 0 (lastSet events % 256 - ticksSince events)

/-- What an event makes of the value of a timer. -/
def act (value : UInt8) : TimerEvent → UInt8
  | tick => Timers.countDown value
  | set value => UInt8.ofInt value

theorem countdown_concat_set (events : List TimerEvent) (value : Int) :
    countdown (events ++ [set value]) = value % 256 := by
  have hlast : lastSet (events ++ [set value]) = value := by simp [lastSet, value?]
  have hticks : ticksSince (events ++ [set value]) = 0 := by simp [ticksSince]
  unfold countdown
  rw [hlast, hticks]
  omega

theorem countdown_concat_tick (events : List TimerEvent) :
    countdown (events ++ [tick]) = max 0 (countdown events - 1) := by
  have hlast : lastSet (events ++ [tick]) = lastSet events := by simp [lastSet, value?]
  have hticks : ticksSince (events ++ [tick]) = ticksSince events + 1 := by simp [ticksSince]
  unfold countdown
  rw [hlast, hticks]
  omega

theorem toNat_countDown (value : UInt8) :
    ((Timers.countDown value).toNat : Int) = max 0 ((value.toNat : Int) - 1) := by
  by_cases h : (value.toNat : Int) > 0
  · rw [Micro.toNat_countDown_of_pos h]
    omega
  · rw [Micro.countDown_of_not_pos h]
    omega

/-- A timer that is at 0 comes to its countdown. -/
theorem toNat_foldl_act (events : List TimerEvent) : ((events.foldl act 0).toNat : Int) = countdown events := by
  induction events using List.reverseRecOn with
  | nil => rfl
  | append_singleton events e ih =>
    rw [List.foldl_append]
    cases e with
    | tick => rw [countdown_concat_tick, ← ih, ← toNat_countDown, List.foldl_cons, List.foldl_nil, act]
    | set value => rw [countdown_concat_set, ← Micro.toNat_ofInt_byte, List.foldl_cons, List.foldl_nil, act]

end TimerEvent

/-! ### What happens to a timer -/

namespace Timer

def value (m : Machine) : Timer → UInt8
  | delay => m.timers.delay
  | sound => m.timers.sound

/-- The register from which an instruction sets a timer, if it does. -/
def source? : Timer → Instruction → Option (Fin 16)
  | delay, .setDelay x => some x
  | sound, .setSound x => some x
  | _, _ => none

/-- What the next cycle does to a timer: it sets it if it executes the instruction for that. -/
def ofCycle (t : Timer) (m : Machine) : List TimerEvent :=
  (m.executed?.bind t.source?).toList.map fun x => .set (m.v x).toNat

def ofStep (t : Timer) (m : Machine) : HostStep → List TimerEvent
  | .cycle => t.ofCycle m
  | .frame n => .tick :: (m.tick.begunBy n.toNat).flatMap t.ofCycle
  | .tick => [.tick]
  | .setDelay value => if t = delay then [.set value] else []
  | .setSound value => if t = sound then [.set value] else []
  | _ => []

/-- What happens to a timer while a host goes through its steps. -/
def history (t : Timer) (m : Machine) : List HostStep → List TimerEvent
  | [] => []
  | step :: steps => t.ofStep m step ++ t.history (step.effect m) steps

/-! ### The value of a timer -/

theorem value_tick (t : Timer) (m : Machine) : t.value m.tick = Timers.countDown (t.value m) := by
  cases t <;> rfl

/-- An instruction that does not set a timer leaves it alone. -/
private theorem value_of_footprint {t : Timer} {m after : Machine} {i : Instruction} (h : m.Footprint i after)
    (hi : t.source? i = none) : t.value after = t.value m := by
  cases t with
  | delay =>
    rcases h.delay with ⟨x, rfl⟩ | hsame
    · cases hi
    · exact hsame
  | sound =>
    rcases h.sound with ⟨x, rfl⟩ | hsame
    · cases hi
    · exact hsame

private theorem value_of_source {t : Timer} {m after : Machine} {i : Instruction} {x : Fin 16}
    (hi : t.source? i = some x) (hexecute : m.count.pass.execute i = .ok after) :
    t.value after = UInt8.ofInt (m.v x).toNat := by
  unfold source? at hi
  split at hi
  · cases hi
    cases hexecute
    rfl
  · cases hi
    cases hexecute
    rfl
  · cases hi

theorem value_cycle (t : Timer) (m : Machine) :
    t.value m.cycle.1 = (t.ofCycle m).foldl TimerEvent.act (t.value m) := by
  rcases m.cycle_cases with ⟨fault, hc⟩ | ⟨op, hc⟩ | ⟨i, after, hreads, hproper, hexecute, hc⟩
  · have hnone : m.executed? = none := by rw [Machine.executed?, hc]
    rw [ofCycle, hnone, hc]
    cases t <;> rfl
  · have hnone : m.executed? = none := by rw [Machine.executed?, hc]
    rw [ofCycle, hnone, hc]
    cases t <;> rfl
  · have hsome : m.executed? = some i := by rw [Machine.executed?, hc]
    rw [ofCycle, hsome, hc, Option.bind_some]
    cases hi : t.source? i with
    | none =>
      have hsame : t.value after = t.value m.count.pass := value_of_footprint (Machine.footprint_of_execute hexecute) hi
      rw [hsame]
      cases t <;> rfl
    | some x => exact value_of_source hi hexecute

theorem value_cyclesOf (t : Timer) (m : Machine) (n : Nat) :
    t.value (m.cyclesOf n).1 = ((m.begunBy n).flatMap t.ofCycle).foldl TimerEvent.act (t.value m) := by
  induction n generalizing m with
  | zero => rfl
  | succ n ih =>
    have hcycle := t.value_cycle m
    unfold Machine.cyclesOf Machine.begunBy
    rw [List.flatMap_cons, List.foldl_append, ← hcycle]
    cases hc : m.cycle with
    | mk after result =>
      cases result with
      | error fault => rfl
      | ok step => exact ih after

theorem value_effect (t : Timer) (m : Machine) (step : HostStep) :
    t.value (step.effect m) = (t.ofStep m step).foldl TimerEvent.act (t.value m) := by
  cases step with
  | cycle => exact t.value_cycle m
  | frame n =>
    rw [ofStep, List.foldl_cons, TimerEvent.act, ← value_tick]
    exact t.value_cyclesOf m.tick n.toNat
  | tick => exact t.value_tick m
  | load rom =>
    simp only [HostStep.effect, Machine.loadRom]
    cases m.memory.loadRom rom <;> cases t <;> rfl
  | _ => cases t <;> rfl

theorem value_after (t : Timer) (m : Machine) (steps : List HostStep) :
    t.value (m.after steps) = (t.history m steps).foldl TimerEvent.act (t.value m) := by
  induction steps generalizing m with
  | nil => rfl
  | cons step steps ih =>
    rw [history, List.foldl_append, ← value_effect]
    exact ih (step.effect m)

/-- From when a machine is switched on, a timer is at its countdown. -/
theorem toNat_value_after (t : Timer) (dialect : Dialect) (layout : Layout) (random : Wheel) (steps : List HostStep) :
    ((t.value ((Machine.fresh dialect layout random).after steps)).toNat : Int) =
      TimerEvent.countdown (t.history (Machine.fresh dialect layout random) steps) := by
  have hzero : t.value (Machine.fresh dialect layout random) = 0 := by cases t <;> rfl
  rw [value_after, hzero, TimerEvent.toNat_foldl_act]

/-! ### Frames -/

theorem history_cycles (t : Timer) (m : Machine) (k : Nat) :
    t.history m (List.replicate k .cycle) = (m.begun (List.replicate k .cycle)).flatMap t.ofCycle := by
  induction k generalizing m with
  | zero => rfl
  | succ k ih => exact congrArg (t.ofCycle m ++ ·) (ih m.cycle.1)

theorem tick_not_mem_ofCycle (t : Timer) (m : Machine) : .tick ∉ t.ofCycle m := by
  unfold ofCycle
  simp

/-- What happens to a timer in a frame is one tick, and then that instructions set it. -/
theorem history_frame (t : Timer) (m : Machine) (n : Int) :
    ∃ sets, t.history m [.frame n] = .tick :: sets ∧ .tick ∉ sets := by
  refine ⟨(m.tick.begunBy n.toNat).flatMap t.ofCycle, List.append_nil _, ?_⟩
  rw [List.mem_flatMap]
  rintro ⟨b, -, hb⟩
  exact t.tick_not_mem_ofCycle b hb

end Timer

namespace Machine

theorem cycle_of_readDelay {m : Machine} {x : Fin 16} (h : m.Reads (0xF007 + 0x100 * x)) :
    m.cycle.2 = .ok (.known (.readDelay x)) ∧ m.cycle.1.v x = m.timers.delay := by
  have hcycle := cycle_of_reads (i := .readDelay x) h trivial
  rw [hcycle]
  refine ⟨rfl, ?_⟩
  change (m.count.pass.setV x m.timers.delay).v x = m.timers.delay
  rw [v_setV, if_pos rfl]

/-- A frame is a tick and some cycles one by one: `n` of them, or less if the last one is refused. -/
structure Frames (m : Machine) (n : Int) (k : Nat) : Prop where
  le : k ≤ n.toNat
  after : m.after [.frame n] = m.after (.tick :: List.replicate k .cycle)
  begun : m.begun [.frame n] = m.begun (.tick :: List.replicate k .cycle)
  history : ∀ t : Timer, t.history m [.frame n] = t.history m (.tick :: List.replicate k .cycle)
  goesOn : ∀ j, j + 1 < k → ∃ step, (m.after (.tick :: List.replicate j .cycle)).cycle.2 = .ok step
  ends : k = n.toNat ∨ ∃ j fault, k = j + 1 ∧ (m.after (.tick :: List.replicate j .cycle)).cycle.2 = .error fault

theorem frame_eq_cycles (m : Machine) (n : Int) : ∃ k, m.Frames n k := by
  obtain ⟨k, hk, hafter, hbegun, hgoes, hends⟩ := m.tick.cyclesOf_eq_after n.toNat
  refine ⟨k, hk, hafter, (List.append_nil _).trans hbegun, fun t => ?_, hgoes, hends⟩
  have hcycles : t.history m (.tick :: List.replicate k .cycle) =
      .tick :: t.history m.tick (List.replicate k .cycle) := rfl
  rw [hcycles, t.history_cycles m.tick k, ← hbegun]
  exact List.append_nil _

end Machine

open Micro

/-- After whatever a host does, both timers are at their countdown, and an instruction that reads the delay timer
loads that value. A frame is one tick and then cycles, be it refused or not, and the first thing that happens to a
timer in it, and the only one that no instruction does, is the tick. On bare cells the timers have the same values. -/
theorem timers_count_down (dialect : Dialect) (layout : Layout) (random : Wheel) (logging : Bool)
    (steps : List HostStep) :
    let fresh := Machine.fresh dialect layout random
    let m := fresh.after steps
    let s := (Session.fresh dialect layout random logging).after steps
    let store := (Store.fresh dialect layout random logging).after steps
    (∀ t : Timer, ((t.value m).toNat : Int) = TimerEvent.countdown (t.history fresh steps)) ∧
      (∀ x : Fin 16, m.Reads (0xF007 + 0x100 * x) →
        m.cycle.2 = .ok (.known (.readDelay x)) ∧
          ((m.cycle.1.v x).toNat : Int) = TimerEvent.countdown (Timer.delay.history fresh steps)) ∧
      (∀ n : Int, (∃ k, m.Frames n k) ∧
        ∀ t : Timer, ∃ sets, t.history m [.frame n] = .tick :: sets ∧ .tick ∉ sets) ∧
      s.machine = m ∧ Mirrors store s ((Session.fresh dialect layout random logging).printed steps) ∧
      store.delay = TimerEvent.countdown (Timer.delay.history fresh steps) ∧
      store.sound = TimerEvent.countdown (Timer.sound.history fresh steps) := by
  intro fresh m s store
  have hvalue : ∀ t : Timer, ((t.value m).toNat : Int) = TimerEvent.countdown (t.history fresh steps) :=
    fun t => t.toNat_value_after dialect layout random steps
  have hmachine : s.machine = m := machine_after _ steps
  obtain ⟨-, hmirrors⟩ := reachable dialect layout random logging steps
  refine ⟨hvalue, fun x hreads => ?_, fun n => ⟨m.frame_eq_cycles n, fun t => t.history_frame m n⟩, hmachine, hmirrors,
    ?_, ?_⟩
  · obtain ⟨hknown, hloaded⟩ := Machine.cycle_of_readDelay hreads
    rw [hloaded]
    exact ⟨hknown, hvalue .delay⟩
  · obtain ⟨r, hcells, -⟩ := hmirrors
    have hstore : store = s.machine.bare r := hcells
    rw [hstore, hmachine]
    exact hvalue .delay
  · obtain ⟨r, hcells, -⟩ := hmirrors
    have hstore : store = s.machine.bare r := hcells
    rw [hstore, hmachine]
    exact hvalue .sound

/-- A timer set to 261 and then ticked by a frame without cycles and once more stands at 3, which a program reads. -/
theorem timers_count_down_read :
    let steps : List HostStep := [.load [0xF1, 0x07], .setDelay 261, .frame (-1), .tick]
    let m := (Machine.fresh Dialect.modern Layout.standard {}).after steps
    m.Reads (0xF007 + 0x100 * (1 : Fin 16)) ∧ ((m.cycle.1.v 1).toNat : Int) = 3 := by
  intro steps m
  have hreads : m.Reads (0xF007 + 0x100 * (1 : Fin 16)) := by decide +kernel
  obtain ⟨-, hreadings, -⟩ := timers_count_down Dialect.modern Layout.standard {} false steps
  obtain ⟨-, hloaded⟩ := hreadings 1 hreads
  refine ⟨hreads, hloaded.trans ?_⟩
  decide

end ChipEight
