import ChipEight.Proofs.Micro.Simulation
import Mathlib.Data.List.Induction

/-!
# The wait for a key

A wait begins when a machine that awaits nothing executes the key wait, and it goes on until a cycle ends it. What
happens meanwhile is a list of `WaitEvent`s in any order. The presses that count are those that find their key up, since
the beginning of the wait and since the keys were last reset (`FreshPress`). Which keys are up follows from that list and
the keys that were held when the wait began (`down_iff_downAfter`).

The pending press of the keypad is at all times the first one that counts (`pending_during`). So the next cycle ends
the wait exactly if some press counts, and it delivers the first of them (`keyWait_delivers_first`).
-/

namespace ChipEight

/-- What can happen during a wait. -/
inductive WaitEvent where
  | cycle
  | press (key : Fin 16)
  | release (key : Fin 16)
  | reset
  | tick
deriving DecidableEq

def WaitEvent.step : WaitEvent → HostStep
  | cycle => .cycle
  | press key => .press key
  | release key => .release key
  | reset => .resetKeys
  | tick => .tick

namespace Machine

/-- The machine after some events. -/
def during (m : Machine) (events : List WaitEvent) : Machine := m.after (events.map WaitEvent.step)

/-- No event so far has ended the wait. -/
def GoesOn (m : Machine) (events : List WaitEvent) : Prop :=
  ∀ n ≤ events.length, (m.during (events.take n)).waiting ≠ none

instance (m : Machine) (events : List WaitEvent) : Decidable (m.GoesOn events) :=
  inferInstanceAs (Decidable (∀ n ≤ events.length, (m.during (events.take n)).waiting ≠ none))

/-- The event at place `i` was a press of a key that was up, and the keys were not reset since. -/
def FreshPress (m : Machine) (events : List WaitEvent) (i : Nat) (key : Fin 16) : Prop :=
  events[i]? = some (.press key) ∧ (m.during (events.take i)).keypad.down.get key = false ∧
    .reset ∉ events.drop (i + 1)

instance (m : Machine) (events : List WaitEvent) (i : Nat) (key : Fin 16) : Decidable (m.FreshPress events i key) :=
  inferInstanceAs (Decidable (_ ∧ _ ∧ _))

/-- The first press that counts was one of this key. -/
def FirstFresh (m : Machine) (events : List WaitEvent) (key : Fin 16) : Prop :=
  ∃ i, m.FreshPress events i key ∧ ∀ j other, m.FreshPress events j other → i ≤ j

/-- After some events a key is down: it was held before and neither released nor reset, or it was pressed and neither
released nor reset since. -/
def DownAfter (m : Machine) (events : List WaitEvent) (key : Fin 16) : Prop :=
  (m.keypad.down.get key = true ∧ .release key ∉ events ∧ .reset ∉ events) ∨
    ∃ earlier later, events = earlier ++ .press key :: later ∧ .release key ∉ later ∧ .reset ∉ later

/-! ### Events one by one -/

theorem during_concat (m : Machine) (events : List WaitEvent) (e : WaitEvent) :
    m.during (events ++ [e]) = e.step.effect (m.during events) := by
  unfold during after
  rw [List.map_append, List.foldl_append]
  rfl

theorem GoesOn.take {m : Machine} {events : List WaitEvent} (h : m.GoesOn events) (i : Nat) :
    m.GoesOn (events.take i) := by
  intro n hn
  rw [List.length_take] at hn
  rw [List.take_take, Nat.min_eq_left (by omega)]
  exact h n (by omega)

theorem GoesOn.of_concat {m : Machine} {events : List WaitEvent} {e : WaitEvent} (h : m.GoesOn (events ++ [e])) :
    m.GoesOn events := by
  have hprefix := h.take events.length
  rw [List.take_left] at hprefix
  exact hprefix

theorem GoesOn.now {m : Machine} {events : List WaitEvent} (h : m.GoesOn events) :
    (m.during events).waiting ≠ none := by
  have hall := h events.length (Nat.le_refl _)
  rw [List.take_length] at hall
  exact hall

theorem GoesOn.concat {m : Machine} {events : List WaitEvent} (h : m.GoesOn events) {e : WaitEvent}
    (he : (m.during (events ++ [e])).waiting ≠ none) : m.GoesOn (events ++ [e]) := by
  intro n hn
  rw [List.length_append, List.length_singleton] at hn
  by_cases hlt : n ≤ events.length
  · rw [List.take_append_of_le_length hlt]
    exact h n hlt
  · rw [List.take_of_length_le (by rw [List.length_append, List.length_singleton]; omega)]
    exact he

/-- One more event: a reset makes all presses before it count no more, and a press of a key that is up counts. -/
theorem freshPress_concat (m : Machine) (events : List WaitEvent) (e : WaitEvent) (i : Nat) (key : Fin 16) :
    m.FreshPress (events ++ [e]) i key ↔
      (e ≠ .reset ∧ m.FreshPress events i key) ∨
        (i = events.length ∧ e = .press key ∧ (m.during events).keypad.down.get key = false) := by
  -- place `i` lies among the earlier events, or is that of the new one, or there is no such place
  rcases Nat.lt_trichotomy i events.length with hlt | rfl | hgt
  · have hget : (events ++ [e])[i]? = events[i]? := List.getElem?_append_left hlt
    have htake : (events ++ [e]).take i = events.take i := List.take_append_of_le_length (Nat.le_of_lt hlt)
    have hdrop : (events ++ [e]).drop (i + 1) = events.drop (i + 1) ++ [e] := List.drop_append_of_le_length hlt
    unfold FreshPress
    rw [hget, htake, hdrop, List.mem_append, List.mem_singleton, not_or]
    constructor
    · rintro ⟨hpress, hup, hreset, he⟩
      exact .inl ⟨fun h => he h.symm, hpress, hup, hreset⟩
    · rintro (⟨he, hpress, hup, hreset⟩ | ⟨rfl, -, -⟩)
      · exact ⟨hpress, hup, hreset, fun h => he h.symm⟩
      · exact absurd hlt (Nat.lt_irrefl _)
  · have hget : (events ++ [e])[events.length]? = some e := List.getElem?_concat_length
    have htake : (events ++ [e]).take events.length = events := List.take_left
    have hdrop : (events ++ [e]).drop (events.length + 1) = [] := List.drop_of_length_le (by simp)
    have hnone : events[events.length]? = none := List.getElem?_eq_none (Nat.le_refl _)
    unfold FreshPress
    rw [hget, htake, hdrop, hnone]
    constructor
    · rintro ⟨hpress, hup, -⟩
      exact .inr ⟨rfl, Option.some.inj hpress, hup⟩
    · rintro (⟨-, hpress, -⟩ | ⟨-, rfl, hup⟩)
      · cases hpress
      · exact ⟨rfl, hup, List.not_mem_nil⟩
  · have hget : (events ++ [e])[i]? = none := List.getElem?_eq_none (by simp; omega)
    have hnone : events[i]? = none := List.getElem?_eq_none (Nat.le_of_lt hgt)
    unfold FreshPress
    rw [hget, hnone]
    constructor
    · rintro ⟨hpress, -⟩
      cases hpress
    · rintro (⟨-, hpress, -⟩ | ⟨rfl, -⟩)
      · cases hpress
      · exact absurd hgt (Nat.lt_irrefl _)

theorem FreshPress.lt {m : Machine} {events : List WaitEvent} {i : Nat} {key : Fin 16}
    (h : m.FreshPress events i key) : i < events.length :=
  (List.getElem?_eq_some_iff.1 h.1).1

/-- Only one key can be the first. -/
theorem FirstFresh.unique {m : Machine} {events : List WaitEvent} {a b : Fin 16} (ha : m.FirstFresh events a)
    (hb : m.FirstFresh events b) : a = b := by
  obtain ⟨i, hi, hileast⟩ := ha
  obtain ⟨j, hj, hjleast⟩ := hb
  have hij : i = j := Nat.le_antisymm (hileast j b hj) (hjleast i a hi)
  subst hij
  cases hi.1.symm.trans hj.1
  rfl

/-! ### Cycles of a wait -/

/-- The machine awaits a key at the opcode of the wait. -/
structure Awaits (m : Machine) (x : Fin 16) (p : Int) : Prop where
  waiting : m.waiting = some x
  counter : m.counter = p
  reads : m.Reads (Instruction.waitForKey x).word

private theorem cycle_eq_awaitKey {m : Machine} {x : Fin 16} (h : m.Reads (Instruction.waitForKey x).word) :
    m.cycle = (m.count.pass.awaitKey x, .ok (.known (.waitForKey x))) :=
  cycle_of_reads h trivial

/-- A wait begins by forgetting an earlier press. -/
theorem cycle_of_not_waiting {m : Machine} {x : Fin 16} (h : m.Reads (Instruction.waitForKey x).word)
    (hwaiting : m.waiting = none) :
    m.cycle = ({ m with keypad := m.keypad.take, waiting := some x, cycles := m.cycles + 1 },
      .ok (.known (.waitForKey x))) := by
  have hcounter : m.counter + 2 - 2 = m.counter := by omega
  rw [cycle_eq_awaitKey h]
  unfold awaitKey
  rw [show m.count.pass.waiting = none from hwaiting]
  simp only [pass, count, hcounter]

theorem Awaits.cycle_of_none {m : Machine} {x : Fin 16} {p : Int} (h : m.Awaits x p)
    (hpending : m.keypad.pending = none) :
    m.cycle = ({ m with cycles := m.cycles + 1 }, .ok (.known (.waitForKey x))) := by
  have hcounter : m.counter + 2 - 2 = m.counter := by omega
  rw [cycle_eq_awaitKey h.reads]
  unfold awaitKey
  rw [show m.count.pass.waiting = some x from h.waiting, show m.count.pass.keypad.pending = none from hpending]
  simp only [pass, count, hcounter, h.waiting]

theorem Awaits.cycle_of_some {m : Machine} {x : Fin 16} {p : Int} (h : m.Awaits x p) {key : Fin 16}
    (hpending : m.keypad.pending = some (key.val : Int)) :
    m.cycle = ({ m.setV x (UInt8.ofNat key.val) with
        keypad := m.keypad.take, waiting := none, counter := p + 2, cycles := m.cycles + 1 },
      .ok (.known (.waitForKey x))) := by
  have hbyte : UInt8.ofInt (key.val : Int) = UInt8.ofNat key.val := by
    apply UInt8.toNat_inj.1
    simp [UInt8.ofInt]
    omega
  rw [cycle_eq_awaitKey h.reads]
  unfold awaitKey
  rw [show m.count.pass.waiting = some x from h.waiting,
    show m.count.pass.keypad.pending = some (key.val : Int) from hpending]
  simp only [pass, count, hbyte, ← h.counter]
  rfl

theorem Awaits.cycle_known {m : Machine} {x : Fin 16} {p : Int} (h : m.Awaits x p) :
    m.cycle.2 = .ok (.known (.waitForKey x)) := by
  rw [cycle_eq_awaitKey h.reads]

/-! ### The pending press -/

/-- The pending press is the first one that counts, and there is none if none counts. -/
def Remembers (m : Machine) (events : List WaitEvent) (pending : Option Int) : Prop :=
  (pending = none ∧ ∀ i key, ¬ m.FreshPress events i key) ∨
    ∃ key : Fin 16, pending = some (key.val : Int) ∧ m.FirstFresh events key

/-- An event that is no press and no reset changes nothing about which presses count. -/
private theorem Remembers.concat {m : Machine} {events : List WaitEvent} {pending : Option Int}
    (h : m.Remembers events pending) {e : WaitEvent} (hreset : e ≠ .reset) (hpress : ∀ key, e ≠ .press key) :
    m.Remembers (events ++ [e]) pending := by
  have hsame : ∀ i key, m.FreshPress (events ++ [e]) i key ↔ m.FreshPress events i key := by
    intro i key
    rw [freshPress_concat]
    constructor
    · rintro (⟨-, hfresh⟩ | ⟨-, he, -⟩)
      · exact hfresh
      · exact absurd he (hpress key)
    · intro hfresh
      exact .inl ⟨hreset, hfresh⟩
  unfold Remembers FirstFresh at h ⊢
  simp only [hsame]
  exact h

/-- A reset makes all presses count no more. -/
private theorem remembers_reset (m : Machine) (events : List WaitEvent) : m.Remembers (events ++ [.reset]) none := by
  refine .inl ⟨rfl, ?_⟩
  intro i key hfresh
  rcases (freshPress_concat m events .reset i key).1 hfresh with ⟨hne, -⟩ | ⟨-, he, -⟩
  · exact hne rfl
  · cases he

/-- A press of a key that is up counts, and is the first to count if there was none. -/
private theorem Remembers.press {m : Machine} {events : List WaitEvent}
    (h : m.Remembers events (m.during events).keypad.pending) (k : Fin 16) :
    m.Remembers (events ++ [.press k]) ((m.during events).keypad.pressKey k).pending := by
  have hfresh := freshPress_concat m events (.press k)
  -- the press can be the first to count only if none counted before
  rcases h with ⟨hnone, hnofresh⟩ | ⟨key, hsome, i, hi, hleast⟩
  · cases hdown : (m.during events).keypad.down.get k with
    | true =>
      refine .inl ⟨?_, ?_⟩
      · simp only [Keypad.pressKey, hdown, if_true]
        exact hnone
      · intro i key hi
        rcases (hfresh i key).1 hi with ⟨-, hi⟩ | ⟨-, he, hup⟩
        · exact hnofresh i key hi
        · cases he
          rw [hdown] at hup
          cases hup
    | false =>
      refine .inr ⟨k, ?_, events.length, (hfresh _ _).2 (.inr ⟨rfl, rfl, hdown⟩), ?_⟩
      · simp [Keypad.pressKey, hdown, hnone]
      · intro j other hj
        rcases (hfresh j other).1 hj with ⟨-, hj⟩ | ⟨rfl, -, -⟩
        · exact absurd hj (hnofresh j other)
        · exact Nat.le_refl _
  · have hreset : WaitEvent.press k ≠ .reset := by
      intro h
      cases h
    refine .inr ⟨key, ?_, i, (hfresh i key).2 (.inl ⟨hreset, hi⟩), ?_⟩
    · simp [Keypad.pressKey, hsome]
    · intro j other hj
      rcases (hfresh j other).1 hj with ⟨-, hj⟩ | ⟨rfl, -, -⟩
      · exact hleast j other hj
      · exact Nat.le_of_lt hi.lt

/-- While the wait goes on, the machine stays at its opcode, and the pending press is the first one that counts. -/
theorem pending_during {m : Machine} {x : Fin 16} {p : Int} (h : m.Awaits x p) (hpending : m.keypad.pending = none)
    {events : List WaitEvent} (hgo : m.GoesOn events) :
    (m.during events).Awaits x p ∧ m.Remembers events (m.during events).keypad.pending := by
  -- on the last event: what counts is told by the events before it and the keys as they were then
  induction events using List.reverseRecOn with
  | nil =>
    refine ⟨h, .inl ⟨hpending, ?_⟩⟩
    intro i key hfresh
    exact absurd hfresh.lt (Nat.not_lt_zero i)
  | append_singleton events e ih =>
    obtain ⟨hawaits, hremembers⟩ := ih hgo.of_concat
    have hnow := hgo.now
    rw [during_concat] at hnow ⊢
    cases e with
    | cycle =>
      change (m.during events).cycle.1.waiting ≠ none at hnow
      change (m.during events).cycle.1.Awaits x p ∧ m.Remembers _ (m.during events).cycle.1.keypad.pending
      -- with a pending press the cycle would have ended the wait
      rcases id hremembers with ⟨hnone, -⟩ | ⟨key, hsome, -⟩
      · rw [hawaits.cycle_of_none hnone]
        exact ⟨⟨hawaits.waiting, hawaits.counter, hawaits.reads⟩, hremembers.concat nofun nofun⟩
      · rw [hawaits.cycle_of_some hsome] at hnow
        exact absurd rfl hnow
    | press k => exact ⟨⟨hawaits.waiting, hawaits.counter, hawaits.reads⟩, hremembers.press k⟩
    | release k => exact ⟨⟨hawaits.waiting, hawaits.counter, hawaits.reads⟩, hremembers.concat nofun nofun⟩
    | reset => exact ⟨⟨hawaits.waiting, hawaits.counter, hawaits.reads⟩, remembers_reset m events⟩
    | tick => exact ⟨⟨hawaits.waiting, hawaits.counter, hawaits.reads⟩, hremembers.concat nofun nofun⟩

/-! ### Keys that are held -/

/-- One more event: a press puts its key down, and a release of the key and a reset let it go up. -/
theorem downAfter_concat {m : Machine} {events : List WaitEvent} {e : WaitEvent} {key : Fin 16} :
    m.DownAfter (events ++ [e]) key ↔
      e = .press key ∨ m.DownAfter events key ∧ e ≠ .release key ∧ e ≠ .reset := by
  unfold DownAfter
  rw [since_concat, List.mem_append, List.mem_append, List.mem_singleton, List.mem_singleton, not_or, not_or]
  constructor
  · rintro (⟨hheld, ⟨hrelease, he⟩, hreset, he'⟩ | he | ⟨hpressed, he⟩)
    · exact .inr ⟨.inl ⟨hheld, hrelease, hreset⟩, Ne.symm he, Ne.symm he'⟩
    · exact .inl he
    · exact .inr ⟨.inr hpressed, he⟩
  · rintro (he | ⟨⟨hheld, hrelease, hreset⟩ | hpressed, he, he'⟩)
    · exact .inr (.inl he)
    · exact .inl ⟨hheld, ⟨hrelease, Ne.symm he⟩, hreset, Ne.symm he'⟩
    · exact .inr (.inr ⟨hpressed, he, he'⟩)

/-- During the wait the events tell which keys are down. -/
theorem down_iff_downAfter {m : Machine} {x : Fin 16} {p : Int} (h : m.Awaits x p) (hpending : m.keypad.pending = none)
    {events : List WaitEvent} (hgo : m.GoesOn events) (key : Fin 16) :
    (m.during events).keypad.down.get key = true ↔ m.DownAfter events key := by
  induction events using List.reverseRecOn with
  | nil =>
    constructor
    · exact fun hdown => .inl ⟨hdown, List.not_mem_nil, List.not_mem_nil⟩
    · rintro (⟨hdown, -⟩ | ⟨earlier, later, heq, -⟩)
      · exact hdown
      · exact absurd heq.symm (by simp)
  | append_singleton events e ih =>
    rw [downAfter_concat, ← ih hgo.of_concat]
    have hnow := hgo.now
    rw [during_concat] at hnow ⊢
    cases e with
    | cycle =>
      obtain ⟨hawaits, hremembers⟩ := pending_during h hpending hgo.of_concat
      change (m.during events).cycle.1.waiting ≠ none at hnow
      change (m.during events).cycle.1.keypad.down.get key = true ↔ _
      rcases hremembers with ⟨hnone, -⟩ | ⟨first, hsome, -⟩
      · rw [hawaits.cycle_of_none hnone]
        simp
      · rw [hawaits.cycle_of_some hsome] at hnow
        exact absurd rfl hnow
    | press k =>
      change (setAt (m.during events).keypad.down k true).get key = true ↔ _
      rw [get_setAt]
      by_cases hkey : key = k
      · simp [hkey]
      · simp [hkey, Ne.symm hkey]
    | release k =>
      change (setAt (m.during events).keypad.down k false).get key = true ↔ _
      rw [get_setAt]
      by_cases hkey : key = k
      · simp [hkey]
      · simp [hkey, Ne.symm hkey]
    | reset =>
      change (m.during events).keypad.reset.down.get key = true ↔ _
      simp [Keypad.reset, get_eq_getElem]
    | tick =>
      change (m.during events).keypad.down.get key = true ↔ _
      simp

/-- A key that was held when the wait began does not count before it is released or the keys are reset. -/
theorem not_freshPress_of_held {m : Machine} {x : Fin 16} {p : Int} (h : m.Awaits x p)
    (hpending : m.keypad.pending = none) {key : Fin 16} (hdown : m.keypad.down.get key = true)
    {events : List WaitEvent} (hgo : m.GoesOn events) {i : Nat} (hrelease : .release key ∉ events.take i)
    (hreset : .reset ∉ events.take i) : ¬ m.FreshPress events i key := by
  rintro ⟨-, hup, -⟩
  rw [(down_iff_downAfter h hpending (hgo.take i) key).2 (.inl ⟨hdown, hrelease, hreset⟩)] at hup
  cases hup

/-! ### The end of the wait -/

/-- A press and a release between two cycles count as well. -/
theorem ends_of_tap {m : Machine} {x : Fin 16} {p : Int} (h : m.Awaits x p) (hpending : m.keypad.pending = none)
    {events : List WaitEvent} (hgo : m.GoesOn events) {key : Fin 16}
    (hup : (m.during events).keypad.down.get key = false) :
    (m.during (events ++ [.press key, .release key])).cycle.1.waiting = none := by
  have hnow := hgo.now
  have hpressed : m.GoesOn (events ++ [.press key]) := by
    refine hgo.concat ?_
    rw [during_concat]
    exact hnow
  have hreleased : m.GoesOn (events ++ [.press key] ++ [.release key]) := by
    refine hpressed.concat ?_
    rw [during_concat, during_concat]
    exact hnow
  have hfresh : m.FreshPress (events ++ [.press key] ++ [.release key]) events.length key :=
    (freshPress_concat m _ _ _ _).2 (.inl ⟨nofun, (freshPress_concat m _ _ _ _).2 (.inr ⟨rfl, rfl, hup⟩)⟩)
  have hevents : events ++ [.press key, .release key] = events ++ [.press key] ++ [.release key] := by
    rw [List.append_assoc]
    rfl
  obtain ⟨hawaits, ⟨-, hnofresh⟩ | ⟨first, hsome, -⟩⟩ := pending_during h hpending hreleased
  · exact absurd hfresh (hnofresh _ _)
  · rw [hevents, hawaits.cycle_of_some hsome]

/-- From the cycle that begins a wait on, the next cycle ends it exactly if a press counts, and delivers the first one
that does; else the cycle changes nothing but its count. Bare cells go through the same wait, with any switch for
tracing. -/
theorem keyWait_delivers_first (dialect : Dialect) (layout : Layout) (random : Wheel) (logging : Bool)
    (steps : List HostStep) (x : Fin 16) (hwaiting : ((fresh dialect layout random).after steps).waiting = none)
    (hword : ((fresh dialect layout random).after steps).Reads (0xF00A + 0x100 * x)) :
    let m := (fresh dialect layout random).after steps
    let start := m.cycle.1
    start = { m with keypad := m.keypad.take, waiting := some x, cycles := m.cycles + 1 } ∧
      ∀ events, start.GoesOn events →
        let now := start.during events
        (now.cycle.1.waiting = none ↔ ∃ i key, start.FreshPress events i key) ∧
          ((∃ i key, start.FreshPress events i key) →
            ∃ key, start.FirstFresh events key ∧
              now.cycle = ({ now.setV x (UInt8.ofNat key.val) with
                  keypad := now.keypad.take, waiting := none, counter := m.counter + 2, cycles := now.cycles + 1 },
                .ok (.known (.waitForKey x)))) ∧
          ((¬ ∃ i key, start.FreshPress events i key) →
            now.cycle = ({ now with cycles := now.cycles + 1 }, .ok (.known (.waitForKey x))) ∧
              now.counter = m.counter) ∧
          (∀ i key, start.FreshPress events i key → m.keypad.down.get key = true →
            .release key ∈ events.take i ∨ .reset ∈ events.take i) ∧
          (∀ key, now.keypad.down.get key = false →
            (start.during (events ++ [.press key, .release key])).cycle.1.waiting = none) ∧
          (∀ key, now.keypad.down.get key = true ↔ start.DownAfter events key) ∧
          let wait := steps ++ .cycle :: events.map WaitEvent.step
          let s := (Session.fresh dialect layout random logging).after wait
          let store := (Micro.Store.fresh dialect layout random logging).after wait
          let lines := (Session.fresh dialect layout random logging).printed wait
          s.machine = now ∧ Micro.Mirrors store s lines ∧ (Micro.run Micro.cycle store).1 = .ok () ∧
            Micro.Mirrors (Micro.run Micro.cycle store).2 (s.perform .cycle).session
              (lines ++ (s.perform .cycle).lines.toList) := by
  intro m start
  have hstart : start = { m with keypad := m.keypad.take, waiting := some x, cycles := m.cycles + 1 } :=
    congrArg Prod.fst (cycle_of_not_waiting hword hwaiting)
  have hawaits : start.Awaits x m.counter := by
    rw [hstart]
    exact ⟨rfl, rfl, hword⟩
  have hpending : start.keypad.pending = none := by
    rw [hstart]
    rfl
  have hdown : start.keypad.down = m.keypad.down := by
    rw [hstart]
    rfl
  refine ⟨hstart, ?_⟩
  intro events hgo now
  obtain ⟨hnow, hremembers⟩ := pending_during hawaits hpending hgo
  refine ⟨?_, ?_, ?_, ?_, ?_, down_iff_downAfter hawaits hpending hgo, ?_⟩
  · rcases hremembers with ⟨hnone, hnofresh⟩ | ⟨key, hsome, i, hfresh, -⟩
    · rw [hnow.cycle_of_none hnone]
      constructor
      · intro hended
        exact absurd (hnow.waiting.symm.trans hended) nofun
      · rintro ⟨i, key, hfresh⟩
        exact absurd hfresh (hnofresh i key)
    · rw [hnow.cycle_of_some hsome]
      exact ⟨fun _ => ⟨i, key, hfresh⟩, fun _ => rfl⟩
  · rintro ⟨i, key, hfresh⟩
    rcases hremembers with ⟨-, hnofresh⟩ | ⟨first, hsome, hfirst⟩
    · exact absurd hfresh (hnofresh i key)
    · exact ⟨first, hfirst, hnow.cycle_of_some hsome⟩
  · intro hnofresh
    rcases hremembers with ⟨hnone, -⟩ | ⟨key, -, i, hfresh, -⟩
    · exact ⟨hnow.cycle_of_none hnone, hnow.counter⟩
    · exact absurd ⟨i, key, hfresh⟩ hnofresh
  · intro i key hfresh hheld
    by_contra hno
    rw [not_or] at hno
    rw [← hdown] at hheld
    exact not_freshPress_of_held hawaits hpending hheld hgo hno.1 hno.2 hfresh
  · intro key hup
    exact ends_of_tap hawaits hpending hgo hup
  · intro wait s store lines
    obtain ⟨hsound, hmirrors⟩ := Micro.reachable dialect layout random logging wait
    have hmachine : s.machine = now := by
      rw [machine_after, after_append]
      rfl
    have hcycle : s.machine.cycle.2 = .ok (.known (.waitForKey x)) := by
      rw [hmachine]
      exact hnow.cycle_known
    exact ⟨hmachine, hmirrors, Micro.run_cycle_of_ok hsound hmirrors hcycle,
      (Micro.run_perform hsound hmirrors .cycle).2⟩

/-- Key 5 is held when the wait begins, and key 2 is pressed after key 7. -/
theorem keyWait_delivers_first_of_three :
    let m := (fresh Dialect.modern Layout.standard {}).after [.load [0xF3, 0x0A], .press 5]
    let start := m.cycle.1
    let events : List WaitEvent := [.press 5, .cycle, .press 7, .press 2, .release 7]
    m.waiting = none ∧ m.Reads (0xF00A + 0x100 * (3 : Fin 16)) ∧ start.GoesOn events ∧
      ∃ key, start.FirstFresh events key ∧ (start.during events).cycle.1.v 3 = UInt8.ofNat key.val := by
  have hwaiting : ((fresh Dialect.modern Layout.standard {}).after [.load [0xF3, 0x0A], .press 5]).waiting = none := by
    decide +kernel
  have hword : ((fresh Dialect.modern Layout.standard {}).after [.load [0xF3, 0x0A], .press 5]).Reads
      (0xF00A + 0x100 * (3 : Fin 16)) := by
    decide +kernel
  obtain ⟨-, hwait⟩ := keyWait_delivers_first Dialect.modern Layout.standard {} false _ 3 hwaiting hword
  have hgo : ((fresh Dialect.modern Layout.standard {}).after [.load [0xF3, 0x0A], .press 5]).cycle.1.GoesOn
      [.press 5, .cycle, .press 7, .press 2, .release 7] := by
    decide +kernel
  obtain ⟨-, hdelivers, -⟩ := hwait _ hgo
  obtain ⟨key, hfirst, hcycle⟩ := hdelivers ⟨2, 7, by decide +kernel⟩
  refine ⟨hwaiting, hword, hgo, key, hfirst, ?_⟩
  rw [hcycle]
  simp [Machine.v, Machine.setV, get_setAt]

end Machine

end ChipEight
