import ChipEight.Proofs.HeldKeys

/-!
# The keypad keeps a log of events

What a keypad answers follows from the presses, releases, takes and resets so far. A key is down if, of the presses
and releases of it and the resets, a press came last (`KeyEvent.Down`). What a take answers is the first press since
the last take or reset that found its key up (`KeyEvent.Fresh`, `KeyEvent.First`), whatever came after that press.

The keypad itself holds no log: it knows which keys are down, and one pending press. That these two are what the log
tells is kept event by event (`Keypad.Keeps`), for keypads of sessions and of bare cells (`keypad_keeps_log`).
-/

namespace ChipEight

/-- What can be done to a keypad. -/
inductive KeyEvent where
  | press (key : Fin 16)
  | release (key : Fin 16)
  | take
  | reset
deriving DecidableEq

namespace KeyEvent

/-- What an event makes of a keypad. -/
def on (k : Keypad) : KeyEvent → Except Fault Keypad
  | press key => k.press key.val
  | release key => k.release key.val
  | take => .ok k.take
  | reset => .ok k.reset

def step : KeyEvent → HostStep
  | press key => .press key
  | release key => .release key
  | take => .takePress
  | reset => .resetKeys

/-! ### What the log tells -/

/-- The event is a press or a release of the key, or a reset. -/
def moves (key : Fin 16) : KeyEvent → Bool
  | press k | release k => k = key
  | take => false
  | reset => true

/-- Of the presses and releases of a key and the resets, a press came last. -/
def Down (log : List KeyEvent) (key : Fin 16) : Prop := (log.filter (moves key)).getLast? = some (.press key)

instance (log : List KeyEvent) (key : Fin 16) : Decidable (Down log key) := inferInstanceAs (Decidable (_ = _))

/-- After these earlier events came a press of the key that found it up, and since then neither a take nor a reset. -/
def Fresh (log earlier : List KeyEvent) (key : Fin 16) : Prop :=
  ¬ Down earlier key ∧ ∃ later, log = earlier ++ .press key :: later ∧ ∀ e ∈ later, e ≠ .take ∧ e ≠ .reset

/-- The first press of a key that was up, since the last take or reset, was one of this key. -/
def First (log : List KeyEvent) (key : Fin 16) : Prop :=
  ∃ earlier, Fresh log earlier key ∧ ∀ other k, Fresh log other k → earlier.length ≤ other.length

variable {log earlier : List KeyEvent} {key : Fin 16} {e : KeyEvent}

theorem down_concat : Down (log ++ [e]) key ↔ e = .press key ∨ e.moves key = false ∧ Down log key := by
  unfold Down
  rw [List.filter_append, List.filter_cons, List.filter_nil]
  cases h : e.moves key with
  | true => simp
  | false =>
    have hne : e ≠ .press key := by
      rintro rfl
      simp [moves] at h
    simp [hne]

/-- A key stays down as long as it is not released and the keys are not reset. -/
theorem Down.append (h : Down log key) {more : List KeyEvent} (hrelease : .release key ∉ more)
    (hreset : .reset ∉ more) : Down (log ++ more) key := by
  induction more using List.reverseRecOn with
  | nil =>
    rw [List.append_nil]
    exact h
  | append_singleton more e ih =>
    rw [List.mem_append, List.mem_singleton, not_or] at hrelease hreset
    have hbefore := ih hrelease.1 hreset.1
    rw [← List.append_assoc, down_concat]
    by_cases hpress : e = .press key
    · exact .inl hpress
    · refine .inr ⟨?_, hbefore⟩
      cases e with
      | press k => exact decide_eq_false fun hk => hpress (congrArg press hk)
      | release k => exact decide_eq_false fun hk => hrelease.2 (congrArg release hk.symm)
      | take => rfl
      | reset => exact absurd rfl hreset.2

/-- One more event: a take or a reset makes all presses before it count no more, and a press of a key that is up
counts. -/
theorem fresh_concat :
    Fresh (log ++ [e]) earlier key ↔
      (e ≠ .take ∧ e ≠ .reset ∧ Fresh log earlier key) ∨ (earlier = log ∧ e = .press key ∧ ¬ Down log key) := by
  unfold Fresh
  rw [split_concat_iff]
  constructor
  · rintro ⟨hup, ⟨rfl, hpress⟩ | ⟨⟨htake, hreset⟩, hbefore⟩⟩
    · exact .inr ⟨rfl, hpress, hup⟩
    · exact .inl ⟨htake, hreset, hup, hbefore⟩
  · rintro (⟨htake, hreset, hup, hbefore⟩ | ⟨rfl, hpress, hup⟩)
    · exact ⟨hup, .inr ⟨⟨htake, hreset⟩, hbefore⟩⟩
    · exact ⟨hup, .inl ⟨rfl, hpress⟩⟩

theorem Fresh.length_lt (h : Fresh log earlier key) : earlier.length < log.length := by
  obtain ⟨-, later, rfl, -⟩ := h
  rw [List.length_append, List.length_cons]
  omega

/-- Only one key can be the first. -/
theorem First.unique {a b : Fin 16} (ha : First log a) (hb : First log b) : a = b := by
  obtain ⟨before, ⟨hup, later, heq, hsince⟩, hleast⟩ := ha
  obtain ⟨before', ⟨hup', later', heq', hsince'⟩, hleast'⟩ := hb
  have hlength : before.length = before'.length :=
    Nat.le_antisymm (hleast _ _ ⟨hup', later', heq', hsince'⟩) (hleast' _ _ ⟨hup, later, heq, hsince⟩)
  obtain ⟨-, htail⟩ := List.append_inj (heq.symm.trans heq') hlength
  obtain ⟨hpress, -⟩ := List.cons.inj htail
  exact press.inj hpress

/-- What is neither a take nor a reset leaves the first press the first. -/
theorem First.concat (h : First log key) (htake : e ≠ .take) (hreset : e ≠ .reset) : First (log ++ [e]) key := by
  obtain ⟨earlier, hfresh, hleast⟩ := h
  refine ⟨earlier, fresh_concat.2 (.inl ⟨htake, hreset, hfresh⟩), ?_⟩
  intro other k hother
  rcases fresh_concat.1 hother with ⟨-, -, hbefore⟩ | ⟨rfl, -, -⟩
  · exact hleast other k hbefore
  · exact Nat.le_of_lt hfresh.length_lt

theorem First.append (h : First log key) {more : List KeyEvent} (htake : .take ∉ more) (hreset : .reset ∉ more) :
    First (log ++ more) key := by
  induction more using List.reverseRecOn with
  | nil =>
    rw [List.append_nil]
    exact h
  | append_singleton more e ih =>
    rw [List.mem_append, List.mem_singleton, not_or] at htake hreset
    rw [← List.append_assoc]
    exact (ih htake.1 hreset.1).concat (fun h => htake.2 h.symm) (fun h => hreset.2 h.symm)

/-- No press of a key that is held counts after a take. -/
theorem Down.not_fresh (h : Down log key) {more : List KeyEvent} (hrelease : .release key ∉ more)
    (hreset : .reset ∉ more) (earlier : List KeyEvent) : ¬ Fresh (log ++ .take :: more) earlier key := by
  induction more using List.reverseRecOn with
  | nil =>
    intro hfresh
    rcases fresh_concat.1 hfresh with ⟨htake, -⟩ | ⟨-, hpress, -⟩
    · exact htake rfl
    · cases hpress
  | append_singleton more e ih =>
    rw [List.mem_append, List.mem_singleton, not_or] at hrelease hreset
    rw [← List.cons_append, ← List.append_assoc]
    intro hfresh
    rcases fresh_concat.1 hfresh with ⟨-, -, hbefore⟩ | ⟨-, -, hup⟩
    · exact ih hrelease.1 hreset.1 hbefore
    · exact hup (h.append (by simpa using hrelease.1) (by simpa using hreset.1))

end KeyEvent

open KeyEvent

/-! ### The keypad -/

/-- A pending press is the first one that counts, and there is none if none counts. -/
def KeyEvent.Pends (log : List KeyEvent) (pending : Option Int) : Prop :=
  (pending = none ∧ ∀ earlier key, ¬ Fresh log earlier key) ∨
    ∃ key : Fin 16, pending = some (key.val : Int) ∧ First log key

theorem KeyEvent.pends_of_clear {log : List KeyEvent} {e : KeyEvent} (h : e = .take ∨ e = .reset) :
    Pends (log ++ [e]) none := by
  refine .inl ⟨rfl, fun earlier key hfresh => ?_⟩
  rcases fresh_concat.1 hfresh with ⟨htake, hreset, -⟩ | ⟨-, rfl, -⟩
  · exact h.elim htake hreset
  · exact h.elim nofun nofun

theorem KeyEvent.Pends.press {log : List KeyEvent} {k : Keypad} (h : Pends log k.pending) {key : Fin 16}
    (hdown : k.down.get key = true ↔ Down log key) : Pends (log ++ [.press key]) (k.pressKey key).pending := by
  rcases h with ⟨hnone, hnofresh⟩ | ⟨first, hsome, hfirst⟩
  · cases hkey : k.down.get key with
    | true =>
      refine .inl ⟨by simp [Keypad.pressKey, hkey, hnone], fun earlier k' hfresh => ?_⟩
      rcases fresh_concat.1 hfresh with ⟨-, -, hbefore⟩ | ⟨-, hpress, hup⟩
      · exact hnofresh earlier k' hbefore
      · obtain rfl := KeyEvent.press.inj hpress
        exact hup (hdown.1 hkey)
    | false =>
      have hup : ¬ Down log key := fun hheld => by simp [hdown.2 hheld] at hkey
      refine .inr ⟨key, by simp [Keypad.pressKey, hkey, hnone], log, fresh_concat.2 (.inr ⟨rfl, rfl, hup⟩), ?_⟩
      intro other k' hfresh
      rcases fresh_concat.1 hfresh with ⟨-, -, hbefore⟩ | ⟨rfl, -, -⟩
      · exact absurd hbefore (hnofresh other k')
      · exact Nat.le_refl _
  · exact .inr ⟨first, by simp [Keypad.pressKey, hsome], hfirst.concat (by simp) (by simp)⟩

theorem KeyEvent.Pends.release {log : List KeyEvent} {pending : Option Int} (h : Pends log pending) (key : Fin 16) :
    Pends (log ++ [.release key]) pending := by
  rcases h with ⟨hnone, hnofresh⟩ | ⟨first, hsome, hfirst⟩
  · refine .inl ⟨hnone, fun earlier k hfresh => ?_⟩
    rcases fresh_concat.1 hfresh with ⟨-, -, hbefore⟩ | ⟨-, hpress, -⟩
    · exact hnofresh earlier k hbefore
    · cases hpress
  · exact .inr ⟨first, hsome, hfirst.concat (by simp) (by simp)⟩

/-- What the keypad knows is what the log tells. -/
structure Keypad.Keeps (k : Keypad) (log : List KeyEvent) : Prop where
  down : ∀ key, k.down.get key = true ↔ Down log key
  pending : Pends log k.pending

namespace Keypad

theorem keeps_nil (layout : Layout) : Keeps { layout := layout } [] := by
  constructor
  · intro key
    exact iff_of_false (by simp [get_eq_getElem]) nofun
  · exact .inl ⟨rfl, fun earlier key hfresh => absurd hfresh.length_lt (Nat.not_lt_zero _)⟩

theorem Keeps.down_iff {k : Keypad} {log : List KeyEvent} (h : k.Keeps log) {j : Int} {key : Fin 16}
    (hkey : (key.val : Int) = j % 16) : k.isDown j = true ↔ Down log key := by
  have hlow : lowKey j = key := Fin.ext (by simp only [lowKey]; omega)
  rw [isDown, hlow]
  exact h.down key

theorem Keeps.pending_eq_some {k : Keypad} {log : List KeyEvent} (h : k.Keeps log) {key : Fin 16} :
    k.pending = some (key.val : Int) ↔ First log key := by
  rcases h.pending with ⟨hnone, hnofresh⟩ | ⟨first, hsome, hfirst⟩
  · refine iff_of_false (by simp [hnone]) ?_
    rintro ⟨earlier, hfresh, -⟩
    exact hnofresh earlier key hfresh
  · rw [hsome, Option.some_inj, Int.ofNat_inj, Fin.val_inj]
    constructor
    · rintro rfl
      exact hfirst
    · exact hfirst.unique

theorem Keeps.pending_eq_none {k : Keypad} {log : List KeyEvent} (h : k.Keeps log) :
    k.pending = none ↔ ∀ earlier key, ¬ Fresh log earlier key := by
  rcases h.pending with ⟨hnone, hnofresh⟩ | ⟨first, hsome, earlier, hfresh, -⟩
  · exact iff_of_true hnone hnofresh
  · exact iff_of_false (by simp [hsome]) fun hnofresh => hnofresh earlier first hfresh

end Keypad

/-! ### Machines and sessions -/

namespace Machine

variable (m : Machine)

/-- The machine after some events on its keypad. -/
def afterKeys (log : List KeyEvent) : Machine := m.after (log.map KeyEvent.step)

/-- Of the machine an event changes the keypad only, and the keypad does not refuse it. -/
theorem on_keypad (e : KeyEvent) :
    ∃ k, e.on m.keypad = .ok k ∧ e.step.effect m = { m with keypad := k } := by
  cases e with
  | press key => exact ⟨_, m.keypad.press_val key, rfl⟩
  | release key => exact ⟨_, m.keypad.release_val key, rfl⟩
  | take | reset => exact ⟨_, rfl, rfl⟩

theorem foldlM_on (log : List KeyEvent) : log.foldlM KeyEvent.on m.keypad = .ok (m.afterKeys log).keypad := by
  induction log generalizing m with
  | nil => rfl
  | cons e log ih =>
    obtain ⟨k, hon, heffect⟩ := m.on_keypad e
    have hrest := ih (e.step.effect m)
    rw [heffect] at hrest
    change (e.on m.keypad >>= fun k => log.foldlM KeyEvent.on k) = .ok ((e.step.effect m).afterKeys log).keypad
    rw [hon, heffect]
    exact hrest

theorem afterKeys_concat (log : List KeyEvent) (e : KeyEvent) :
    m.afterKeys (log ++ [e]) = e.step.effect (m.afterKeys log) := by
  unfold afterKeys
  rw [List.map_append, after_append]
  rfl

theorem keeps_effect {m : Machine} {log : List KeyEvent} (h : m.keypad.Keeps log) (e : KeyEvent) :
    (e.step.effect m).keypad.Keeps (log ++ [e]) := by
  refine ⟨fun j => ?_, ?_⟩
  · rw [down_effect, down_concat, ← h.down]
    cases e with
    | press key | release key =>
      by_cases hj : j = key
      · simp [step, HostStep.moved, moves, hj]
      · simp [step, HostStep.moved, moves, hj, Ne.symm hj]
    | take | reset => simp [step, HostStep.moved, moves]
  · cases e with
    | press key => exact h.pending.press (h.down key)
    | release key => exact h.pending.release key
    | take => exact pends_of_clear (.inl rfl)
    | reset => exact pends_of_clear (.inr rfl)

theorem keeps_afterKeys (dialect : Dialect) (layout : Layout) (random : Wheel) (log : List KeyEvent) :
    ((Machine.fresh dialect layout random).afterKeys log).keypad.Keeps log := by
  induction log using List.reverseRecOn with
  | nil => exact Keypad.keeps_nil layout
  | append_singleton log e ih =>
    rw [afterKeys_concat]
    exact keeps_effect ih e

end Machine

/-- The session after some events on the keypad of its machine. -/
def Session.afterKeys (s : Session) (log : List KeyEvent) : Session := s.after (log.map KeyEvent.step)

/-- What a take answers in a session. -/
def Session.taken (s : Session) : Except Fault Answer := (s.perform .takePress).answer

theorem Session.taken_eq_number {s : Session} {log : List KeyEvent} (h : s.machine.keypad.Keeps log) {key : Fin 16} :
    s.taken = .ok (.number key.val) ↔ First log key := by
  have htaken : s.taken = .ok (numberOrNothing s.machine.keypad.pending) := rfl
  rw [htaken, ← h.pending_eq_some]
  cases s.machine.keypad.pending <;> simp [numberOrNothing]

theorem Session.taken_eq_nothing {s : Session} {log : List KeyEvent} (h : s.machine.keypad.Keeps log) :
    s.taken = .ok .nothing ↔ ∀ earlier key, ¬ Fresh log earlier key := by
  have htaken : s.taken = .ok (numberOrNothing s.machine.keypad.pending) := rfl
  rw [htaken, ← h.pending_eq_none]
  cases s.machine.keypad.pending <;> simp [numberOrNothing]

open Micro

/-- After any presses, releases, takes and resets, none of which is refused, a key is down exactly if a press came last
among its presses and releases and the resets; and the next take answers the first press since the last take or reset
that found its key up, if there was one. So what else happens to the keys until then does not change that answer, and a
key that is held through a take is not reported again. Bare cells have the same keys down and the same press pending. -/
theorem keypad_keeps_log (dialect : Dialect) (layout : Layout) (random : Wheel) (logging : Bool)
    (log : List KeyEvent) :
    let s := (Session.fresh dialect layout random logging).afterKeys log
    let store := (Store.fresh dialect layout random logging).after (log.map KeyEvent.step)
    log.foldlM KeyEvent.on { layout := layout } = .ok s.machine.keypad ∧
    (∀ (j : Int) (key : Fin 16), (key.val : Int) = j % 16 → (s.machine.keypad.isDown j = true ↔ Down log key)) ∧
    (∀ key : Fin 16, s.taken = .ok (.number key.val) ↔ First log key) ∧
    (s.taken = .ok .nothing ↔ ∀ earlier key, ¬ Fresh log earlier key) ∧
    (∀ (key : Fin 16) (more : List KeyEvent), s.taken = .ok (.number key.val) → .take ∉ more → .reset ∉ more →
      (s.afterKeys more).taken = .ok (.number key.val)) ∧
    (∀ (key : Fin 16) (more : List KeyEvent), s.machine.keypad.isDown key.val = true → .release key ∉ more →
      .reset ∉ more → (s.afterKeys (.take :: more)).taken ≠ .ok (.number key.val)) ∧
    (∀ j : Int, (run (Micro.keyDown j) store).1 = .ok (s.machine.keypad.isDown j)) ∧
    (run Micro.takePress store).1 = .ok s.machine.keypad.pending := by
  intro s store
  have hmachine : ∀ log, ((Session.fresh dialect layout random logging).afterKeys log).machine =
      (Machine.fresh dialect layout random).afterKeys log := fun log => machine_after _ _
  have hkeeps : ∀ log, ((Session.fresh dialect layout random logging).afterKeys log).machine.keypad.Keeps log := by
    intro log
    rw [hmachine]
    exact Machine.keeps_afterKeys dialect layout random log
  have hmore : ∀ more, s.afterKeys more = (Session.fresh dialect layout random logging).afterKeys (log ++ more) := by
    intro more
    unfold Session.afterKeys
    rw [List.map_append, Session.after_append]
    rfl
  refine ⟨?_, fun j key hkey => (hkeeps log).down_iff hkey, fun key => Session.taken_eq_number (hkeeps log),
    Session.taken_eq_nothing (hkeeps log), ?_, ?_, ?_⟩
  · rw [hmachine]
    exact (Machine.fresh dialect layout random).foldlM_on log
  · intro key more hfirst htake hreset
    rw [Session.taken_eq_number (hkeeps log)] at hfirst
    rw [hmore, Session.taken_eq_number (hkeeps _)]
    exact hfirst.append htake hreset
  · intro key more hdown hrelease hreset hagain
    rw [(hkeeps log).down_iff (by omega : (key.val : Int) = key.val % 16)] at hdown
    rw [hmore, Session.taken_eq_number (hkeeps _)] at hagain
    obtain ⟨earlier, hfresh, -⟩ := hagain
    exact hdown.not_fresh hrelease hreset earlier hfresh
  · obtain ⟨-, r, hcells, -⟩ := reachable dialect layout random logging (log.map KeyEvent.step)
    have hstore : store = s.machine.bare r := hcells
    rw [hstore]
    exact ⟨fun j => congrArg Prod.fst (run_keyDown s.machine r j), congrArg Prod.fst (run_takePress s.machine r)⟩

/-- Two keys go down and the first of them up and down again; then it is taken while it is held. -/
theorem keypad_keeps_log_held :
    let log : List KeyEvent := [.press 5, .press 9, .release 5, .press 5]
    let s := (Session.fresh Dialect.modern Layout.standard {} false).afterKeys log
    ((5 : Fin 16).val : Int) = -11 % 16 ∧ s.machine.keypad.isDown (-11) = true ∧
      s.machine.keypad.isDown (5 : Fin 16).val = true ∧ s.taken = .ok (.number (5 : Fin 16).val) ∧
      (s.afterKeys [.release 5]).taken = .ok (.number (5 : Fin 16).val) ∧
      (s.afterKeys [.take, .press 5]).taken ≠ .ok (.number (5 : Fin 16).val) := by
  intro log s
  obtain ⟨-, hdown, htaken, -, hstays, hheld, -⟩ := keypad_keeps_log Dialect.modern Layout.standard {} false log
  have hkey : Down log 5 := by decide
  have hfirst : First log 5 := by
    refine ⟨[], ⟨by decide, [.press 9, .release 5, .press 5], rfl, by decide⟩, ?_⟩
    exact fun other k hfresh => Nat.zero_le _
  have hnow := (htaken 5).2 hfirst
  have hlow := (hdown (5 : Fin 16).val 5 (by decide)).2 hkey
  exact ⟨by decide, (hdown (-11) 5 (by decide)).2 hkey, hlow, hnow, hstays 5 [.release 5] hnow (by decide) (by decide),
    hheld 5 [.press 5] hlow (by decide) (by decide)⟩

end ChipEight
