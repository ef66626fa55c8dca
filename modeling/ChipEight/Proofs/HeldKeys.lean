import ChipEight.Proofs.Tracing
import ChipEight.Proofs.WindowHost
import Mathlib.Data.List.Induction

/-!
# Keys that are held

Hosts alone move the keys of the keypad: a press and a release move one key, a reset moves all, and nothing else moves
any (`Machine.down_after`). In a window this makes a key of the keypad follow the one symbol that stands for it: it is
down while, of the presses and releases of that symbol and the losses of the keyboard, a press came last
(`Event.Held`, `Window.down_iff`). Programs see it by the two skips on keys, in whatever cycle they come to them.
-/

namespace ChipEight

/-! ### Keys under a host -/

/-- Whether a key is down after a step, by whether it was down before. -/
def HostStep.moved (key : Fin 16) (down : Bool) : HostStep → Bool
  | press k => if key = k then true else down
  | release k => if key = k then false else down
  | resetKeys => false
  | _ => down

namespace Machine

theorem down_cyclesOf (m : Machine) (n : Nat) : (m.cyclesOf n).1.keypad.down = m.keypad.down := by
  have hcycle : ∀ now : Machine, now.keypad.down = m.keypad.down → now.cycle.1.keypad.down = m.keypad.down :=
    fun now h => now.lasting_cycle.2.1.trans h
  exact cyclesOf_induction hcycle rfl n

theorem down_effect (m : Machine) (step : HostStep) (key : Fin 16) :
    (step.effect m).keypad.down.get key = step.moved key (m.keypad.down.get key) := by
  cases step with
  | press k | release k => exact get_setAt _ _ _ _
  | resetKeys => simp [HostStep.effect, Keypad.reset, HostStep.moved, get_eq_getElem]
  | load rom =>
    simp only [HostStep.effect, loadRom, HostStep.moved]
    cases m.memory.loadRom rom <;> rfl
  | cycle => exact congrArg (·.get key) m.lasting_cycle.2.1
  | frame n => exact congrArg (·.get key) (m.tick.down_cyclesOf n.toNat)
  | _ => rfl

theorem down_after (m : Machine) (steps : List HostStep) (key : Fin 16) :
    (m.after steps).keypad.down.get key = steps.foldl (HostStep.moved key) (m.keypad.down.get key) := by
  induction steps generalizing m with
  | nil => rfl
  | cons step steps ih =>
    rw [List.foldl_cons, ← m.down_effect step key]
    exact ih (step.effect m)

/-! ### Skips -/

/-- A cycle that reads a skip tells by the counter whether the skip takes place. -/
theorem cycle_of_skip {m : Machine} {i : Instruction} (hreads : m.Reads i.word) (hproper : i.Proper) {taken : Bool}
    (hexecute : m.count.pass.execute i = .ok (m.count.pass.skipIf taken)) :
    m.cycle.2 = .ok (.known i) ∧ (m.cycle.1.counter = m.counter + 4 ↔ taken = true) ∧
      (m.cycle.1.counter = m.counter + 2 ↔ ¬ taken = true) := by
  rw [cycle_of_reads hreads hproper, hexecute]
  refine ⟨rfl, ?_⟩
  dsimp only
  rw [counter_pass_skipIf]
  cases taken with
  | true => exact ⟨iff_of_true rfl rfl, iff_of_false (by simp) (by simp)⟩
  | false => exact ⟨iff_of_false (by simp) (by simp), iff_of_true rfl (by simp)⟩

end Machine

/-! ### Symbols that are held -/

/-- Of the presses and releases of a symbol and the losses of the keyboard, a press came last. -/
def Event.Held (events : List Event) (symbol : Nat) : Prop :=
  ∃ earlier later, events = earlier ++ .keyDown symbol :: later ∧ .keyUp symbol ∉ later ∧ .deactivate ∉ later

theorem Event.held_concat {events : List Event} {e : Event} {symbol : Nat} :
    Held (events ++ [e]) symbol ↔ e = .keyDown symbol ∨ Held events symbol ∧ e ≠ .keyUp symbol ∧ e ≠ .deactivate :=
  since_concat

theorem Event.not_held_nil (symbol : Nat) : ¬ Held [] symbol := by
  rintro ⟨earlier, later, heq, -, -⟩
  exact absurd heq.symm (by simp)

namespace Window

variable {w : Window}

/-- The event moves a key: a symbol that stands for the key goes down or up, or all keys go up. -/
def Moves (w : Window) (key : Fin 16) : Event → Prop
  | .keyDown symbol | .keyUp symbol => w.keymap.key? symbol = some (key.val : Int)
  | .deactivate => True
  | _ => False

theorem Moves.of_sameSettings {key : Fin 16} {e : Event} {after : Window} (hsame : w.SameSettings after) :
    after.Moves key e ↔ w.Moves key e := by
  unfold Moves
  rw [hsame.keymap]

theorem held_of_not_moves {key : Fin 16} {e : Event} {events : List Event} {symbol : Nat}
    (hsymbol : w.keymap.key? symbol = some (key.val : Int)) (he : ¬ w.Moves key e) :
    Event.Held (events ++ [e]) symbol ↔ Event.Held events symbol := by
  rw [Event.held_concat]
  constructor
  · rintro (rfl | ⟨hheld, -, -⟩)
    · exact absurd hsymbol he
    · exact hheld
  · intro hheld
    refine .inr ⟨hheld, ?_, ?_⟩
    · rintro rfl
      exact he hsymbol
    · rintro rfl
      exact he trivial

/-- What becomes of a key by what an event makes the window do. -/
private theorem down_handle (h : w.Keyed) {e : Event} (he : e.isCommand = false) (key : Fin 16) :
    (w.handle e).window.machine.keypad.down.get key =
      (w.hostSteps e).foldl (HostStep.moved key) (w.machine.keypad.down.get key) := by
  unfold machine
  rw [session_handle h he, machine_after, Machine.down_after]

private theorem moved_keySteps (w : Window) (symbol : Nat) (step : Fin 16 → HostStep) (key : Fin 16) (down : Bool) :
    (w.keySteps symbol step).foldl (HostStep.moved key) down =
      match w.keymap.key? symbol with
      | some k => (step (Keypad.lowKey k)).moved key down
      | none => down := by
  unfold keySteps
  cases w.keymap.key? symbol <;> rfl

private theorem moved_keyDown (w : Window) (symbol : Nat) (key : Fin 16) (down : Bool) :
    (w.hostSteps (.keyDown symbol)).foldl (HostStep.moved key) down =
      (w.keySteps symbol .press).foldl (HostStep.moved key) down := by
  rw [hostSteps, List.foldl_append]
  split <;> rfl

private theorem ne_lowKey (h : w.Keyed) {symbol : Nat} {k : Int} (hk : w.keymap.key? symbol = some k) {key : Fin 16}
    (hmoves : w.keymap.key? symbol ≠ some (key.val : Int)) : key ≠ Keypad.lowKey k := by
  rintro rfl
  rw [Keypad.lowKey_val (h symbol k hk)] at hmoves
  exact hmoves hk

theorem down_of_not_moves (h : w.Keyed) {e : Event} (he : e.isCommand = false) {key : Fin 16}
    (hmoves : ¬ w.Moves key e) : (w.handle e).window.machine.keypad.down.get key = w.machine.keypad.down.get key := by
  rw [down_handle h he]
  cases e with
  | keyDown symbol =>
    rw [moved_keyDown, moved_keySteps]
    cases hk : w.keymap.key? symbol with
    | none => rfl
    | some k => exact if_neg (ne_lowKey h hk hmoves)
  | keyUp symbol =>
    rw [hostSteps, moved_keySteps]
    cases hk : w.keymap.key? symbol with
    | none => rfl
    | some k => exact if_neg (ne_lowKey h hk hmoves)
  | deactivate => exact absurd trivial hmoves
  | frame | draw =>
    rw [hostSteps]
    split <;> rfl
  | rates seconds | beepEnded beep | command c => rfl

theorem down_of_keyDown (h : w.Keyed) {symbol : Nat} {key : Fin 16}
    (hsymbol : w.keymap.key? symbol = some (key.val : Int)) :
    (w.handle (.keyDown symbol)).window.machine.keypad.down.get key = true := by
  rw [down_handle h rfl, moved_keyDown, moved_keySteps, hsymbol]
  exact if_pos (Keypad.lowKey_natCast key).symm

theorem not_down_of_keyUp (h : w.Keyed) {symbol : Nat} {key : Fin 16}
    (hsymbol : w.keymap.key? symbol = some (key.val : Int)) :
    (w.handle (.keyUp symbol)).window.machine.keypad.down.get key = false := by
  rw [down_handle h rfl, hostSteps, moved_keySteps, hsymbol]
  exact if_pos (Keypad.lowKey_natCast key).symm

/-- A key is down exactly if a symbol is held that stands for it. -/
theorem down_iff (h : w.Keyed)
    (hunique : ∀ symbol symbol' key, w.keymap.key? symbol = some key → w.keymap.key? symbol' = some key →
      symbol = symbol')
    (hup : ∀ key : Fin 16, w.machine.keypad.down.get key = false) {events : List Event}
    (hevents : ∀ e ∈ events, e.isCommand = false) (key : Fin 16) :
    (w.after events).machine.keypad.down.get key = true ↔
      ∃ symbol, w.keymap.key? symbol = some (key.val : Int) ∧ Event.Held events symbol := by
  induction events using List.reverseRecOn with
  | nil =>
    refine iff_of_false (Bool.eq_false_iff.1 (hup key)) ?_
    rintro ⟨symbol, -, hheld⟩
    exact Event.not_held_nil symbol hheld
  | append_singleton events e ih =>
    rw [List.forall_mem_append] at hevents
    have he := hevents.2 e List.mem_cons_self
    have hsame := w.sameSettings_after events
    have hkeyed := h.of_sameSettings hsame
    have hafter : w.after (events ++ [e]) = ((w.after events).handle e).window := w.after_append events [e]
    rw [hafter]
    by_cases hmoves : w.Moves key e
    · have hnow := (Moves.of_sameSettings hsame).2 hmoves
      cases e with
      | keyDown symbol =>
        exact iff_of_true (down_of_keyDown hkeyed hnow) ⟨symbol, hmoves, Event.held_concat.2 (.inl rfl)⟩
      | keyUp symbol =>
        refine iff_of_false (Bool.eq_false_iff.1 (not_down_of_keyUp hkeyed hnow)) ?_
        rintro ⟨other, hother, hheld⟩
        -- no other symbol than the one that went up stands for the key
        obtain rfl := hunique other symbol _ hother hmoves
        rcases Event.held_concat.1 hheld with hdown | ⟨-, hnup, -⟩
        · cases hdown
        · exact hnup rfl
      | deactivate =>
        refine iff_of_false ?_ ?_
        · simp [handle, deactivate, machine, withMachine, Session.withMachine, Keypad.reset, get_eq_getElem]
        · rintro ⟨symbol, -, hheld⟩
          rcases Event.held_concat.1 hheld with hdown | ⟨-, -, haway⟩
          · cases hdown
          · exact haway rfl
      | _ => exact absurd hmoves id
    · rw [down_of_not_moves hkeyed he fun hnow => hmoves ((Moves.of_sameSettings hsame).1 hnow), ih hevents.1]
      refine exists_congr fun symbol => and_congr_right fun hsymbol => ?_
      exact (held_of_not_moves hsymbol hmoves).symm

end Window

open Micro Window

/-- In a window that was opened on a machine with nothing but programs loaded, a key is down exactly if a symbol is
held that stands for it. In the cycles that come next, however many, the two skips on keys go by this for the key that
the low digit of VX names. Events that do not move a key leave it as it is. Bare cells have the same keys down. -/
theorem held_keys_reach_programs (dialect : Dialect) {layout : Layout} {keyboard : Keyboard}
    (hlayout : layout.Usable keyboard.symbol?) (random pitches : Wheel) (logging : Bool) (roms : List (List UInt8))
    (cyclesPerFrame : Int) {scale : Int} (hscale : 0 ≤ scale) :
    let s := (Session.fresh dialect layout random logging).after (roms.map .load)
    let cells := (Store.fresh dialect layout random logging).after (roms.map .load)
    ∃ w, ofSession s cyclesPerFrame scale pitches keyboard = .ok w ∧
      Keymap.ofLayout layout keyboard.symbol? = .ok w.keymap ∧
      ∀ events : List Event, (∀ e ∈ events, e.isCommand = false) →
        let now := w.after events
        let store := cells.after (w.hosted events)
        let pressed := fun key : Fin 16 =>
          ∃ symbol, w.keymap.key? symbol = some (key.val : Int) ∧ Event.Held events symbol
        (∀ key, now.machine.keypad.down.get key = true ↔ pressed key) ∧
        (∀ steps : List HostStep, (∀ step ∈ steps, step.runsCycles = true) → ∀ b ∈ now.machine.begun steps,
          ∀ x key : Fin 16, key.val = (b.v x).toNat % 16 →
            (b.Reads (0xE09E + 0x100 * x) →
              b.cycle.2 = .ok (.known (.skipIfKey x)) ∧
                (b.cycle.1.counter = b.counter + 4 ↔ pressed key) ∧
                (b.cycle.1.counter = b.counter + 2 ↔ ¬ pressed key)) ∧
            (b.Reads (0xE0A1 + 0x100 * x) →
              b.cycle.2 = .ok (.known (.skipUnlessKey x)) ∧
                (b.cycle.1.counter = b.counter + 4 ↔ ¬ pressed key) ∧
                (b.cycle.1.counter = b.counter + 2 ↔ pressed key))) ∧
        (∀ e : Event, e.isCommand = false → ∀ key, ¬ w.Moves key e →
          (now.handle e).window.machine.keypad.down.get key = now.machine.keypad.down.get key) ∧
        Mirrors store now.session
          ((Session.fresh dialect layout random logging).printed (roms.map .load ++ w.hosted events)) ∧
        ∀ key : Fin 16, (run (Micro.keyDown key.val) store).1 = .ok true ↔ pressed key := by
  intro s cells
  have hkeypad : s.machine.keypad = { layout := layout } := Session.keypad_after_loads _ roms
  obtain ⟨w, hopen, hstarts⟩ :=
    exists_starts (congrArg Keypad.layout hkeypad) hlayout cyclesPerFrame hscale pitches
  have hup : ∀ key : Fin 16, w.machine.keypad.down.get key = false := by
    intro key
    rw [machine, hstarts.session, hkeypad]
    simp [get_eq_getElem]
  refine ⟨w, hopen, hstarts.keymap, fun events hevents => ?_⟩
  intro now store pressed
  have hdown : ∀ key, now.machine.keypad.down.get key = true ↔ pressed key :=
    down_iff hstarts.keyed (fun _ _ _ => Keymap.symbol_unique hstarts.keymap) hup hevents
  obtain ⟨-, hmirrors⟩ := reachable_after hstarts.keyed hstarts.session hevents
  refine ⟨hdown, fun steps hsteps b hb x key hkey => ?_, fun e he key hmoves => ?_, hmirrors, fun key => ?_⟩
  · have hkeeps : b.keypad.down = now.machine.keypad.down :=
      Machine.begun_induction_of (P := fun m => m.keypad.down = now.machine.keypad.down)
        (fun m h => m.lasting_cycle.2.1.trans h) (fun _ h => h) rfl hsteps b hb
    have hread : b.keypad.isDown (b.v x).toNat = true ↔ pressed key := by
      have hlow : Keypad.lowKey ((b.v x).toNat : Int) = key := Fin.ext (by rw [hkey]; rfl)
      rw [Keypad.isDown, hlow, hkeeps]
      exact hdown key
    refine ⟨fun hreads => ?_, fun hreads => ?_⟩
    · obtain ⟨hknown, hskips, hgoes⟩ := Machine.cycle_of_skip (i := .skipIfKey x) hreads trivial rfl
      change _ ↔ b.keypad.isDown (b.v x).toNat = true at hskips
      change _ ↔ ¬ b.keypad.isDown (b.v x).toNat = true at hgoes
      rw [hread] at hskips hgoes
      exact ⟨hknown, hskips, hgoes⟩
    · obtain ⟨hknown, hskips, hgoes⟩ := Machine.cycle_of_skip (i := .skipUnlessKey x) hreads trivial rfl
      change _ ↔ (!b.keypad.isDown (b.v x).toNat) = true at hskips
      change _ ↔ ¬ (!b.keypad.isDown (b.v x).toNat) = true at hgoes
      rw [Bool.not_eq_true', ← Bool.not_eq_true, hread] at hskips hgoes
      exact ⟨hknown, hskips, hgoes.trans not_not⟩
  · have hsame := w.sameSettings_after events
    have hkeyed := hstarts.keyed.of_sameSettings hsame
    exact down_of_not_moves hkeyed he fun hnow => hmoves ((Moves.of_sameSettings hsame).1 hnow)
  · obtain ⟨r, hcells, -⟩ := hmirrors
    have hstore : store = now.session.machine.bare r := hcells
    rw [hstore, run_keyDown, Keypad.isDown, Keypad.lowKey_natCast, ← hdown key]
    exact ⟨Except.ok.inj, congrArg Except.ok⟩

/-- The key for 0 is held while another one goes down and up; a program that asks for the key in V0 skips. -/
theorem held_keys_reach_programs_skip :
    let events : List Event := [.keyDown 0x78, .keyDown 0x31, .frame, .keyUp 0x31]
    Layout.standard.Usable Keyboard.usual.symbol? ∧ (0 : Int) ≤ 1 ∧
      ∃ w, ofSession ((Session.fresh Dialect.modern Layout.standard {} false).after [.load [0xE0, 0x9E]]) 0 1 {} =
          .ok w ∧
        (∀ e ∈ events, e.isCommand = false) ∧ (w.after events).machine.Reads (0xE09E + 0x100 * (0 : Fin 16)) ∧
        (w.after events).machine.cycle.1.counter = (w.after events).machine.counter + 4 := by
  intro events
  obtain ⟨w, hopen, -, hevents⟩ := held_keys_reach_programs Dialect.modern Keymap.standard_usable {} {} false
    [[0xE0, 0x9E]] 0 (by decide : (0 : Int) ≤ 1)
  have hown : ∀ e ∈ events, e.isCommand = false := by simp [events, Event.isCommand]
  have hnow : (ofSession ((Session.fresh Dialect.modern Layout.standard {} false).after [.load [0xE0, 0x9E]]) 0 1
      {}).map (fun w => (decide ((w.after events).machine.Reads 0xE09E), (w.after events).machine.v 0,
        w.keymap.key? 0x78)) = .ok (true, 0, some 0) := by
    decide +kernel
  obtain ⟨opened, hok, hfields⟩ := Except.map_eq_ok hnow
  obtain rfl : w = opened := Except.ok.inj (hopen.symm.trans hok)
  obtain ⟨hreads, hzero, hsymbol⟩ : _ ∧ _ ∧ _ := by simpa only [Prod.mk.injEq, decide_eq_true_eq] using hfields
  obtain ⟨-, hskips, -⟩ := hevents events hown
  have hheld : Event.Held events 0x78 := ⟨[], [.keyDown 0x31, .frame, .keyUp 0x31], rfl, by simp, by simp⟩
  obtain ⟨hskip, -⟩ := hskips [.cycle] (by decide) (w.after events).machine List.mem_cons_self 0 0 (by rw [hzero]; rfl)
  obtain ⟨-, hcounter, -⟩ := hskip hreads
  exact ⟨Keymap.standard_usable, by decide, w, hopen, hown, hreads, hcounter.2 ⟨0x78, hsymbol, hheld⟩⟩

end ChipEight
