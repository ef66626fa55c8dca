import ChipEight.Proofs.Drawing
import ChipEight.Proofs.Effects
import ChipEight.Window.Event

/-!
# Windows over time

`Window.after` is the window after a list of events. An event works on few parts of a window: only drawing makes
another picture, only frames and the ends of beeps touch the sound, and the scale stays (`Window.confined_handle`).
What happens to the screen of the machine meanwhile is said by `Screen.Marks`: unless the screen is marked shown, it is
marked changed whenever it is another one than before (`Window.marks_handle`).
-/

namespace ChipEight

namespace Window

def after (w : Window) (events : List Event) : Window :=
  events.foldl (fun w e => (w.handle e).window) w

theorem after_append (w : Window) (first second : List Event) :
    w.after (first ++ second) = (w.after first).after second :=
  List.foldl_append

theorem after_induction_of {P : Window → Prop} {allowed : Event → Prop}
    (hhandle : ∀ (w : Window) (e : Event), P w → allowed e → P (w.handle e).window) {w : Window} (h : P w)
    {events : List Event} (hevents : ∀ e ∈ events, allowed e) : P (w.after events) := by
  unfold after
  induction events generalizing w with
  | nil => exact h
  | cons e events ih =>
    rw [List.forall_mem_cons] at hevents
    exact ih (hhandle w e h hevents.1) hevents.2

/-! ### Opening a window -/

/-- A window as it is opened: dark and silent. -/
structure Opened (s : Session) (side : Nat) (w : Window) : Prop where
  session : w.session = s
  scale : w.scale = side
  picture : w.picture = Picture.render w.scale {}
  beeping : w.beeping = false
  beeps : w.beeps = 0

theorem opened_of_ofSession {w : Window} {s : Session} {cyclesPerFrame scale : Int} {pitches : Wheel}
    {keyboard : Keyboard} (h : ofSession s cyclesPerFrame scale pitches keyboard = .ok w) :
    w.Opened s scale.toNat := by
  unfold ofSession at h
  cases hkeys : Keymap.ofLayout s.machine.keypad.layout keyboard.symbol? with
  | error fault =>
    rw [hkeys] at h
    cases h
  | ok keymap =>
    rw [hkeys] at h
    dsimp only at h
    split at h
    · cases h
    · cases h
      exact ⟨rfl, rfl, rfl, rfl, rfl⟩

/-! ### What events may change -/

/-- The parts that an event leaves alone, unless it is one of the few that work on them. -/
structure Confined (w : Window) (e : Event) (after : Window) : Prop where
  scale : after.scale = w.scale
  picture : e = .draw ∨ after.picture = w.picture
  sound : e = .frame ∨ (∃ beep, e = .beepEnded beep) ∨ after.beeping = w.beeping ∧ after.beeps = w.beeps

variable {w : Window}

private theorem confined_of_eq {e : Event} {after : Window} (hscale : after.scale = w.scale)
    (hpicture : after.picture = w.picture) (hbeeping : after.beeping = w.beeping) (hbeeps : after.beeps = w.beeps) :
    w.Confined e after :=
  ⟨hscale, .inr hpicture, .inr (.inr ⟨hbeeping, hbeeps⟩)⟩

theorem passKey_eq {symbol : Nat} {change : Keypad → Int → Except Fault Keypad} {passed : Window}
    (h : w.passKey symbol change = .ok passed) :
    ∃ keypad, passed = w.withMachine { w.machine with keypad := keypad } := by
  unfold passKey at h
  cases hkey : w.keymap.key? symbol with
  | none =>
    rw [hkey] at h
    cases h
    exact ⟨w.machine.keypad, rfl⟩
  | some key =>
    rw [hkey] at h
    obtain ⟨keypad, -, rfl⟩ := Except.map_eq_ok h
    exact ⟨keypad, rfl⟩

/-- What a key that goes down does, whether it is one of the keypad or not. -/
theorem keyDown_eq (w : Window) (symbol : Nat) :
    ∃ keypad logging stopped, (w.keyDown symbol).window =
      { w with
        session := { machine := { w.machine with keypad := keypad }, logging := logging }
        stopped := stopped } := by
  unfold keyDown
  dsimp only
  split
  · exact ⟨w.machine.keypad, w.session.logging, _, rfl⟩
  · rename_i passed hpass
    obtain ⟨keypad, rfl⟩ := passKey_eq hpass
    split
    · exact ⟨keypad, !w.session.logging, _, rfl⟩
    · exact ⟨keypad, w.session.logging, _, rfl⟩

theorem keyUp_eq (w : Window) (symbol : Nat) :
    ∃ keypad, (w.keyUp symbol).window = w.withMachine { w.machine with keypad := keypad } := by
  unfold keyUp
  split
  · exact ⟨w.machine.keypad, rfl⟩
  · rename_i passed hpass
    exact passKey_eq hpass

/-- What a frame leaves of the window: the machine has run, or the window was stopped before. -/
structure FrameKeeps (w after : Window) : Prop where
  machine : after.machine = w.machine ∨
    after.machine = (w.machine.frame w.session.logging w.cyclesPerFrame).machine
  scale : after.scale = w.scale
  picture : after.picture = w.picture

theorem frameKeeps (w : Window) : w.FrameKeeps w.frame.window := by
  unfold frame
  dsimp only
  split
  · exact ⟨.inl rfl, rfl, rfl⟩
  · split
    · split <;> exact ⟨.inr rfl, rfl, rfl⟩
    · unfold sound
      split
      · exact ⟨.inr rfl, rfl, rfl⟩
      · split <;> exact ⟨.inr rfl, rfl, rfl⟩

theorem confined_handle (w : Window) (e : Event) : w.Confined e (w.handle e).window := by
  cases e with
  | frame => exact ⟨w.frameKeeps.scale, .inr w.frameKeeps.picture, .inl rfl⟩
  | rates seconds =>
    simp only [handle, rates]
    split <;> exact confined_of_eq rfl rfl rfl rfl
  | draw =>
    simp only [handle, draw]
    split <;> exact ⟨rfl, .inl rfl, .inr (.inr ⟨rfl, rfl⟩)⟩
  | keyDown symbol =>
    obtain ⟨keypad, logging, stopped, hdown⟩ := w.keyDown_eq symbol
    rw [handle, hdown]
    exact confined_of_eq rfl rfl rfl rfl
  | keyUp symbol =>
    obtain ⟨keypad, hup⟩ := w.keyUp_eq symbol
    rw [handle, hup]
    exact confined_of_eq rfl rfl rfl rfl
  | beepEnded beep =>
    simp only [handle, beepEnded]
    split <;> exact ⟨rfl, .inr rfl, .inr (.inl ⟨beep, rfl⟩)⟩
  | deactivate | command c => exact confined_of_eq rfl rfl rfl rfl

end Window

/-! ### The mark of the screen -/

namespace Screen

/-- A screen that is not marked as changed is the one that it was. -/
def Marks (before after : Screen) : Prop := after.dirty = false → after = before

theorem Marks.refl (s : Screen) : s.Marks s := fun _ => rfl

theorem Marks.trans {s t u : Screen} (hst : s.Marks t) (htu : t.Marks u) : s.Marks u := by
  intro hclean
  have hut := htu hclean
  subst hut
  exact hst hclean

theorem marks_of_dirty {before after : Screen} (h : after.dirty = true) : before.Marks after :=
  fun hclean => absurd h (Bool.eq_false_iff.1 hclean)

/-- Toggling no pixel does not mark the screen, and does not change it. -/
theorem marks_toggle (s : Screen) (p : Pattern) : s.Marks (s.toggle p) := by
  intro hclean
  have hmarks : (s.dirty || p.any (· ≠ 0)) = false := hclean
  rw [Bool.or_eq_false_iff] at hmarks
  apply ext_lit
  · intro x y
    have hdark : (p.get y).getMsb x = false := by
      by_contra hset
      rw [Bool.not_eq_false] at hset
      exact absurd ((any_iff p).2 ⟨x, y, hset⟩) (Bool.eq_false_iff.1 hmarks.2)
    rw [lit_toggle, hdark, Bool.xor_false]
  · exact hclean.trans hmarks.1.symm

theorem marks_set {s painted : Screen} {x y : Int} {on : Bool} (h : s.set x y on = .ok painted) : s.Marks painted := by
  unfold set at h
  cases hy : position 0 32 y with
  | error fault =>
    rw [hy] at h
    cases h
  | ok row =>
    cases hx : position 1 64 x with
    | error fault =>
      rw [hy, hx] at h
      cases h
    | ok column =>
      rw [hy, hx] at h
      cases h
      exact marks_of_dirty rfl

end Screen

namespace Machine

theorem marks_execute {m after : Machine} {i : Instruction} (hi : m.execute i = .ok after) :
    m.screen.Marks after.screen := by
  rcases (confined_of_execute hi).screen with rfl | ⟨x, y, n, rfl⟩ | hsame
  · cases hi
    exact Screen.marks_of_dirty rfl
  · obtain ⟨sprite, -, rfl⟩ := Except.map_eq_ok hi
    exact m.screen.marks_toggle _
  · rw [hsame]
    exact Screen.Marks.refl _

theorem marks_cycle (m : Machine) : m.screen.Marks m.cycle.1.screen := by
  rcases m.cycle_cases with ⟨fault, hc⟩ | ⟨op, hc⟩ | ⟨i, after, -, -, hi, hc⟩
  · rw [hc]
    exact Screen.Marks.refl _
  · rw [hc]
    exact Screen.Marks.refl _
  · have hmarks : m.count.pass.screen.Marks after.screen := marks_execute hi
    rw [hc]
    exact hmarks

theorem marks_run (m : Machine) (logging : Bool) (n : Int) : m.screen.Marks (m.run logging n).machine.screen := by
  rw [run_machine]
  have hcycle : ∀ now : Machine, m.screen.Marks now.screen → m.screen.Marks now.cycle.1.screen :=
    fun now h => h.trans now.marks_cycle
  exact cyclesOf_induction hcycle (Screen.Marks.refl m.screen) n.toNat

end Machine

namespace Session

theorem marks_attempt {s : Session} {result : Except Fault Machine}
    (h : ∀ m, result = .ok m → s.machine.screen.Marks m.screen) :
    s.machine.screen.Marks (s.attempt result).session.machine.screen := by
  cases hresult : result with
  | error fault => exact Screen.Marks.refl _
  | ok m => exact h m hresult

theorem screen_load (s : Session) (rom : List UInt8) :
    (s.load rom).session.machine.screen = s.machine.screen := by
  unfold load Machine.loadRom
  cases s.machine.memory.loadRom rom <;> rfl

theorem marks_perform (s : Session) {c : Command} (hc : c ≠ .markShown) :
    s.machine.screen.Marks (s.perform c).session.machine.screen := by
  cases c with
  | markShown => exact absurd rfl hc
  | cycle => exact s.machine.marks_run s.logging 1
  | run n => exact s.machine.marks_run s.logging n
  | frame n => exact s.machine.tick.marks_run s.logging n
  | clearScreen => exact Screen.marks_of_dirty rfl
  | setPixel x y on =>
    refine marks_attempt fun m hm => ?_
    obtain ⟨painted, hset, rfl⟩ := Except.map_eq_ok hm
    exact Screen.marks_set hset
  | writeMemory address values | press key | release key | push address =>
    refine marks_attempt fun m hm => ?_
    obtain ⟨-, -, rfl⟩ := Except.map_eq_ok hm
    exact Screen.Marks.refl _
  | load rom =>
    rw [perform, screen_load]
    exact Screen.Marks.refl _
  | pop =>
    simp only [perform, pop]
    cases s.machine.stack.pop <;> exact Screen.Marks.refl _
  | _ => exact Screen.Marks.refl _

end Session

namespace Event

/-- The event marks the screen shown without showing it. -/
def marksShown : Event → Bool
  | .command .markShown => true
  | _ => false

end Event

theorem Window.marks_handle (w : Window) {e : Event} (hdraw : e ≠ .draw) (he : e.marksShown = false) :
    w.machine.screen.Marks (w.handle e).window.machine.screen := by
  cases e with
  | draw => exact absurd rfl hdraw
  | frame =>
    rcases w.frameKeeps.machine with hsame | hran
    · rw [handle, hsame]
      exact Screen.Marks.refl _
    · rw [handle, hran]
      exact w.machine.tick.marks_run w.session.logging w.cyclesPerFrame
  | keyDown symbol =>
    obtain ⟨keypad, logging, stopped, hdown⟩ := w.keyDown_eq symbol
    rw [handle, hdown]
    exact Screen.Marks.refl _
  | keyUp symbol =>
    obtain ⟨keypad, hup⟩ := w.keyUp_eq symbol
    rw [handle, hup]
    exact Screen.Marks.refl _
  | rates seconds =>
    simp only [handle, rates]
    split <;> exact Screen.Marks.refl _
  | beepEnded beep =>
    simp only [handle, beepEnded]
    split <;> exact Screen.Marks.refl _
  | deactivate => exact Screen.Marks.refl _
  | command c =>
    refine w.session.marks_perform fun hc => ?_
    subst hc
    cases he

end ChipEight
