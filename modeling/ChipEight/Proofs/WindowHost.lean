import ChipEight.Proofs.Calls
import ChipEight.Proofs.Keymaps
import ChipEight.Proofs.WindowRuns

/-!
# Windows as hosts

A window is a host of its session: each event comes to at most two host steps (`Window.hostSteps`), and of the session
nothing changes but by these steps (`Window.session_after`). For that the key map has to lead to keys of the keypad,
which it does if the layout is usable (`Window.exists_starts`): then no key is refused.
-/

namespace ChipEight

/-- The event is a command to the session, and not one of the window's own. -/
def Event.isCommand : Event → Bool
  | command _ => true
  | _ => false

namespace Keypad

theorem lowKey_val {key : Int} (h : 0 ≤ key ∧ key < 16) : ((lowKey key).val : Int) = key := by
  unfold lowKey
  dsimp only
  omega

theorem lowKey_natCast (key : Fin 16) : lowKey key.val = key :=
  Fin.ext (Int.ofNat.inj (lowKey_val ⟨by omega, by omega⟩))

end Keypad

namespace Window

/-- The symbols that the window passes on stand for keys of the keypad. -/
def Keyed (w : Window) : Prop := ∀ symbol key, w.keymap.key? symbol = some key → 0 ≤ key ∧ key < 16

/-- A step on the key that a symbol stands for, if it stands for one. -/
def keySteps (w : Window) (symbol : Nat) (step : Fin 16 → HostStep) : List HostStep :=
  (w.keymap.key? symbol).toList.map fun key => step (Keypad.lowKey key)

/-- What an event makes the window do with its session. -/
def hostSteps (w : Window) : Event → List HostStep
  | .frame => if w.stopped then [] else [.frame w.cyclesPerFrame]
  | .draw => if w.machine.screen.dirty then [.markShown] else []
  | .deactivate => [.resetKeys]
  | .keyDown symbol => w.keySteps symbol .press ++ if symbol = w.keyboard.f1 then [.toggleLogging] else []
  | .keyUp symbol => w.keySteps symbol .release
  | .rates _ | .beepEnded _ | .command _ => []

/-- What the window does with its session in the course of some events. -/
def hosted (w : Window) : List Event → List HostStep
  | [] => []
  | e :: events => w.hostSteps e ++ (w.handle e).window.hosted events

/-- The lines that the window prints in the course of some events. -/
def printed (w : Window) : List Event → List String
  | [] => []
  | e :: events => (w.handle e).lines.toList ++ (w.handle e).window.printed events

/-! ### Settings -/

/-- What a window is opened with and keeps. -/
structure SameSettings (w after : Window) : Prop where
  keyboard : after.keyboard = w.keyboard
  keymap : after.keymap = w.keymap
  cyclesPerFrame : after.cyclesPerFrame = w.cyclesPerFrame

theorem sameSettings_sound (w : Window) : w.SameSettings (sound w).1 := by
  unfold sound
  split
  · exact ⟨rfl, rfl, rfl⟩
  · split <;> exact ⟨rfl, rfl, rfl⟩

theorem sameSettings_frame (w : Window) : w.SameSettings w.frame.window := by
  unfold frame
  dsimp only
  split
  · exact ⟨rfl, rfl, rfl⟩
  · split
    · split <;> exact ⟨rfl, rfl, rfl⟩
    · exact { sameSettings_sound _ with }

theorem sameSettings_handle (w : Window) (e : Event) : w.SameSettings (w.handle e).window := by
  cases e with
  | frame => exact w.sameSettings_frame
  | rates seconds =>
    simp only [handle, rates]
    split <;> exact ⟨rfl, rfl, rfl⟩
  | draw =>
    simp only [handle, draw]
    split <;> exact ⟨rfl, rfl, rfl⟩
  | keyDown symbol =>
    obtain ⟨keypad, logging, stopped, hdown⟩ := w.keyDown_eq symbol
    rw [handle, hdown]
    exact ⟨rfl, rfl, rfl⟩
  | keyUp symbol =>
    obtain ⟨keypad, hup⟩ := w.keyUp_eq symbol
    rw [handle, hup]
    exact ⟨rfl, rfl, rfl⟩
  | beepEnded beep =>
    simp only [handle, beepEnded]
    split <;> exact ⟨rfl, rfl, rfl⟩
  | deactivate | command c => exact ⟨rfl, rfl, rfl⟩

theorem sameSettings_after (w : Window) (events : List Event) : w.SameSettings (w.after events) := by
  have hhandle : ∀ (now : Window) (e : Event), w.SameSettings now → True → w.SameSettings (now.handle e).window :=
    fun now e h _ =>
      ⟨(now.sameSettings_handle e).keyboard.trans h.keyboard, (now.sameSettings_handle e).keymap.trans h.keymap,
        (now.sameSettings_handle e).cyclesPerFrame.trans h.cyclesPerFrame⟩
  exact after_induction_of hhandle ⟨rfl, rfl, rfl⟩ fun _ _ => trivial

theorem Keyed.of_sameSettings {w after : Window} (h : w.Keyed) (hsame : w.SameSettings after) : after.Keyed := by
  unfold Keyed
  rw [hsame.keymap]
  exact h

/-! ### Frames -/

variable {w : Window}

/-- The line for a fault that stops a window. -/
def stopLine (fault : Fault) : String := "Emulation error: " ++ fault.message

theorem frame_of_stopped (h : w.stopped = true) : w.frame = { window := w } := by rw [frame, if_pos h]

private theorem answer_frame (s : Session) (n : Int) :
    (s.perform (.frame n)).answer = match (s.machine.frame s.logging n).fault with
      | some fault => .error fault
      | none => .ok .nothing := rfl

/-- A frame that a fault of the program ends stops the window. -/
theorem frame_of_error (h : w.stopped = false) {fault : Fault}
    (hfault : (w.session.perform (.frame w.cyclesPerFrame)).answer = .error fault)
    (hstops : fault.stopsProgram = true) :
    w.frame =
      { window := { w with session := (w.session.perform (.frame w.cyclesPerFrame)).session, stopped := true }
        requests := [.close]
        lines := (w.session.perform (.frame w.cyclesPerFrame)).lines.push (stopLine fault) } := by
  have hrun : (w.machine.frame w.session.logging w.cyclesPerFrame).fault = some fault := by
    rw [answer_frame] at hfault
    split at hfault
    · next hsome => exact hsome.trans (congrArg some (Except.error.inj hfault))
    · cases hfault
  unfold frame
  rw [if_neg (Bool.eq_false_iff.1 h)]
  dsimp only
  rw [hrun]
  dsimp only
  rw [if_pos hstops]
  rfl

private theorem sound_eq (w : Window) : (sound w).1.session = w.session ∧ (sound w).1.stopped = w.stopped := by
  unfold sound
  split
  · exact ⟨rfl, rfl⟩
  · split <;> exact ⟨rfl, rfl⟩

theorem session_frame (h : w.stopped = false) :
    w.frame.window.session = (w.session.perform (.frame w.cyclesPerFrame)).session := by
  unfold frame
  rw [if_neg (Bool.eq_false_iff.1 h)]
  dsimp only
  split
  · split <;> rfl
  · exact (sound_eq _).1

/-- A frame that comes to its end does not stop the window. -/
theorem frame_of_ok (h : w.stopped = false) {answer : Answer}
    (hok : (w.session.perform (.frame w.cyclesPerFrame)).answer = .ok answer) :
    w.frame.lines = (w.session.perform (.frame w.cyclesPerFrame)).lines ∧ w.frame.answer = .ok .nothing ∧
      w.frame.window.stopped = false := by
  have hrun : (w.machine.frame w.session.logging w.cyclesPerFrame).fault = none := by
    rw [answer_frame] at hok
    split at hok
    · cases hok
    · assumption
  unfold frame
  rw [if_neg (Bool.eq_false_iff.1 h)]
  dsimp only
  rw [hrun]
  exact ⟨rfl, rfl, (sound_eq _).2.trans h⟩

/-! ### Keys -/

/-- A key that stands for a key of the keypad is not refused. -/
private theorem passKey_of_keyed (h : w.Keyed) (symbol : Nat) {change : Keypad → Int → Except Fault Keypad}
    {step : Fin 16 → HostStep}
    (hchange : ∀ key : Fin 16, (change w.machine.keypad key.val).map
        (fun keypad => w.session.withMachine { w.machine with keypad := keypad }) = .ok (w.session.after [step key])) :
    w.passKey symbol change = .ok { w with session := w.session.after (w.keySteps symbol step) } := by
  unfold passKey keySteps
  cases hkey : w.keymap.key? symbol with
  | none => rfl
  | some key =>
    have hlow := hchange (Keypad.lowKey key)
    rw [Keypad.lowKey_val (h symbol key hkey)] at hlow
    obtain ⟨keypad, hok, hsession⟩ := Except.map_eq_ok hlow
    dsimp only
    rw [hok]
    exact congrArg (fun session => Except.ok { w with session := session }) hsession

theorem passKey_press (h : w.Keyed) (symbol : Nat) :
    w.passKey symbol Keypad.press = .ok { w with session := w.session.after (w.keySteps symbol .press) } := by
  refine passKey_of_keyed h symbol fun key => ?_
  simp only [Session.after, List.foldl_cons, List.foldl_nil, HostStep.command, Session.perform]
  rw [Keypad.press_val, Keypad.press_val]
  rfl

theorem passKey_release (h : w.Keyed) (symbol : Nat) :
    w.passKey symbol Keypad.release = .ok { w with session := w.session.after (w.keySteps symbol .release) } := by
  refine passKey_of_keyed h symbol fun key => ?_
  simp only [Session.after, List.foldl_cons, List.foldl_nil, HostStep.command, Session.perform]
  rw [Keypad.release_val, Keypad.release_val]
  rfl

private theorem printed_keySteps (w : Window) (symbol : Nat) : w.session.printed (w.keySteps symbol .press) = [] := by
  unfold keySteps
  cases w.keymap.key? symbol with
  | none => rfl
  | some key =>
    simp only [Option.toList_some, List.map_cons, List.map_nil, Session.printed, HostStep.command, Session.perform,
      Keypad.press_val]
    rfl

theorem keyDown_of_keyed (h : w.Keyed) (symbol : Nat) :
    w.keyDown symbol =
      { window := { w with
          session := w.session.after (w.hostSteps (.keyDown symbol))
          stopped := w.stopped || symbol = w.keyboard.escape }
        requests := if symbol = w.keyboard.escape then [.close] else []
        lines := (w.session.printed (w.hostSteps (.keyDown symbol))).toArray } := by
  have hpass := @passKey_press { w with stopped := w.stopped || symbol = w.keyboard.escape } h symbol
  have hsilent : w.session.printed (w.keySteps symbol .press) = [] := w.printed_keySteps symbol
  unfold keyDown hostSteps
  dsimp only
  rw [hpass]
  dsimp only
  by_cases hf1 : symbol = w.keyboard.f1
  · rw [if_pos hf1, if_pos hf1, Session.after_append, Session.printed_append, hsilent]
    rfl
  · rw [if_neg hf1, if_neg hf1, List.append_nil, hsilent]
    rfl

theorem keyUp_of_keyed (h : w.Keyed) (symbol : Nat) :
    w.keyUp symbol = { window := { w with session := w.session.after (w.hostSteps (.keyUp symbol)) } } := by
  unfold keyUp
  rw [passKey_release h]
  rfl

/-! ### The session inside -/

/-- Of its session a window changes what its host steps change, and nothing else. -/
theorem session_handle (h : w.Keyed) {e : Event} (he : e.isCommand = false) :
    (w.handle e).window.session = w.session.after (w.hostSteps e) := by
  cases e with
  | command c => cases he
  | frame =>
    rw [handle, hostSteps]
    cases hstopped : w.stopped with
    | true =>
      rw [frame_of_stopped hstopped]
      rfl
    | false => exact session_frame hstopped
  | rates seconds =>
    simp only [handle, rates]
    split <;> rfl
  | draw =>
    simp only [handle, draw, hostSteps]
    split <;> rfl
  | deactivate => rfl
  | keyDown symbol => rw [handle, keyDown_of_keyed h]
  | keyUp symbol => rw [handle, keyUp_of_keyed h]
  | beepEnded beep =>
    simp only [handle, beepEnded]
    split <;> rfl

theorem session_after (h : w.Keyed) {events : List Event} (hevents : ∀ e ∈ events, e.isCommand = false) :
    (w.after events).session = w.session.after (w.hosted events) := by
  induction events generalizing w with
  | nil => rfl
  | cons e events ih =>
    rw [List.forall_mem_cons] at hevents
    have hrest := ih (h.of_sameSettings (w.sameSettings_handle e)) hevents.2
    rw [hosted, Session.after_append, ← session_handle h hevents.1]
    exact hrest

open Micro in
/-- On bare cells the host steps of a window lead to the session that it comes to. -/
theorem reachable_after (h : w.Keyed) {dialect : Dialect} {layout : Layout} {random : Wheel} {logging : Bool}
    {steps : List HostStep} (hsession : w.session = (Session.fresh dialect layout random logging).after steps)
    {events : List Event} (hevents : ∀ e ∈ events, e.isCommand = false) :
    (w.after events).session.machine.Sound ∧
      Mirrors (((Store.fresh dialect layout random logging).after steps).after (w.hosted events))
        (w.after events).session
        ((Session.fresh dialect layout random logging).printed (steps ++ w.hosted events)) := by
  have hreachable := reachable dialect layout random logging (steps ++ w.hosted events)
  rw [Session.after_append, ← hsession, ← session_after h hevents, Store.after_append] at hreachable
  exact hreachable

/-! ### Windows as they are opened -/

/-- A window as it is opened on a session whose keypad has the layout. -/
structure Starts (s : Session) (layout : Layout) (cyclesPerFrame : Int) (keyboard : Keyboard) (w : Window) : Prop where
  session : w.session = s
  keymap : Keymap.ofLayout layout keyboard.symbol? = .ok w.keymap
  keyboard : w.keyboard = keyboard
  keyed : w.Keyed
  cyclesPerFrame : w.cyclesPerFrame = cyclesPerFrame
  running : w.stopped = false

/-- With a usable layout a window opens. -/
theorem exists_starts {s : Session} {layout : Layout} (hkeypad : s.machine.keypad.layout = layout)
    {keyboard : Keyboard} (hlayout : layout.Usable keyboard.symbol?) (cyclesPerFrame : Int) {scale : Int}
    (hscale : 0 ≤ scale) (pitches : Wheel) :
    ∃ w, ofSession s cyclesPerFrame scale pitches keyboard = .ok w ∧ w.Starts s layout cyclesPerFrame keyboard := by
  obtain ⟨keymap, hkeymap⟩ := Keymap.ofLayout_of_usable hlayout
  unfold ofSession
  rw [hkeypad, hkeymap]
  dsimp only
  rw [if_neg (by omega)]
  refine ⟨_, rfl, ?_⟩
  exact {
    session := rfl
    keymap := hkeymap
    keyboard := rfl
    keyed := fun _ _ => Keymap.key_bounds hlayout hkeymap
    cyclesPerFrame := rfl
    running := rfl }

end Window

/-- Loading programs does not touch the keys. -/
theorem Session.keypad_after_loads (s : Session) (roms : List (List UInt8)) :
    (s.after (roms.map .load)).machine.keypad = s.machine.keypad := by
  induction roms generalizing s with
  | nil => rfl
  | cons rom roms ih =>
    have hload : (s.load rom).session.machine.keypad = s.machine.keypad := by
      unfold load Machine.loadRom
      cases s.machine.memory.loadRom rom <;> rfl
    exact (ih (s.load rom).session).trans hload

end ChipEight
