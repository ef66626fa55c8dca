import ChipEight.Proofs.Faults
import ChipEight.Proofs.Tracing
import ChipEight.Proofs.WindowHost
import Mathlib.Data.List.Induction

/-!
# Windows that stop

A window that was opened on a machine with a usable layout refuses none of its events, because every fault that a
frame can end with is one that stops the program (`Session.stops_of_error`). It stops at the escape key or at such a
frame (`Window.obeys_handle`), and then for good: events that come later still move keys and draw the screen, but
nothing that a program works with changes any more (`Window.rests_after`). Of the fault it tells once, because while it
runs there is one stop left to tell of, and afterwards none (`Window.told_after`).
-/

namespace ChipEight

/-! ### Faults that stop a program -/

theorem Memory.stops_of_loadRom {m : Memory} {rom : List UInt8} {fault : Fault} (h : m.loadRom rom = .error fault) :
    fault.stopsProgram = true := by
  unfold loadRom at h
  split at h
  · cases h
    rfl
  · unfold store at h
    split at h
    · cases h
    · cases h
      rfl

namespace Machine

theorem Sound.stops_of_cyclesOf {m : Machine} (hm : m.Sound) (n : Nat) {fault : Fault}
    (h : (m.cyclesOf n).2 = some fault) : fault.stopsProgram = true := by
  induction n generalizing m with
  | zero => cases h
  | succ n ih =>
    have hafter := hm.cycle
    have hrefused := hm.cycle_eq_error_iff fault
    unfold cyclesOf at h
    cases hc : m.cycle with
    | mk after result =>
      rw [hc] at h hafter hrefused
      cases result with
      | error other => exact (hrefused.1 (congrArg Except.error (Option.some.inj h))).stops
      | ok step => exact ih hafter h

end Machine

namespace Session

/-- Of all that a host does, only programs are refused, and for faults that stop them. -/
theorem stops_of_error {s : Session} (hs : s.machine.Sound) {step : HostStep} {fault : Fault}
    (h : (s.perform step.command).answer = .error fault) : fault.stopsProgram = true := by
  have hrun (m : Machine) (hm : m.Sound) (n : Nat)
      (hanswer : (s.ofRun (Run.go s.logging n { machine := m })).answer = .error fault) :
      fault.stopsProgram = true := by
    have hfault : (Run.go s.logging n { machine := m }).fault = some fault := by
      unfold ofRun at hanswer
      dsimp only at hanswer
      split at hanswer
      · next hsome => exact hsome.trans (congrArg some (Except.error.inj hanswer))
      · cases hanswer
    have hgo := congrArg Prod.snd (@Machine.go_eq_cyclesOf s.logging n { machine := m } rfl)
    exact hm.stops_of_cyclesOf n (hgo.symm.trans hfault)
  cases step with
  | load rom =>
    have hrom : s.machine.memory.loadRom rom = .error fault := by
      simp only [HostStep.command, perform, load, Machine.loadRom] at h
      cases hload : s.machine.memory.loadRom rom with
      | error other =>
        rw [hload] at h
        exact congrArg Except.error (Except.error.inj h)
      | ok memory =>
        rw [hload] at h
        cases h
    exact Memory.stops_of_loadRom hrom
  | cycle => exact hrun s.machine hs 1 h
  | frame n => exact hrun s.machine.tick (Machine.kept_sound.timers s.machine s.machine.timers.tick hs) n.toNat h
  | press key =>
    simp only [HostStep.command, perform, Keypad.press_val] at h
    cases h
  | release key =>
    simp only [HostStep.command, perform, Keypad.release_val] at h
    cases h
  | _ => cases h

end Session

open Micro in
/-- On bare cells a host step ends in no trap but for a fault that stops a program. -/
theorem Micro.traps_of_perform {store : Store} {s : Session} {lines : List String} (hs : s.machine.Sound)
    (h : Mirrors store s lines) (step : HostStep) :
    (run (perform step) store).1 = .ok () ∨
      ∃ fault, fault.stopsProgram = true ∧ (run (perform step) store).1 = .error (.refused fault) := by
  rw [(run_perform hs h step).1, outcome]
  cases hanswer : (s.perform step.command).answer with
  | ok answer => exact .inl rfl
  | error fault => exact .inr ⟨fault, Session.stops_of_error hs hanswer, rfl⟩

/-! ### Lines that tell of a stop -/

/-- The line tells of a fault that stopped a window. -/
def Window.tellsStop (line : String) : Bool := "Emulation error:".toList.isPrefixOf line.toList

private theorem untold_of_head {line : String} (h : line.toList.head? ≠ some 'E') :
    Window.tellsStop line = false := by
  unfold Window.tellsStop
  cases hline : line.toList with
  | nil => rfl
  | cons c rest =>
    rw [hline] at h
    have hfirst : ('E' == c) = false := beq_false_of_ne fun he => h (congrArg some he.symm)
    have hletters : "Emulation error:".toList = 'E' :: "mulation error:".toList := by decide
    rw [hletters, List.isPrefixOf, hfirst, Bool.false_and]

/-- No line of a trace begins like the one that tells of a stop. -/
private theorem untold_of_line? {before after : Machine} {i : Instruction} {line : String}
    (h : Trace.line? before after i = some line) : Window.tellsStop line = false := by
  have hskip {condition : String} (h : Trace.skipLine before after condition = some line) :
      line.toList.head? ≠ some 'E' := by
    unfold Trace.skipLine at h
    split at h
    · rw [← Option.some.inj h]
      simp
    · cases h
  refine untold_of_head ?_
  cases i with
  | skipIfByte x nn | skipUnlessByte x nn => exact hskip h
  | skipIfSame x y | skipUnlessSame x y => exact hskip h
  | skipIfKey x | skipUnlessKey x => exact hskip h
  | bitOr x y | bitAnd x y | bitXor x y =>
    rw [← Option.some.inj h]
    simp [Trace.combineLine, Trace.reg]
  | _ =>
    rw [← Option.some.inj h]
    simp

namespace Session

private theorem untold_cycleLines (s : Session) : ∀ line ∈ s.cycleLines, Window.tellsStop line = false := by
  intro line hline
  unfold cycleLines Run.cycleLines at hline
  split at hline
  · cases hline
  · rw [List.mem_singleton.1 hline]
    exact untold_of_head (by simp)
  · split at hline
    · exact untold_of_line? (Option.mem_toList.1 hline)
    · cases hline

private theorem untold_perform (s : Session) (step : HostStep) :
    ∀ line ∈ (s.perform step.command).lines.toList, Window.tellsStop line = false := by
  intro line hline
  cases hruns : step.runsCycles with
  | true =>
    rw [s.lines_perform hruns, List.mem_flatMap] at hline
    obtain ⟨b, -, hb⟩ := hline
    exact b.untold_cycleLines line hb
  | false =>
    cases step with
    | cycle | frame n => cases hruns
    | load rom =>
      have hloaded : line = loadedLine rom.length := by
        simp only [HostStep.command, perform, load] at hline
        split at hline
        · split at hline
          · exact List.mem_singleton.1 hline
          · cases hline
        · cases hline
      rw [hloaded]
      exact untold_of_head (by simp [loadedLine])
    | toggleLogging =>
      rw [List.mem_singleton.1 hline]
      exact untold_of_head (by simp)
    | press key =>
      simp only [HostStep.command, perform, Keypad.press_val] at hline
      cases hline
    | release key =>
      simp only [HostStep.command, perform, Keypad.release_val] at hline
      cases hline
    | _ => cases hline

/-- A session does not tell of stops, whatever it prints. -/
theorem told_perform (s : Session) (step : HostStep) :
    (s.perform step.command).lines.toList.countP Window.tellsStop = 0 :=
  List.countP_eq_zero.2 fun line hline => Bool.eq_false_iff.1 (s.untold_perform step line hline)

theorem told_printed (s : Session) (steps : List HostStep) : (s.printed steps).countP Window.tellsStop = 0 := by
  induction steps generalizing s with
  | nil => rfl
  | cons step steps ih => rw [printed, List.countP_append, told_perform, ih]

end Session

namespace Window

theorem tellsStop_stopLine (fault : Fault) : tellsStop (stopLine fault) = true := by
  unfold tellsStop stopLine
  rw [List.isPrefixOf_iff_prefix, String.toList_append]
  exact List.IsPrefix.trans ⟨[' '], by decide⟩ (List.prefix_append _ _)

variable {w : Window}

/-! ### Events one by one -/

/-- What an event comes to: it is not refused, it stops the window if it is the escape key or a frame with a fault,
and it tells of the fault if it stops the window for one. -/
structure Obeys (w : Window) (e : Event) (r : Reaction) : Prop where
  answer : (∀ seconds, e ≠ .rates seconds) → r.answer = .ok .nothing
  stopped : r.window.stopped = true ↔ w.stopped = true ∨ e = .keyDown w.keyboard.escape ∨
    e = .frame ∧ ∃ fault, (w.session.perform (.frame w.cyclesPerFrame)).answer = .error fault ∧
      fault.stopsProgram = true
  told : r.lines.toList.countP tellsStop + (if r.window.stopped then 0 else 1) ≤ if w.stopped then 0 else 1

theorem obeys_frame (hs : w.session.machine.Sound) : w.Obeys .frame w.frame := by
  cases hstopped : w.stopped with
  | true =>
    rw [frame_of_stopped hstopped]
    refine ⟨fun _ => rfl, iff_of_true hstopped (.inl hstopped), ?_⟩
    rw [hstopped]
    rfl
  | false =>
    have huntold : (w.session.perform (.frame w.cyclesPerFrame)).lines.toList.countP tellsStop = 0 :=
      w.session.told_perform (.frame w.cyclesPerFrame)
    cases hanswer : (w.session.perform (.frame w.cyclesPerFrame)).answer with
    | error fault =>
      have hstops := @Session.stops_of_error w.session hs (.frame w.cyclesPerFrame) fault hanswer
      rw [frame_of_error hstopped hanswer hstops]
      refine ⟨fun _ => rfl, iff_of_true rfl (.inr (.inr ⟨rfl, fault, hanswer, hstops⟩)), ?_⟩
      rw [Array.toList_push, List.countP_append, huntold, List.countP_singleton, tellsStop_stopLine, hstopped]
      rfl
    | ok answer =>
      obtain ⟨hlines, hnothing, hruns⟩ := frame_of_ok hstopped hanswer
      refine ⟨fun _ => hnothing, iff_of_false (Bool.eq_false_iff.1 hruns) ?_, ?_⟩
      · rintro (hbefore | hescape | ⟨-, fault, hfault, -⟩)
        · exact absurd hbefore (Bool.eq_false_iff.1 hstopped)
        · cases hescape
        · rw [hanswer] at hfault
          cases hfault
      · rw [hlines, huntold, hruns, hstopped]
        rfl

/-- An event that is no frame and no key, and leaves the window as stopped as it was. -/
private theorem obeys_of_silent {e : Event} {r : Reaction}
    (hanswer : (∀ seconds, e ≠ .rates seconds) → r.answer = .ok .nothing)
    (hlines : r.lines = #[]) (hsame : r.window.stopped = w.stopped) (hframe : e ≠ .frame)
    (hescape : e ≠ .keyDown w.keyboard.escape) : w.Obeys e r := by
  refine ⟨hanswer, ?_, ?_⟩
  · rw [hsame]
    refine ⟨.inl, ?_⟩
    rintro (hbefore | he | ⟨he, -⟩)
    · exact hbefore
    · exact absurd he hescape
    · exact absurd he hframe
  · rw [hlines, hsame]
    exact Nat.le_of_eq (Nat.zero_add _)

theorem obeys_keyDown (h : w.Keyed) (symbol : Nat) : w.Obeys (.keyDown symbol) (w.keyDown symbol) := by
  rw [keyDown_of_keyed h]
  refine ⟨fun _ => rfl, ?_, ?_⟩
  · simp only [Bool.or_eq_true, decide_eq_true_eq, Event.keyDown.injEq]
    refine or_congr_right ⟨.inl, ?_⟩
    rintro (he | ⟨he, -⟩)
    · exact he
    · cases he
  · dsimp only
    rw [Session.told_printed]
    cases w.stopped with
    | true => exact Nat.le_refl 0
    | false =>
      split <;> decide

theorem obeys_handle (h : w.Keyed) (hs : w.session.machine.Sound) {e : Event} (he : e.isCommand = false) :
    w.Obeys e (w.handle e) := by
  cases e with
  | command c => cases he
  | frame => exact obeys_frame hs
  | keyDown symbol => exact obeys_keyDown h symbol
  | rates seconds =>
    have hrates : (w.rates seconds).lines = #[] ∧ (w.rates seconds).window.stopped = w.stopped := by
      unfold rates
      dsimp only
      split <;> exact ⟨rfl, rfl⟩
    exact obeys_of_silent (fun hne => absurd rfl (hne seconds)) hrates.1 hrates.2 (by simp) (by simp)
  | draw =>
    rw [handle, draw]
    split <;> exact obeys_of_silent (fun _ => rfl) rfl rfl (by simp) (by simp)
  | deactivate => exact obeys_of_silent (fun _ => rfl) rfl rfl (by simp) (by simp)
  | keyUp symbol =>
    rw [handle, keyUp_of_keyed h]
    exact obeys_of_silent (fun _ => rfl) rfl rfl (by simp) (by simp)
  | beepEnded beep =>
    rw [handle, beepEnded]
    split <;> exact obeys_of_silent (fun _ => rfl) rfl rfl (by simp) (by simp)

theorem sound_session (h : w.Keyed) (hs : w.session.machine.Sound) {events : List Event}
    (hevents : ∀ e ∈ events, e.isCommand = false) : (w.after events).session.machine.Sound := by
  rw [session_after h hevents, machine_after]
  exact Machine.after_induction Machine.kept_sound hs _

/-- While a window runs there is one stop to be told of, afterwards there is none. -/
theorem told_after (h : w.Keyed) (hs : w.session.machine.Sound) {events : List Event}
    (hevents : ∀ e ∈ events, e.isCommand = false) :
    (w.printed events).countP tellsStop + (if (w.after events).stopped then 0 else 1) ≤
      if w.stopped then 0 else 1 := by
  induction events generalizing w with
  | nil => exact Nat.le_of_eq (Nat.zero_add _)
  | cons e events ih =>
    have hfirst : ∀ e' ∈ [e], e'.isCommand = false :=
      fun e' he' => hevents e' (List.mem_singleton.1 he' ▸ List.mem_cons_self)
    rw [List.forall_mem_cons] at hevents
    have htold := (obeys_handle h hs hevents.1).told
    have hrest : ((w.handle e).window.printed events).countP tellsStop +
        (if (w.after (e :: events)).stopped then 0 else 1) ≤ if (w.handle e).window.stopped then 0 else 1 :=
      ih (h.of_sameSettings (w.sameSettings_handle e)) (sound_session h hs hfirst) hevents.2
    rw [printed, List.countP_append]
    omega

end Window

/-! ### Stopped windows -/

/-- Nothing has changed but the keys, and whether the screen is marked as changed. -/
def Machine.Rests (m after : Machine) : Prop :=
  ∃ keypad dirty, after = { m with keypad := keypad, screen := { m.screen with dirty := dirty } }

theorem Machine.Rests.refl (m : Machine) : m.Rests m := ⟨m.keypad, m.screen.dirty, rfl⟩

theorem Machine.Rests.trans {m m' m'' : Machine} (h : m.Rests m') (h' : m'.Rests m'') : m.Rests m'' := by
  obtain ⟨keypad, dirty, rfl⟩ := h
  obtain ⟨keypad', dirty', rfl⟩ := h'
  exact ⟨keypad', dirty', rfl⟩

namespace Window

variable {w : Window}

theorem rests_handle (h : w.Keyed) (hstopped : w.stopped = true) {e : Event} (he : e.isCommand = false) :
    (w.handle e).window.stopped = true ∧ w.machine.Rests (w.handle e).window.machine := by
  cases e with
  | command c => cases he
  | frame =>
    rw [handle, frame_of_stopped hstopped]
    exact ⟨hstopped, .refl _⟩
  | rates seconds =>
    simp only [handle, rates]
    split <;> exact ⟨hstopped, .refl _⟩
  | draw =>
    simp only [handle, draw]
    split
    · exact ⟨hstopped, w.machine.keypad, false, rfl⟩
    · exact ⟨hstopped, .refl _⟩
  | deactivate => exact ⟨hstopped, w.machine.keypad.reset, w.machine.screen.dirty, rfl⟩
  | keyDown symbol =>
    obtain ⟨keypad, logging, stopped, hdown⟩ := w.keyDown_eq symbol
    have hstays : (w.keyDown symbol).window.stopped = true := by
      rw [keyDown_of_keyed h]
      exact Bool.or_eq_true_iff.2 (.inl hstopped)
    refine ⟨hstays, keypad, w.machine.screen.dirty, ?_⟩
    rw [handle, hdown]
    rfl
  | keyUp symbol =>
    obtain ⟨keypad, hup⟩ := w.keyUp_eq symbol
    rw [handle, hup]
    exact ⟨hstopped, keypad, w.machine.screen.dirty, rfl⟩
  | beepEnded beep =>
    simp only [handle, beepEnded]
    split <;> exact ⟨hstopped, .refl _⟩

/-- A stopped window stays stopped, and its machine rests. -/
theorem rests_after (h : w.Keyed) (hstopped : w.stopped = true) {events : List Event}
    (hevents : ∀ e ∈ events, e.isCommand = false) :
    (w.after events).stopped = true ∧ w.machine.Rests (w.after events).machine := by
  induction events using List.reverseRecOn with
  | nil => exact ⟨hstopped, .refl _⟩
  | append_singleton events e ih =>
    rw [List.forall_mem_append] at hevents
    obtain ⟨hstays, hrests⟩ := ih hevents.1
    have hkeyed := h.of_sameSettings (w.sameSettings_after events)
    obtain ⟨hstays', hrests'⟩ := rests_handle hkeyed hstays (hevents.2 e List.mem_cons_self)
    rw [after_append]
    exact ⟨hstays', hrests.trans hrests'⟩

end Window

open Micro Window

/-- A window that was opened on a machine with nothing but programs loaded refuses no event of its own; only working
out the rates may fail. It stops at the escape key, or when a frame ends with a fault of the program; from then on the
window stays stopped and its machine rests. At most once it tells of a fault. On bare cells too, no host step that
comes next ends in a trap but for a fault that stops a program. -/
theorem stop_is_final (dialect : Dialect) {layout : Layout} {keyboard : Keyboard}
    (hlayout : layout.Usable keyboard.symbol?) (random pitches : Wheel) (logging : Bool) (roms : List (List UInt8))
    (cyclesPerFrame : Int) {scale : Int} (hscale : 1 ≤ scale) :
    let s := (Session.fresh dialect layout random logging).after (roms.map .load)
    let cells := (Store.fresh dialect layout random logging).after (roms.map .load)
    ∃ w, ofSession s cyclesPerFrame scale pitches keyboard = .ok w ∧ w.stopped = false ∧
      ∀ events : List Event, (∀ e ∈ events, e.isCommand = false) →
        let now := w.after events
        let store := cells.after (w.hosted events)
        (∀ e : Event, e.isCommand = false →
          ((∀ seconds, e ≠ .rates seconds) → (now.handle e).answer = .ok .nothing) ∧
          ((now.handle e).window.stopped = true ↔ now.stopped = true ∨ e = .keyDown keyboard.escape ∨
            e = .frame ∧ ∃ fault, (now.session.perform (.frame cyclesPerFrame)).answer = .error fault ∧
              fault.stopsProgram = true)) ∧
        (now.stopped = true → ∀ more : List Event, (∀ e ∈ more, e.isCommand = false) →
          (now.after more).stopped = true ∧ now.machine.Rests (now.after more).machine) ∧
        (w.printed events).countP tellsStop ≤ 1 ∧
        Mirrors store now.session
          ((Session.fresh dialect layout random logging).printed (roms.map .load ++ w.hosted events)) ∧
        ∀ step : HostStep, (run (perform step) store).1 = .ok () ∨
          ∃ fault, fault.stopsProgram = true ∧ (run (perform step) store).1 = .error (.refused fault) := by
  intro s cells
  have hkeypad : s.machine.keypad.layout = layout := congrArg Keypad.layout (Session.keypad_after_loads _ roms)
  obtain ⟨w, hopen, hstarts⟩ := exists_starts hkeypad hlayout cyclesPerFrame (by omega : 0 ≤ scale) pitches
  refine ⟨w, hopen, hstarts.running, fun events hevents => ?_⟩
  intro now store
  obtain ⟨hsound, hmirrors⟩ := reachable_after hstarts.keyed hstarts.session hevents
  have hsame := w.sameSettings_after events
  have hkeyed : now.Keyed := hstarts.keyed.of_sameSettings hsame
  have hkeyboard : now.keyboard = keyboard := hsame.keyboard.trans hstarts.keyboard
  have hpace : now.cyclesPerFrame = cyclesPerFrame := hsame.cyclesPerFrame.trans hstarts.cyclesPerFrame
  refine ⟨fun e he => ?_, fun hstopped more hmore => rests_after hkeyed hstopped hmore, ?_, hmirrors,
    traps_of_perform hsound hmirrors⟩
  · have hobeys := obeys_handle hkeyed hsound he
    rw [← hpace, ← hkeyboard]
    exact ⟨hobeys.answer, hobeys.stopped⟩
  · have hs : w.session.machine.Sound := by
      rw [hstarts.session]
      exact (reachable dialect layout random logging (roms.map .load)).1
    have htold := told_after hstarts.keyed hs hevents
    rw [hstarts.running] at htold
    simp only [Bool.false_eq_true, if_false] at htold
    omega

/-- A return with nothing on the stack stops the window at its first frame, also with keys that are held meanwhile. -/
theorem stop_is_final_at_return :
    Layout.standard.Usable Keyboard.usual.symbol? ∧ (1 : Int) ≤ 1 ∧
      ∃ w, ofSession ((Session.fresh Dialect.modern Layout.standard {} false).after [.load [0x00, 0xEE]]) 2 1 {} =
          .ok w ∧
        (w.after [.keyDown 0x31, .frame]).stopped = true ∧
        (w.printed [.keyDown 0x31, .frame, .frame, .draw]).countP tellsStop ≤ 1 ∧
        (w.after [.keyDown 0x31, .frame]).machine.Rests (w.after [.keyDown 0x31, .frame, .frame, .draw]).machine := by
  obtain ⟨w, hopen, -, hevents⟩ := stop_is_final Dialect.modern Keymap.standard_usable {} {} false [[0x00, 0xEE]] 2
    (by decide : (1 : Int) ≤ 1)
  have hstops : (ofSession ((Session.fresh Dialect.modern Layout.standard {} false).after [.load [0x00, 0xEE]]) 2 1
      {}).map (fun w => (w.after [.keyDown 0x31, .frame]).stopped) = .ok true := by
    decide +kernel
  obtain ⟨opened, hok, hstopped⟩ := Except.map_eq_ok hstops
  obtain rfl : w = opened := Except.ok.inj (hopen.symm.trans hok)
  obtain ⟨-, hfinal, -⟩ := hevents [.keyDown 0x31, .frame] (by simp [Event.isCommand])
  obtain ⟨-, -, htold, -⟩ := hevents [.keyDown 0x31, .frame, .frame, .draw] (by simp [Event.isCommand])
  obtain ⟨-, hrests⟩ := hfinal hstopped [.frame, .draw] (by simp [Event.isCommand])
  exact ⟨Keymap.standard_usable, by decide, w, hopen, hstopped, htold, hrests⟩

end ChipEight
