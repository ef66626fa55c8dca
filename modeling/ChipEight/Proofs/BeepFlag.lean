import ChipEight.Proofs.Beeps

/-!
# What the beep flag tells

The flag of a window is set when a beep is started and cleared by silent frames and by the end of any beep. So it does
not tell which beeps sound, but as long as it is set the latest beep does (`Window.latest_of_beeping`). Frames are the
only events that start beeps, at most one each (`Window.beeps_frame`, `Window.countP_requested`), and a frame that
comes to its end leaves the flag as the sound timer has it (`Window.flag_tells_latest`).
-/

namespace ChipEight

namespace Request

def startsBeep : Request → Bool
  | startBeep _ => true
  | _ => false

end Request

namespace Window

variable {w : Window} {events : List Event} {beep : Nat}

/-- What a window asks for in the course of some events. -/
def requested (w : Window) : List Event → List Request
  | [] => []
  | e :: events => (w.handle e).requests ++ (w.handle e).window.requested events

/-! ### Beeps and requests for them -/

theorem countP_eq_zero {requests : List Request} (h : ∀ pitch, Request.startBeep pitch ∉ requests) :
    requests.countP Request.startsBeep = 0 := by
  rw [List.countP_eq_zero]
  intro request hmem hstarts
  cases request with
  | startBeep pitch => exact h pitch hmem
  | _ => cases hstarts

/-- A frame counts the beeps that it asks for. -/
theorem beeps_frame (w : Window) :
    w.frame.window.beeps = w.beeps + w.frame.requests.countP Request.startsBeep ∧
      w.frame.requests.countP Request.startsBeep ≤ 1 := by
  by_cases hends : w.Completes
  · obtain ⟨hwindow, hrequests⟩ := frame_of_completes hends
    rw [hwindow, hrequests]
    unfold sound
    split
    · exact ⟨rfl, Nat.zero_le 1⟩
    · split
      · exact ⟨rfl, Nat.zero_le 1⟩
      · exact ⟨rfl, Nat.le_refl 1⟩
  · obtain ⟨-, hbeeps, hquiet⟩ := frame_of_not_completes hends
    rw [countP_eq_zero hquiet]
    exact ⟨hbeeps, Nat.zero_le 1⟩

/-- No other event asks for a beep. -/
theorem quiet_handle (w : Window) {e : Event} (he : e ≠ .frame) (pitch : Int) :
    Request.startBeep pitch ∉ (w.handle e).requests := by
  cases e with
  | frame => exact absurd rfl he
  | rates seconds =>
    simp only [handle, rates]
    split <;> exact List.not_mem_nil
  | draw =>
    simp only [handle, draw]
    split <;> simp
  | keyDown symbol =>
    simp only [handle, keyDown]
    split
    · split <;> simp
    · split <;> split <;> simp
  | keyUp symbol =>
    simp only [handle, keyUp]
    split <;> exact List.not_mem_nil
  | beepEnded beep =>
    simp only [handle, beepEnded]
    split <;> simp
  | deactivate | command c => exact List.not_mem_nil

theorem beeps_handle (w : Window) (e : Event) :
    (w.handle e).window.beeps = w.beeps + (w.handle e).requests.countP Request.startsBeep := by
  by_cases he : e = .frame
  · subst he
    exact w.beeps_frame.1
  · rw [countP_eq_zero (w.quiet_handle he)]
    exact (w.sound_handle he).1

/-- The beeps are numbered in the order in which they are asked for. -/
theorem countP_requested (w : Window) (events : List Event) :
    (w.after events).beeps = w.beeps + (w.requested events).countP Request.startsBeep := by
  induction events generalizing w with
  | nil => rfl
  | cons e events ih =>
    have hrest : (w.after (e :: events)).beeps = ((w.handle e).window.after events).beeps := rfl
    rw [hrest, ih, requested, List.countP_append, beeps_handle]
    omega

/-! ### The flag and the latest beep -/

/-- Ends are reported of beeps that were started. -/
theorem Timely.lt_beeps (h : w.Timely events) (hend : Event.beepEnded beep ∈ events) :
    beep < (w.after events).beeps := by
  obtain ⟨earlier, later, rfl⟩ := List.append_of_mem hend
  have hprefix : earlier ++ [.beepEnded beep] <+: earlier ++ .beepEnded beep :: later := ⟨later, by simp⟩
  have hstarted : beep < (w.after earlier).beeps := (h earlier beep hprefix).1
  exact Nat.lt_of_lt_of_le hstarted (w.beeps_le_after earlier _)

/-- The latest beep sounds. -/
def LatestSounds (w : Window) (events : List Event) : Prop :=
  ∃ latest, latest + 1 = (w.after events).beeps ∧ w.Sounding events latest

theorem LatestSounds.of_beeps_eq {e : Event} (h : w.LatestSounds events)
    (hbeeps : (w.after (events ++ [e])).beeps = (w.after events).beeps) (he : ∀ beep, e ≠ .beepEnded beep) :
    w.LatestSounds (events ++ [e]) := by
  obtain ⟨latest, hlatest, hstarted, hnoEnd⟩ := h
  refine ⟨latest, hlatest.trans hbeeps.symm, hstarted.trans_eq hbeeps.symm, fun hend => ?_⟩
  rcases List.mem_append.1 hend with hbefore | hnow
  · exact hnoEnd hbefore
  · exact he latest (List.mem_singleton.1 hnow).symm

/-- A frame leaves the flag set only if it has started the latest beep or found the flag set. -/
private theorem latest_of_frame (htimely : w.Timely events)
    (hbefore : (w.after events).beeping = true → w.LatestSounds events)
    (hflag : (w.after (events ++ [.frame])).beeping = true) : w.LatestSounds (events ++ [.frame]) := by
  have hafter : w.after (events ++ [.frame]) = (w.after events).frame.window := w.after_concat events .frame
  have hkeeps : (w.after events).beeping = true → (w.after events).frame.window.beeps = (w.after events).beeps →
      w.LatestSounds (events ++ [.frame]) :=
    fun hset hbeeps => (hbefore hset).of_beeps_eq ((congrArg Window.beeps hafter).trans hbeeps) nofun
  rw [hafter] at hflag
  cases (w.after events).frameSounds with
  | broken _ hbeeping hbeeps _ => exact hkeeps (hbeeping.symm.trans hflag) hbeeps
  | goesOn _ hset _ hbeeps _ => exact hkeeps hset hbeeps
  | silent _ hbeeping _ _ => exact absurd hflag (Bool.eq_false_iff.1 hbeeping)
  | starts _ _ _ hbeeps _ =>
    -- no end was reported of the beep that is started now: its number is new
    refine ⟨(w.after events).beeps, ?_, ?_, fun hend => ?_⟩
    · rw [hafter, hbeeps]
    · rw [hafter, hbeeps]
      exact Nat.lt_succ_self _
    · rcases List.mem_append.1 hend with hbefore | hnow
      · exact absurd (htimely.lt_beeps hbefore) (Nat.lt_irrefl _)
      · cases List.mem_singleton.1 hnow

/-- While the flag is set the latest beep sounds. -/
theorem latest_of_beeping (hopened : w.beeping = false) (htimely : w.Timely events)
    (hflag : (w.after events).beeping = true) : w.LatestSounds events := by
  induction events using List.reverseRecOn with
  | nil => exact absurd hflag (Bool.eq_false_iff.1 hopened)
  | append_singleton events e ih =>
    have hearlier : w.Timely events := htimely.earlier (List.prefix_append _ _)
    have hbefore := ih hearlier
    by_cases he : e = .frame
    · subst he
      exact latest_of_frame hearlier hbefore hflag
    · have hafter : w.after (events ++ [e]) = ((w.after events).handle e).window := w.after_concat events e
      obtain ⟨hbeeps, hsame⟩ := (w.after events).sound_handle he
      rw [← hafter] at hbeeps hsame
      by_cases hend : ∃ beep, e = .beepEnded beep
      · -- the end of a beep that sounds clears the flag
        obtain ⟨beep, rfl⟩ := hend
        have hsounding : w.Sounding events beep := htimely events beep List.prefix_rfl
        have hcleared : ((w.after events).handle (.beepEnded beep)).window.beeping = false := by
          simp only [handle, beepEnded, if_pos hsounding.1]
        rw [hafter, hcleared] at hflag
        cases hflag
      · have hnoEnd : ∀ beep, e ≠ .beepEnded beep := fun beep heq => hend ⟨beep, heq⟩
        rcases hsame with hbeeping | ⟨beep, heq, -⟩
        · exact (hbefore (hbeeping.symm.trans hflag)).of_beeps_eq hbeeps hnoEnd
        · exact absurd heq (hnoEnd beep)

/-! ### The flag after a frame -/

/-- The sound timer after the cycles of a frame is the one that the frame leaves. -/
theorem sound_timer_frame (h : w.Completes) :
    w.frame.window.machine = (w.machine.frame w.session.logging w.cyclesPerFrame).machine := by
  rw [(frame_of_completes h).1, sound_machine]
  rfl

theorem beeping_frame_iff (h : w.Completes) :
    w.frame.window.beeping = true ↔ 0 < w.frame.window.machine.timers.sound := by
  have hpos : ∀ t : UInt8, 0 < t ↔ t ≠ 0 := fun t => UInt8.pos_iff_ne_zero
  rw [hpos]
  cases w.frameSounds with
  | broken hends _ _ _ => exact absurd h hends
  | silent hends hbeeping _ _ => exact iff_of_false (Bool.eq_false_iff.1 hbeeping) (not_not.2 hends.2)
  | goesOn hends _ hbeeping _ _ | starts hends _ hbeeping _ _ => exact iff_of_true hbeeping hends.2

/-- In a window that was just opened, and whose beeps end at most once each, the beeps are those that were asked for,
and while the flag is set the latest of them sounds. A frame asks for at most one, and does so exactly if it comes to
its end with the sound timer running and found the flag clear. After a frame that comes to its end the flag is set
exactly if the sound timer runs; any other frame leaves the flag and starts nothing. -/
theorem flag_tells_latest {s : Session} {cyclesPerFrame scale : Int} {pitches : Wheel} {keyboard : Keyboard}
    (hopen : ofSession s cyclesPerFrame scale pitches keyboard = .ok w) (htimely : w.Timely events) :
    let now := w.after events
    let cycled := (now.machine.frame now.session.logging now.cyclesPerFrame).machine
    ((w.requested events).countP Request.startsBeep = now.beeps ∧
      (now.beeping = true → ∃ latest, latest + 1 = now.beeps ∧ w.Sounding events latest)) ∧
    (now.frame.requests.countP Request.startsBeep ≤ 1 ∧
      (now.StartsBeep ↔ now.Completes ∧ now.beeping = false ∧ 0 < cycled.timers.sound)) ∧
    (now.Completes →
      now.frame.window.machine = cycled ∧ (now.frame.window.beeping = true ↔ 0 < cycled.timers.sound)) ∧
    (¬ now.Completes → ¬ now.StartsBeep ∧ now.frame.window.beeping = now.beeping ∧
      now.frame.window.beeps = now.beeps) := by
  intro now cycled
  have hopened := opened_of_ofSession hopen
  refine ⟨⟨?_, latest_of_beeping hopened.beeping htimely⟩, ⟨now.beeps_frame.2, ?_⟩, fun hends => ?_, fun hends => ?_⟩
  · have hcount := w.countP_requested events
    rw [hopened.beeps, Nat.zero_add] at hcount
    exact hcount.symm
  · rw [startsBeep_iff]
    constructor
    · rintro ⟨⟨hends, hrings⟩, hclear⟩
      rw [sound_timer_frame hends] at hrings
      exact ⟨hends, hclear, UInt8.pos_iff_ne_zero.2 hrings⟩
    · rintro ⟨hends, hclear, hpos⟩
      refine ⟨⟨hends, ?_⟩, hclear⟩
      rw [sound_timer_frame hends]
      exact UInt8.pos_iff_ne_zero.1 hpos
  · have hmachine : now.frame.window.machine = cycled := sound_timer_frame hends
    refine ⟨hmachine, ?_⟩
    rw [← hmachine]
    exact beeping_frame_iff hends
  · obtain ⟨hbeeping, hbeeps, hquiet⟩ := frame_of_not_completes hends
    exact ⟨fun ⟨pitch, hstart⟩ => hquiet pitch hstart, hbeeping, hbeeps⟩

/-- The sound timer runs at the first and the third frame only. The third one starts a beep, which is the latest. -/
theorem flag_tells_latest_third :
    let rom : List UInt8 := [0x60, 0x01, 0xF0, 0x18, 0x60, 0x01, 0x60, 0x01, 0xF0, 0x18, 0x12, 0x00]
    let events : List Event := [.frame, .frame, .beepEnded 0]
    ∃ w, ofSession ((Session.fresh Dialect.modern Layout.standard {} false).load rom).session 2 1 {} = .ok w ∧
      w.Timely events ∧ (w.after events).StartsBeep ∧ (w.after (events ++ [.frame])).beeping = true ∧
        ∃ latest, latest + 1 = (w.after (events ++ [.frame])).beeps ∧ w.Sounding (events ++ [.frame]) latest := by
  intro rom events
  have hopen : (ofSession ((Session.fresh Dialect.modern Layout.standard {} false).load rom).session 2 1 {}).map
      (fun w => ((w.after [.frame, .frame]).beeps, decide (w.after events).Completes, (w.after events).beeping,
        (w.after (events ++ [.frame])).beeping)) = .ok (1, true, false, true) := by
    decide +kernel
  obtain ⟨w, hok, hcounts⟩ := Except.map_eq_ok hopen
  obtain ⟨hstarted, hends, hclear, hflag⟩ : _ ∧ _ ∧ _ ∧ _ := by
    simpa only [Prod.mk.injEq, decide_eq_true_eq] using hcounts
  have htimely : w.Timely (events ++ [.frame]) := by
    intro earlier beep hend
    rcases earlier with _ | ⟨a, _ | ⟨b, _ | ⟨c, _ | ⟨d, rest⟩⟩⟩⟩ <;> simp [events] at hend
    obtain ⟨rfl, rfl, rfl⟩ := hend
    exact ⟨by rw [hstarted]; decide, by simp⟩
  have hbefore : w.Timely events := htimely.earlier (List.prefix_append _ _)
  obtain ⟨⟨-, hlatest⟩, -⟩ := flag_tells_latest hok htimely
  obtain ⟨-, ⟨-, hstarts⟩, hcompletes, -⟩ := flag_tells_latest hok hbefore
  obtain ⟨-, hruns⟩ := hcompletes hends
  have hset : (w.after events).frame.window.beeping = true := by
    rw [← hflag, after_concat]
    rfl
  exact ⟨w, hok, hbefore, hstarts.2 ⟨hends, hclear, hruns.1 hset⟩, hflag, hlatest hflag⟩

end Window

end ChipEight
