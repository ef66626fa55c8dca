import ChipEight.Proofs.WindowRuns
import Mathlib.Data.List.Induction

/-!
# Beeps that overlap

A beep sounds from the frame that starts it until its end is reported, which may be much later than the sound timer
stops. The window does not know which beeps sound: it has one flag, and clears it at a silent frame as well as at the
end of any beep.

Which frames start a beep is `Window.startsBeep_iff`. As long as no frame rings while a beep sounds that an earlier
frame had silenced, at most the latest beep sounds, and only while the flag is set (`Window.Steady`). Without this
condition the next frame that rings starts a second beep, so the condition is exact (`Window.overlaps_iff`).
-/

namespace ChipEight.Window

variable {w : Window} {events : List Event} {beep : Nat}

/-! ### Frames and the sound timer -/

/-- A frame would come to its end now: the window is not stopped, and no cycle is refused. -/
def Completes (w : Window) : Prop :=
  w.stopped = false ∧ (w.machine.frame w.session.logging w.cyclesPerFrame).fault = none

/-- A frame now would come to its end with the sound timer at zero. -/
def FallsSilent (w : Window) : Prop := w.Completes ∧ w.frame.window.machine.timers.sound = 0

/-- A frame now would come to its end with the sound timer running. -/
def Rings (w : Window) : Prop := w.Completes ∧ w.frame.window.machine.timers.sound ≠ 0

def StartsBeep (w : Window) : Prop := ∃ pitch, Request.startBeep pitch ∈ w.frame.requests

instance (w : Window) : Decidable w.Completes := inferInstanceAs (Decidable (_ ∧ _))

instance (w : Window) : Decidable w.FallsSilent := inferInstanceAs (Decidable (_ ∧ _))

instance (w : Window) : Decidable w.Rings := inferInstanceAs (Decidable (_ ∧ _))

/-- What a frame does to the flag and the number of beeps. -/
inductive FrameSounds (w : Window) (r : Reaction) : Prop where
  | broken (hends : ¬ w.Completes) (hbeeping : r.window.beeping = w.beeping) (hbeeps : r.window.beeps = w.beeps)
      (hquiet : ∀ pitch, Request.startBeep pitch ∉ r.requests)
  | silent (hends : w.FallsSilent) (hbeeping : r.window.beeping = false) (hbeeps : r.window.beeps = w.beeps)
      (hquiet : ∀ pitch, Request.startBeep pitch ∉ r.requests)
  | goesOn (hends : w.Rings) (hbefore : w.beeping = true) (hbeeping : r.window.beeping = true)
      (hbeeps : r.window.beeps = w.beeps) (hquiet : ∀ pitch, Request.startBeep pitch ∉ r.requests)
  | starts (hends : w.Rings) (hbefore : w.beeping = false) (hbeeping : r.window.beeping = true)
      (hbeeps : r.window.beeps = w.beeps + 1) (hstart : ∃ pitch, Request.startBeep pitch ∈ r.requests)

/-- The window after the cycles of a frame that comes to its end, before it sees to the sound. -/
def ran (w : Window) : Window :=
  let run := w.machine.frame w.session.logging w.cyclesPerFrame
  { w.withMachine run.machine with cycles := w.cycles + (run.machine.cycles - w.machine.cycles) }

theorem frame_of_completes (h : w.Completes) :
    w.frame.window = (sound w.ran).1 ∧ w.frame.requests = (sound w.ran).2 := by
  obtain ⟨hstopped, hfault⟩ := h
  unfold frame
  rw [if_neg (Bool.eq_false_iff.1 hstopped)]
  dsimp only
  rw [hfault]
  exact ⟨rfl, rfl⟩

theorem frame_of_not_completes (h : ¬ w.Completes) :
    w.frame.window.beeping = w.beeping ∧ w.frame.window.beeps = w.beeps ∧
      ∀ pitch, Request.startBeep pitch ∉ w.frame.requests := by
  unfold frame
  by_cases hstopped : w.stopped = true
  · rw [if_pos hstopped]
    exact ⟨rfl, rfl, fun _ => List.not_mem_nil⟩
  · rw [if_neg hstopped]
    cases hfault : (w.machine.frame w.session.logging w.cyclesPerFrame).fault with
    | none => exact absurd ⟨Bool.eq_false_of_not_eq_true hstopped, hfault⟩ h
    | some fault =>
      dsimp only
      rw [hfault]
      dsimp only
      split <;> exact ⟨rfl, rfl, by simp⟩

theorem sound_machine (w : Window) : (sound w).1.machine = w.machine := by
  unfold sound
  split
  · rfl
  · split <;> rfl

theorem sound_of_zero (h : w.machine.timers.sound = 0) : sound w = ({ w with beeping := false }, []) := by
  rw [sound, if_pos h]

theorem sound_of_beeping (h : w.machine.timers.sound ≠ 0) (hflag : w.beeping = true) : sound w = (w, []) := by
  rw [sound, if_neg h, if_pos hflag]

theorem sound_of_quiet (h : w.machine.timers.sound ≠ 0) (hflag : w.beeping = false) :
    sound w =
      ({ w with beeping := true, beeps := w.beeps + 1, pitches := w.pitches.advance }, [.startBeep w.nextPitch]) := by
  rw [sound, if_neg h, if_neg (Bool.eq_false_iff.1 hflag)]

theorem frameSounds (w : Window) : w.FrameSounds w.frame := by
  by_cases hends : w.Completes
  · obtain ⟨hwindow, hrequests⟩ := frame_of_completes hends
    have htimer : w.frame.window.machine.timers.sound = w.ran.machine.timers.sound := by rw [hwindow, sound_machine]
    by_cases hzero : w.ran.machine.timers.sound = 0
    · rw [sound_of_zero hzero] at hwindow hrequests
      refine .silent ⟨hends, htimer.trans hzero⟩ (by rw [hwindow]) (by rw [hwindow]; rfl) ?_
      rw [hrequests]
      exact fun _ => List.not_mem_nil
    · have hrings : w.Rings := ⟨hends, fun h => hzero (htimer.symm.trans h)⟩
      cases hflag : w.beeping with
      | true =>
        rw [sound_of_beeping hzero hflag] at hwindow hrequests
        refine .goesOn hrings hflag (by rw [hwindow]; exact hflag) (by rw [hwindow]; rfl) ?_
        rw [hrequests]
        exact fun _ => List.not_mem_nil
      | false =>
        rw [sound_of_quiet hzero hflag] at hwindow hrequests
        refine .starts hrings hflag (by rw [hwindow]) (by rw [hwindow]; rfl) ⟨w.ran.nextPitch, ?_⟩
        rw [hrequests]
        exact List.mem_singleton.2 rfl
  · obtain ⟨hbeeping, hbeeps, hquiet⟩ := frame_of_not_completes hends
    exact .broken hends hbeeping hbeeps hquiet

/-- A frame starts a beep if the sound timer runs after it and the flag was not set. -/
theorem startsBeep_iff : w.StartsBeep ↔ w.Rings ∧ w.beeping = false := by
  have hdisjoint : w.FallsSilent → ¬ w.Rings := fun hsilent hrings => hrings.2 hsilent.2
  cases w.frameSounds with
  | broken hends _ _ hquiet => exact iff_of_false (fun ⟨pitch, h⟩ => hquiet pitch h) fun h => hends h.1.1
  | silent hends _ _ hquiet => exact iff_of_false (fun ⟨pitch, h⟩ => hquiet pitch h) fun h => hdisjoint hends h.1
  | goesOn _ hbefore _ _ hquiet =>
    exact iff_of_false (fun ⟨pitch, h⟩ => hquiet pitch h) fun h => absurd hbefore (Bool.eq_false_iff.1 h.2)
  | starts hends hbefore _ _ hstart => exact iff_of_true hstart ⟨hends, hbefore⟩

/-! ### Beeps that sound -/

/-- The beep was started, and its end was not reported. -/
def Sounding (w : Window) (events : List Event) (beep : Nat) : Prop :=
  beep < (w.after events).beeps ∧ Event.beepEnded beep ∉ events

/-- Ends are only reported of beeps that sound, and so at most once of each. -/
def Timely (w : Window) (events : List Event) : Prop :=
  ∀ earlier beep, earlier ++ [.beepEnded beep] <+: events → w.Sounding earlier beep

/-- A frame starts a beep while another one sounds. -/
def Overlaps (w : Window) (events : List Event) : Prop :=
  ∃ earlier beep, earlier ++ [.frame] <+: events ∧ (w.after earlier).StartsBeep ∧ w.Sounding earlier beep

/-- There was a silent frame since the beep was started. -/
def Silenced (w : Window) (events : List Event) (beep : Nat) : Prop :=
  ∃ earlier, earlier ++ [.frame] <+: events ∧ (w.after earlier).FallsSilent ∧ beep < (w.after earlier).beeps

/-- A frame rings while a beep sounds that was silenced before. -/
def RingsAgain (w : Window) (events : List Event) : Prop :=
  ∃ earlier beep, earlier ++ [.frame] <+: events ∧ (w.after earlier).Rings ∧ w.Sounding earlier beep ∧
    w.Silenced earlier beep

theorem after_concat (w : Window) (events : List Event) (e : Event) :
    w.after (events ++ [e]) = ((w.after events).handle e).window :=
  w.after_append events [e]

theorem Timely.earlier {earlier : List Event} (h : w.Timely events) (hle : earlier <+: events) : w.Timely earlier :=
  fun before beep hend => h before beep (hend.trans hle)

theorem Silenced.later {earlier : List Event} (h : w.Silenced earlier beep) (hle : earlier <+: events) :
    w.Silenced events beep := by
  obtain ⟨before, hframe, hsilent, hbeep⟩ := h
  exact ⟨before, hframe.trans hle, hsilent, hbeep⟩

theorem Overlaps.later {earlier : List Event} (h : w.Overlaps earlier) (hle : earlier <+: events) :
    w.Overlaps events := by
  obtain ⟨before, beep, hframe, hstart, hsounding⟩ := h
  exact ⟨before, beep, hframe.trans hle, hstart, hsounding⟩

theorem RingsAgain.later {earlier : List Event} (h : w.RingsAgain earlier) (hle : earlier <+: events) :
    w.RingsAgain events := by
  obtain ⟨before, beep, hframe, hrings, hsounding, hsilenced⟩ := h
  exact ⟨before, beep, hframe.trans hle, hrings, hsounding, hsilenced⟩

/-- The flag and the number of beeps after an event that is no frame. -/
theorem sound_handle (w : Window) {e : Event} (he : e ≠ .frame) :
    (w.handle e).window.beeps = w.beeps ∧
      ((w.handle e).window.beeping = w.beeping ∨
        ∃ beep, e = .beepEnded beep ∧ beep < w.beeps ∧ (w.handle e).window.beeping = false) := by
  rcases (w.confined_handle e).sound with hframe | ⟨beep, rfl⟩ | ⟨hbeeping, hbeeps⟩
  · exact absurd hframe he
  · simp only [handle, beepEnded]
    split
    · rename_i hstarted
      exact ⟨rfl, .inr ⟨beep, rfl, hstarted, rfl⟩⟩
    · exact ⟨rfl, .inl rfl⟩
  · exact ⟨hbeeps, .inl hbeeping⟩

theorem beeps_le_handle (w : Window) (e : Event) : w.beeps ≤ (w.handle e).window.beeps := by
  by_cases he : e = .frame
  · subst he
    cases w.frameSounds with
    | broken _ _ hbeeps _ | silent _ _ hbeeps _ | goesOn _ _ _ hbeeps _ => exact Nat.le_of_eq hbeeps.symm
    | starts _ _ _ hbeeps _ =>
      rw [handle, hbeeps]
      exact Nat.le_succ _
  · exact Nat.le_of_eq (w.sound_handle he).1.symm

theorem beeps_le_after (w : Window) (events more : List Event) :
    (w.after events).beeps ≤ (w.after (events ++ more)).beeps := by
  rw [after_append]
  have hstep : ∀ (now : Window) (e : Event), (w.after events).beeps ≤ now.beeps → True →
      (w.after events).beeps ≤ (now.handle e).window.beeps :=
    fun now e h _ => Nat.le_trans h (now.beeps_le_handle e)
  exact after_induction_of hstep (Nat.le_refl _) fun _ _ => trivial

/-- A beep that sounds has sounded since it was started. -/
theorem Sounding.earlier {earlier : List Event} (h : w.Sounding events beep) (hle : earlier <+: events)
    (hstarted : beep < (w.after earlier).beeps) : w.Sounding earlier beep :=
  ⟨hstarted, fun hend => h.2 (hle.subset hend)⟩

/-! ### No frame rings too early -/

/-- At most the latest beep sounds while the flag is set; while it is not, all that sound were silenced. -/
inductive Steady (w : Window) (events : List Event) : Prop where
  | clear (hflag : (w.after events).beeping = false) (hsilenced : ∀ beep, w.Sounding events beep → w.Silenced events beep)
  | set (hflag : (w.after events).beeping = true)
      (hlatest : ∀ beep, w.Sounding events beep → beep + 1 = (w.after events).beeps)

theorem Sounding.of_beeps_eq {e : Event} (h : w.Sounding (events ++ [e]) beep)
    (hbeeps : (w.after (events ++ [e])).beeps = (w.after events).beeps) : w.Sounding events beep := by
  have hstarted := h.1
  rw [hbeeps] at hstarted
  exact h.earlier (List.prefix_append _ _) hstarted

theorem Steady.of_eq (h : w.Steady events) {e : Event}
    (hbeeping : (w.after (events ++ [e])).beeping = (w.after events).beeping)
    (hbeeps : (w.after (events ++ [e])).beeps = (w.after events).beeps) : w.Steady (events ++ [e]) := by
  cases h with
  | clear hflag hsilenced =>
    refine .clear (hbeeping.trans hflag) fun beep hsounding => ?_
    exact (hsilenced beep (hsounding.of_beeps_eq hbeeps)).later (List.prefix_append _ _)
  | set hflag hlatest =>
    refine .set (hbeeping.trans hflag) fun beep hsounding => ?_
    rw [hbeeps]
    exact hlatest beep (hsounding.of_beeps_eq hbeeps)

theorem Steady.frame (h : w.Steady events) (hrings : ¬ w.RingsAgain (events ++ [.frame])) :
    w.Steady (events ++ [.frame]) := by
  have hafter : w.after (events ++ [.frame]) = (w.after events).frame.window := w.after_concat events .frame
  cases (w.after events).frameSounds with
  | broken _ hbeeping hbeeps _ =>
    rw [← hafter] at hbeeping hbeeps
    exact h.of_eq hbeeping hbeeps
  | goesOn _ hset hbeeping hbeeps _ =>
    rw [← hafter] at hbeeping hbeeps
    exact h.of_eq (hbeeping.trans hset.symm) hbeeps
  | silent hends hbeeping hbeeps _ =>
    rw [← hafter] at hbeeping hbeeps
    refine .clear hbeeping fun beep hsounding => ?_
    exact ⟨events, List.prefix_rfl, hends, (hsounding.of_beeps_eq hbeeps).1⟩
  | starts hends hclear hbeeping hbeeps _ =>
    rw [← hafter] at hbeeping hbeeps
    cases h with
    | set hflag _ => exact absurd hflag (Bool.eq_false_iff.1 hclear)
    | clear _ hsilenced =>
      refine .set hbeeping fun beep hsounding => ?_
      -- no older beep sounds: it was silenced, and now a frame rings
      have hnew : ¬ beep < (w.after events).beeps := by
        intro hlt
        have hold := hsounding.earlier (List.prefix_append _ _) hlt
        exact hrings ⟨events, beep, List.prefix_rfl, hends, hold, hsilenced beep hold⟩
      have hstarted := hsounding.1
      omega

theorem Steady.concat (h : w.Steady events) {e : Event} (htimely : w.Timely (events ++ [e]))
    (hrings : ¬ w.RingsAgain (events ++ [e])) : w.Steady (events ++ [e]) := by
  by_cases he : e = .frame
  · subst he
    exact h.frame hrings
  · obtain ⟨hbeeps, hbeeping⟩ := (w.after events).sound_handle he
    rw [← after_concat] at hbeeps hbeeping
    rcases hbeeping with hsame | ⟨ended, rfl, -, hcleared⟩
    · exact h.of_eq hsame hbeeps
    · cases h with
      | clear hflag hsilenced => exact Steady.of_eq (.clear hflag hsilenced) (hcleared.trans hflag.symm) hbeeps
      | set _ hlatest =>
        -- the beep that has ended was the only one that sounded
        refine .clear hcleared fun beep hsounding => ?_
        have hended := hlatest ended (htimely events ended List.prefix_rfl)
        have hother := hlatest beep (hsounding.of_beeps_eq hbeeps)
        obtain rfl : beep = ended := by omega
        exact absurd (List.mem_append_right _ List.mem_cons_self) hsounding.2

theorem steady_of_timely (hbeeping : w.beeping = false) (hbeeps : w.beeps = 0) (htimely : w.Timely events)
    (hrings : ¬ w.RingsAgain events) : w.Steady events := by
  induction events using List.reverseRecOn with
  | nil =>
    refine .clear hbeeping fun beep hsounding => ?_
    have hstarted : beep < w.beeps := hsounding.1
    omega
  | append_singleton events e ih =>
    have hle : events <+: events ++ [e] := List.prefix_append _ _
    exact (ih (htimely.earlier hle) fun h => hrings (h.later hle)).concat htimely hrings

/-! ### A frame that rings too early -/

/-- After a silent frame the flag is clear while a beep sounds that was started before, unless beeps overlap. -/
theorem clear_of_silenced {silent more : List Event} (hsilent : (w.after silent).FallsSilent)
    (hbeep : beep < (w.after silent).beeps) (hsounding : w.Sounding (silent ++ [.frame] ++ more) beep) :
    (w.after (silent ++ [.frame] ++ more)).beeping = false ∨ w.Overlaps (silent ++ [.frame] ++ more) := by
  induction more using List.reverseRecOn with
  | nil =>
    left
    rw [List.append_nil, after_concat]
    cases (w.after silent).frameSounds with
    | broken hends _ _ _ => exact absurd hsilent.1 hends
    | silent _ hbeeping _ _ => exact hbeeping
    | goesOn hends _ _ _ _ | starts hends _ _ _ _ => exact absurd hsilent.2 hends.2
  | append_singleton more e ih =>
    rw [← List.append_assoc] at hsounding ⊢
    have hle : silent ++ [.frame] ++ more <+: silent ++ [.frame] ++ more ++ [e] := List.prefix_append _ _
    have hbefore : w.Sounding (silent ++ [.frame] ++ more) beep := by
      refine hsounding.earlier hle ?_
      rw [List.append_assoc]
      exact Nat.lt_of_lt_of_le hbeep (w.beeps_le_after silent _)
    rcases ih hbefore with hclear | hoverlaps
    · by_cases he : e = .frame
      · subst he
        rw [after_concat, handle]
        cases (w.after (silent ++ [.frame] ++ more)).frameSounds with
        | broken _ hbeeping _ _ => exact .inl (hbeeping.trans hclear)
        | silent _ hbeeping _ _ => exact .inl hbeeping
        | goesOn _ hset _ _ _ => exact absurd hset (Bool.eq_false_iff.1 hclear)
        | starts hrings _ _ _ _ =>
          exact .inr ⟨_, beep, List.prefix_rfl, startsBeep_iff.2 ⟨hrings, hclear⟩, hbefore⟩
      · left
        rw [after_concat]
        rcases ((w.after (silent ++ [.frame] ++ more)).sound_handle he).2 with hsame | ⟨-, -, -, hcleared⟩
        · exact hsame.trans hclear
        · exact hcleared
    · exact .inr (hoverlaps.later hle)

theorem overlaps_of_ringsAgain (h : w.RingsAgain events) : w.Overlaps events := by
  obtain ⟨earlier, beep, hframe, hrings, hsounding, silent, hsilentFrame, hsilent, hbeep⟩ := h
  obtain ⟨more, rfl⟩ := hsilentFrame
  rcases clear_of_silenced hsilent hbeep hsounding with hclear | hoverlaps
  · exact ⟨_, beep, hframe, startsBeep_iff.2 ⟨hrings, hclear⟩, hsounding⟩
  · exact hoverlaps.later ((List.prefix_append _ _).trans hframe)

/-- In a window that was just opened beeps overlap exactly if a frame rings while a beep sounds that an earlier frame
had silenced. -/
theorem overlaps_iff {s : Session} {cyclesPerFrame scale : Int} {pitches : Wheel} {keyboard : Keyboard}
    (hopen : ofSession s cyclesPerFrame scale pitches keyboard = .ok w) (htimely : w.Timely events) :
    w.Overlaps events ↔ w.RingsAgain events := by
  have hopened := opened_of_ofSession hopen
  refine ⟨fun hoverlaps => ?_, overlaps_of_ringsAgain⟩
  by_contra hrings
  obtain ⟨earlier, beep, hframe, hstart, hsounding⟩ := hoverlaps
  have hle : earlier <+: events := (List.prefix_append _ _).trans hframe
  have hsteady := steady_of_timely hopened.beeping hopened.beeps (htimely.earlier hle) fun h => hrings (h.later hle)
  obtain ⟨hends, hclear⟩ := startsBeep_iff.1 hstart
  cases hsteady with
  | clear _ hsilenced => exact hrings ⟨earlier, beep, hframe, hends, hsounding, hsilenced beep hsounding⟩
  | set hflag _ => exact absurd hflag (Bool.eq_false_iff.1 hclear)

/-- The sound timer runs at the first and the third frame only; the first beep ends in between. -/
theorem overlaps_iff_of_ended :
    let rom : List UInt8 := [0x60, 0x01, 0xF0, 0x18, 0x60, 0x01, 0x60, 0x01, 0xF0, 0x18, 0x12, 0x00]
    let events : List Event := [.frame, .frame, .beepEnded 0, .frame]
    ∃ w, ofSession ((Session.fresh Dialect.modern Layout.standard {} false).load rom).session 2 1 {} = .ok w ∧
      w.Timely events ∧ (w.after events).beeps = 2 ∧ ¬ w.Overlaps events := by
  intro rom events
  have hopen : (ofSession ((Session.fresh Dialect.modern Layout.standard {} false).load rom).session 2 1 {}).map
      (fun w => ((w.after [.frame, .frame]).beeps, (w.after [.frame, .frame, .beepEnded 0]).beeps,
        (w.after events).beeps)) = .ok (1, 1, 2) := by
    decide +kernel
  obtain ⟨w, hok, hcounts⟩ := Except.map_eq_ok hopen
  obtain ⟨hstarted, hended, hbeeps⟩ : _ ∧ _ ∧ _ := by simpa only [Prod.mk.injEq] using hcounts
  have hsilent : w.beeps = 0 := (opened_of_ofSession hok).beeps
  have htimely : w.Timely events := by
    intro earlier beep hend
    rcases earlier with _ | ⟨a, _ | ⟨b, _ | ⟨c, _ | ⟨d, rest⟩⟩⟩⟩ <;> simp [events] at hend
    obtain ⟨rfl, rfl, rfl⟩ := hend
    exact ⟨by rw [hstarted]; decide, by simp⟩
  refine ⟨w, hok, htimely, hbeeps, ?_⟩
  rw [overlaps_iff hok htimely]
  rintro ⟨earlier, beep, hframe, -, ⟨hlt, hsounds⟩, silent, hsilentFrame, -, hbeep⟩
  rcases earlier with _ | ⟨a, _ | ⟨b, _ | ⟨c, _ | ⟨d, rest⟩⟩⟩⟩ <;> simp [events] at hframe
  · exact absurd (hlt.trans_eq hsilent) (Nat.not_lt_zero beep)
  · have hlength := hsilentFrame.length_le
    obtain rfl : silent = [] := List.eq_nil_of_length_eq_zero (by simpa using hlength)
    exact absurd (hbeep.trans_eq hsilent) (Nat.not_lt_zero beep)
  · obtain ⟨rfl, rfl, rfl⟩ := hframe
    obtain rfl : beep = 0 := by omega
    exact hsounds (by simp)

/-- The same program without the end of the first beep: the third frame starts a second one all the same. -/
theorem overlaps_of_silent_frame :
    let rom : List UInt8 := [0x60, 0x01, 0xF0, 0x18, 0x60, 0x01, 0x60, 0x01, 0xF0, 0x18, 0x12, 0x00]
    ∃ w, ofSession ((Session.fresh Dialect.modern Layout.standard {} false).load rom).session 2 1 {} = .ok w ∧
      w.Timely [.frame, .frame, .frame] ∧ w.Sounding [.frame, .frame] 0 ∧ (w.after [.frame, .frame]).StartsBeep := by
  intro rom
  have hopen : (ofSession ((Session.fresh Dialect.modern Layout.standard {} false).load rom).session 2 1 {}).map
      (fun w => ((w.after [.frame, .frame]).beeps, decide (w.after [.frame, .frame]).Rings,
        (w.after [.frame, .frame]).beeping)) = .ok (1, true, false) := by
    decide +kernel
  obtain ⟨w, hok, hsound⟩ := Except.map_eq_ok hopen
  obtain ⟨hbeeps, hrings, hclear⟩ : _ ∧ _ ∧ _ := by simpa only [Prod.mk.injEq, decide_eq_true_eq] using hsound
  refine ⟨w, hok, ?_, ⟨by rw [hbeeps]; decide, by simp⟩, startsBeep_iff.2 ⟨hrings, hclear⟩⟩
  intro earlier beep hend
  have hmem : Event.beepEnded beep ∈ [Event.frame, .frame, .frame] :=
    hend.subset (List.mem_append_right _ List.mem_cons_self)
  simp at hmem

end ChipEight.Window
