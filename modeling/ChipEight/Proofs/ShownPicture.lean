import ChipEight.Proofs.Micro.Canvas

/-!
# The shown picture is that of the screen

A window makes a new picture only when it draws and the screen is marked as changed. The mark is what makes this
right: whenever the screen is not marked, the picture is that of the screen (`Window.Current`), because whatever
changes the screen marks it. So a window never shows an old picture: at the moment when a draw shows the image, its
bytes depict the screen as it is then (`shown_picture_current`), however frames, draws, keys and the clock came before.
-/

namespace ChipEight

namespace Window

/-- The pictures that requests put on a window, which at first has the image `image`. -/
def blits (image : Picture) : List Request → List Picture
  | [] => []
  | .setImage p :: requests => blits p requests
  | .showImage :: requests => image :: blits image requests
  | _ :: requests => blits image requests

/-- The picture is that of the screen, a pixel being a square of `side` dots, unless the screen is marked as changed. -/
structure Current (side : Nat) (w : Window) : Prop where
  scale : w.scale = side
  picture : w.machine.screen.dirty = false → w.picture = Picture.render side w.machine.screen

variable {side : Nat} {w : Window}

theorem render_shown (scale : Nat) (s : Screen) : Picture.render scale s.shown = Picture.render scale s := rfl

theorem Current.draw (h : w.Current side) : w.draw.window.Current side := by
  unfold Window.draw
  split
  · refine ⟨h.scale, fun _ => ?_⟩
    exact (congrArg (fun n => Picture.render n w.machine.screen) h.scale).trans
      (render_shown side w.machine.screen).symm
  · exact ⟨h.scale, h.picture⟩

theorem Current.handle (h : w.Current side) {e : Event} (he : e.marksShown = false) :
    (w.handle e).window.Current side := by
  by_cases hdraw : e = .draw
  · subst hdraw
    exact h.draw
  · have hconfined := w.confined_handle e
    refine ⟨hconfined.scale.trans h.scale, fun hclean => ?_⟩
    -- an unmarked screen was not touched, so it was unmarked before
    have hsame : (w.handle e).window.machine.screen = w.machine.screen := w.marks_handle hdraw he hclean
    rw [hsame] at hclean ⊢
    rw [hconfined.picture.resolve_left hdraw]
    exact h.picture hclean

theorem Current.after (h : w.Current side) {events : List Event} (hevents : ∀ e ∈ events, e.marksShown = false) :
    (w.after events).Current side :=
  after_induction_of (fun _ _ hw he => hw.handle he) h hevents

/-- A draw shows one picture, which is the one that it leaves behind. -/
theorem blits_draw (w : Window) : blits w.picture w.draw.requests = [w.draw.window.picture] := by
  unfold draw
  split <;> rfl

theorem screen_draw (w : Window) : w.draw.window.machine.screen = w.machine.screen.shown := by
  unfold draw
  split
  · rfl
  · rename_i hclean
    have hmark : w.machine.screen.dirty = false := Bool.eq_false_of_not_eq_true hclean
    exact congrArg (Screen.mk w.machine.screen.rows) hmark

theorem Current.picture_draw (h : w.Current side) : w.draw.window.picture = Picture.render side w.machine.screen := by
  have hmark : w.draw.window.machine.screen.dirty = false := by rw [screen_draw, Screen.shown]
  rw [h.draw.picture hmark, screen_draw, render_shown]

theorem Opened.current {s : Session} (h : w.Opened s side) (hdirty : s.machine.screen.dirty = true) :
    w.Current side := by
  refine ⟨h.scale, fun hclean => ?_⟩
  rw [machine, h.session] at hclean
  exact absurd hdirty (Bool.eq_false_iff.1 hclean)

end Window

/-- Whenever the screen is not marked as changed, and whenever a draw shows the image, the bytes of the image depict
the screen, dot by dot. They are the bytes that painting on a canvas makes, as well as those of the window's picture. -/
theorem shown_picture_current (dialect : Dialect) (layout : Layout) (random pitches : Wheel) (logging : Bool)
    (rom : List UInt8) (cyclesPerFrame : Int) (scale : Nat) (hscale : 1 ≤ scale) (keyboard : Keyboard) {w : Window}
    (hopen : Window.ofSession ((Session.fresh dialect layout random logging).load rom).session cyclesPerFrame scale
      pitches keyboard = .ok w)
    (events : List Event) (hevents : ∀ e ∈ events, e.marksShown = false) :
    let now := w.after events
    let canvas := (Micro.Canvas.blank scale).after w events
    let drawn := canvas.handle now .draw
    canvas.image = now.picture.bytes ∧
      (now.machine.screen.dirty = false → Depicts scale now.machine.screen canvas.image) ∧
        (∃ shown, Window.blits now.picture now.draw.requests = [shown] ∧ shown.bytes = drawn.image) ∧
          Depicts scale now.machine.screen drawn.image ∧ now.draw.window.machine.screen = now.machine.screen.shown := by
  intro now canvas drawn
  have hopened := Window.opened_of_ofSession hopen
  rw [Int.toNat_natCast] at hopened
  have hcurrent : now.Current scale := by
    refine (hopened.current ?_).after hevents
    rw [Session.screen_load]
    rfl
  have hshows : canvas.Shows now := by
    have hblank := Micro.Canvas.shows_blank hopened.picture
    rw [hopened.scale] at hblank
    exact hblank.after events
  have hdrawn : drawn.image = (Picture.render scale now.machine.screen).bytes :=
    (hshows.handle .draw).image.trans (congrArg Picture.bytes hcurrent.picture_draw)
  refine ⟨hshows.image, fun hclean => ?_, ⟨_, now.blits_draw, (hshows.handle .draw).image.symm⟩, ?_, now.screen_draw⟩
  · rw [hshows.image, hcurrent.picture hclean]
    exact depicts_render hscale now.machine.screen
  · rw [hdrawn]
    exact depicts_render hscale now.machine.screen

/-- The glyph of 0 is drawn in the upper left corner; its first pixel is the two by two dots at the left of the two
highest rows. -/
theorem shown_picture_current_glyph :
    let rom : List UInt8 := [0xF0, 0x29, 0xD0, 0x15, 0x12, 0x04]
    let events : List Event := [.draw, .frame, .keyDown 0x31, .draw, .deactivate, .frame]
    ∃ w, Window.ofSession ((Session.fresh Dialect.modern Layout.standard {} false).load rom).session 3 (2 : Nat) {} =
        .ok w ∧
      1 ≤ 2 ∧ (∀ e ∈ events, e.marksShown = false) ∧ (w.after events).machine.screen.dirty = false ∧
        ((((Micro.Canvas.blank 2).after w events).image.drop (4 * (63 * 128 + 1))).take 4 = [255, 255, 255, 255] ∧
          (((Micro.Canvas.blank 2).after w events).image.drop (4 * (61 * 128 + 2))).take 4 = [0, 0, 0, 255]) := by
  intro rom events
  have hopen : ((Window.ofSession ((Session.fresh Dialect.modern Layout.standard {} false).load rom).session 3 (2 : Nat)
      {}).map fun w =>
        ((w.after events).machine.screen.dirty, (w.after events).machine.screen.lit 0 0,
          (w.after events).machine.screen.lit 1 1)) = .ok (false, true, false) := by
    decide +kernel
  obtain ⟨w, hok, hscreen⟩ := Except.map_eq_ok hopen
  obtain ⟨hclean, hlit, hdark⟩ : _ ∧ _ ∧ _ := by simpa only [Prod.mk.injEq] using hscreen
  have hevents : ∀ e ∈ events, e.marksShown = false := by simp [events, Event.marksShown]
  obtain ⟨-, himage, -⟩ :=
    shown_picture_current Dialect.modern Layout.standard {} {} false rom 3 2 (by decide) .usual hok events hevents
  have hdepicts := himage hclean
  refine ⟨w, hok, by decide, hevents, hclean, ?_, ?_⟩
  · rw [hdepicts.dot 63 1 (by decide) (by decide)]
    exact if_pos hlit
  · rw [hdepicts.dot 61 2 (by decide) (by decide)]
    exact if_neg (Bool.eq_false_iff.1 hdark)

end ChipEight
