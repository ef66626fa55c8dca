import ChipEight.Window.Basic

/-!
# Events of a window

What a window does when something happens to it: its state afterwards, what it asks its surroundings to do, the
lines it prints, and the answer or the fault.
-/

namespace ChipEight

/-- What can happen to a window. -/
inductive Event where
  | frame
  /-- Some seconds have passed since the rates were last worked out. -/
  | rates (seconds : Float)
  | draw
  /-- The window has lost the keyboard. -/
  | deactivate
  | keyDown (symbol : Nat)
  | keyUp (symbol : Nat)
  /-- The beep of this number has come to its end. -/
  | beepEnded (beep : Nat)
  /-- The session inside is given a command. -/
  | command (c : Command)

/-- What a window asks for. -/
inductive Request where
  | close
  | clear
  /-- The image becomes this picture. -/
  | setImage (p : Picture)
  /-- The image is put on the window. -/
  | showImage
  | showLabel (text : String)
  | startBeep (pitch : Int)
  | dropBeep (beep : Nat)
deriving DecidableEq

/-- The outcome of an event. -/
structure Reaction where
  window : Window
  requests : List Request := []
  lines : Array String := #[]
  answer : Except Fault Answer := .ok .nothing

namespace Window

/-- The pitch of the next beep. -/
def nextPitch (w : Window) : Int := basePitch + (w.pitches.next % (2 * pitchSpread + 1) - pitchSpread)

/-- After a frame: a beep is started if the sound timer runs and none sounds; the silent timer ends beeping. -/
def sound (w : Window) : Window × List Request :=
  if w.machine.timers.sound = 0 then ({ w with beeping := false }, [])
  else if w.beeping then (w, [])
  else
    ({ w with beeping := true, beeps := w.beeps + 1, pitches := w.pitches.advance }, [.startBeep w.nextPitch])

/-- A frame, unless the window was stopped. A fault of the program stops it; the frame is then not counted. -/
def frame (w : Window) : Reaction :=
  if w.stopped then { window := w }
  else
    let run := w.machine.frame w.session.logging w.cyclesPerFrame
    let ran := w.withMachine run.machine
    match run.fault with
    | some fault =>
      if fault.stopsProgram then
        { window := { ran with stopped := true }
          requests := [.close]
          lines := run.lines.push ("Emulation error: " ++ fault.message) }
      else { window := ran, lines := run.lines, answer := .error fault }
    | none =>
      let (sounded, requests) := sound { ran with cycles := w.cycles + (run.machine.cycles - w.machine.cycles) }
      { window := sounded, requests := requests, lines := run.lines }

/-- The rates are worked out, and counting starts again. -/
def rates (w : Window) (seconds : Float) : Reaction :=
  let drawRate := "FPS: " ++ match rate? w.draws seconds with
    | some d => d.oneDecimal
    | none => "inf"
  match rate? w.cycles seconds with
  | some d =>
    { window := { w with
        drawRate := drawRate, cycleRate := "Cycles/s: " ++ toString d.floor, draws := 0, cycles := 0 } }
  | none => { window := { w with drawRate := drawRate }, answer := .error .infiniteRate }

/-- The picture is made anew if the screen changed; then everything is drawn. -/
def draw (w : Window) : Reaction :=
  let drawing : List Request := [.clear, .showImage, .showLabel w.drawRate, .showLabel w.cycleRate]
  if w.machine.screen.dirty then
    let picture := Picture.render w.scale w.machine.screen
    { window := { w.withMachine { w.machine with screen := w.machine.screen.shown } with
        picture := picture, draws := w.draws + 1 }
      requests := .setImage picture :: drawing }
  else { window := { w with draws := w.draws + 1 }, requests := drawing }

/-- All keys go up, since nothing is heard any more of those that are released. -/
def deactivate (w : Window) : Reaction :=
  { window := w.withMachine { w.machine with keypad := w.machine.keypad.reset } }

/-- The keypad key for a symbol, if there is one, is pressed or released. -/
def passKey (w : Window) (symbol : Nat) (change : Keypad → Int → Except Fault Keypad) : Except Fault Window :=
  match w.keymap.key? symbol with
  | none => .ok w
  | some key =>
    (change w.machine.keypad key).map fun keypad => w.withMachine { w.machine with keypad := keypad }

/-- Escape stops the window, then the keypad gets the key, then F1 turns tracing on or off. -/
def keyDown (w : Window) (symbol : Nat) : Reaction :=
  let escaped := symbol = w.keyboard.escape
  let left := { w with stopped := w.stopped || escaped }
  let requests : List Request := if escaped then [.close] else []
  match left.passKey symbol Keypad.press with
  | .error fault => { window := left, requests := requests, answer := .error fault }
  | .ok pressed =>
    if symbol = w.keyboard.f1 then
      let reply := pressed.session.toggleLogging
      { window := { pressed with session := reply.session }, requests := requests, lines := reply.lines }
    else { window := pressed, requests := requests }

/-- The keypad key for a symbol, if there is one, goes up. -/
def keyUp (w : Window) (symbol : Nat) : Reaction :=
  match w.passKey symbol Keypad.release with
  | .error fault => { window := w, answer := .error fault }
  | .ok released => { window := released }

/-- The end of a beep; one that was never started has no end. -/
def beepEnded (w : Window) (beep : Nat) : Reaction :=
  if beep < w.beeps then { window := { w with beeping := false }, requests := [.dropBeep beep] }
  else { window := w }

/-- A command to the session. -/
def command (w : Window) (c : Command) : Reaction :=
  let reply := w.session.perform c
  { window := { w with session := reply.session }, lines := reply.lines, answer := reply.answer }

/-- What an event does. -/
def handle (w : Window) : Event → Reaction
  | .frame => w.frame
  | .rates seconds => w.rates seconds
  | .draw => w.draw
  | .deactivate => w.deactivate
  | .keyDown symbol => w.keyDown symbol
  | .keyUp symbol => w.keyUp symbol
  | .beepEnded beep => w.beepEnded beep
  | .command c => w.command c

end Window

end ChipEight
