import ChipEight.Rate
import ChipEight.Session
import ChipEight.Window.Keymap
import ChipEight.Window.Picture

/-!
# Windows

A window runs a session at a fixed pace: sixty times a second it plays a frame, and once a second it works out how
many pictures and cycles there were. It sounds a beep while the sound timer runs, passes keys of the keyboard on
to the keypad, and keeps the picture of the screen. A fault of the program or the escape key stops it for good.
-/

namespace ChipEight

/-- What comes by the clock. -/
inductive Clock where
  | frame
  | rates
deriving DecidableEq

/-- The state of a window. -/
structure Window where
  session : Session
  keyboard : Keyboard
  keymap : Keymap
  cyclesPerFrame : Int
  scale : Nat
  picture : Picture
  /-- The window was stopped. -/
  stopped : Bool := false
  /-- A beep was started and neither ended nor was silenced. -/
  beeping : Bool := false
  /-- The beeps started so far. -/
  beeps : Nat := 0
  /-- The pictures drawn since the rates were last worked out. -/
  draws : Nat := 0
  /-- The cycles run since the rates were last worked out. -/
  cycles : Nat := 0
  drawRate : String := "FPS: 0"
  cycleRate : String := "Cycles/s: 0"
  /-- Where the pitches of beeps come from. -/
  pitches : Wheel := {}

namespace Window

/-- The title of a window. -/
def caption : String := "CHIP-8 Emulator"

/-- What the clock brings, with the times per second. -/
def schedule : List (Clock × Nat) := [(.frame, Timers.hertz), (.rates, 1)]

/-- The pitch of beeps, in hertz. -/
def basePitch : Int := 440

/-- How far a beep may be off its pitch. -/
def pitchSpread : Int := 15

/-- The samples of a beep per second. -/
def sampleRate : Nat := 44100

/-- A window over a session. The labels of its layout are looked up before the scale is checked. -/
def ofSession (s : Session) (cyclesPerFrame scale : Int) (pitches : Wheel) (keyboard : Keyboard := .usual) :
    Except Fault Window :=
  match Keymap.ofLayout s.machine.keypad.layout keyboard.symbol? with
  | .error fault => .error fault
  | .ok keymap =>
    if scale < 0 then .error .negativeScale
    else .ok {
      session := s
      keyboard := keyboard
      keymap := keymap
      cyclesPerFrame := cyclesPerFrame
      scale := scale.toNat
      picture := Picture.render scale.toNat {}
      pitches := pitches }

/-- The width of a window in dots. -/
def width (w : Window) : Nat := Screen.width * w.scale

/-- The height of a window in dots. -/
def height (w : Window) : Nat := Screen.height * w.scale

/-- The machine in the window. -/
def machine (w : Window) : Machine := w.session.machine

/-- The window goes on with another machine. -/
def withMachine (w : Window) (m : Machine) : Window := { w with session := w.session.withMachine m }

end Window

end ChipEight
