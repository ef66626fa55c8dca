import ChipEight.CommandLine.Parser
import ChipEight.Launch

/-!
# The program

A terminal in the place of a window. Every line of standard input is an event: `down N` and `up N` for a key of
the keyboard by its symbol, anything else for a frame that is then drawn. The screen is printed when it changed.
-/

namespace ChipEight

/-- The screen as lines of text, two characters for a pixel. -/
def screenLines (s : Screen) : List String :=
  s.rows.toList.map fun row =>
    String.join ((List.finRange 64).map fun x => if row.getMsb x then "##" else "  ")

/-- The events of a line of input. -/
def eventsOfLine (line : String) : List Event :=
  match (line.trimAscii.toString.splitOn " ") with
  | ["down", n] => [.keyDown (n.toNat?.getD 0)]
  | ["up", n] => [.keyUp (n.toNat?.getD 0)]
  | _ => [.frame, .draw]

/-- The contents of a file, or why it has none. -/
def readRom (path : String) : IO (Except Fault (List UInt8)) := do
  try
    let contents ← IO.FS.readBinFile path
    return .ok contents.toList
  catch
    | .inappropriateType .. => return .error (.isDirectory path)
    | _ => return .error (.missingFile path)

/-- Random numbers from `low` to `high`. -/
def randomWheel (low high : Nat) : IO Wheel := do
  let numbers ← (Array.range 4096).mapM fun _ => do return Int.ofNat (← IO.rand low high)
  return { numbers := numbers }

def printLines (lines : Array String) : IO Unit := lines.forM IO.println

/-- Plays one event. -/
def play (w : Window) (e : Event) : IO Window := do
  let reaction := w.handle e
  printLines reaction.lines
  for request in reaction.requests do
    match request with
    | .setImage _ => printLines (screenLines w.machine.screen).toArray
    | _ => pure ()
  match reaction.answer with
  | .error fault => IO.eprintln fault.message
  | .ok _ => pure ()
  return reaction.window

partial def playInput (input : IO.FS.Stream) (w : Window) : IO Unit := do
  let line ← input.getLine
  if line.isEmpty || w.stopped then return
  playInput input (← (eventsOfLine line).foldlM play w)

def runSettings (settings : CommandLine.Settings) : IO UInt32 := do
  let contents ← readRom settings.rom
  match Launch.start settings contents (← randomWheel 0 255) (← randomWheel 0 30) with
  | .noProgram lines => printLines lines; return 1
  | .noWindow fault => IO.eprintln fault.message; return 1
  | .started window lines =>
    printLines lines
    playInput (← IO.getStdin) window
    return 0

end ChipEight

open ChipEight in
def main (args : List String) : IO UInt32 := do
  match CommandLine.parse args with
  | .ok settings => runSettings settings
  | .error stop =>
    printLines stop.lines.toArray
    if stop.message ≠ "" then
      CommandLine.usageLines.forM IO.eprintln
      IO.eprintln stop.message
    return stop.code.toUInt32
