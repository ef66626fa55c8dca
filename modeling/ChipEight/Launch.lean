import ChipEight.CommandLine.Options
import ChipEight.RomFile
import ChipEight.Window.Event

/-!
# Launching

From settings and the contents of the program's file to a window. A program that cannot be read or loaded ends it.
-/

namespace ChipEight

/-- What a launch comes to. -/
inductive Launch where
  | started (window : Window) (lines : Array String)
  /-- There is no program to run; the exit code is 1. -/
  | noProgram (lines : Array String)
  /-- There is no such window. -/
  | noWindow (fault : Fault)

namespace Launch

/-- The line for a program that cannot be read or loaded. -/
def failedLine (fault : Fault) : String := "Could not load ROM: " ++ fault.message

/-- Loads the program and opens a window on it. -/
def start (settings : CommandLine.Settings) (contents : Except Fault (List UInt8)) (random pitches : Wheel)
    (keyboard : Keyboard := .usual) : Launch :=
  let options := settings.options
  let opening := Folder.readingLines options.logs settings.rom
  let session : Session :=
    { machine := { dialect := options.dialect, random := random }, logging := options.logs }
  match contents with
  | .error fault => .noProgram (opening.push (failedLine fault))
  | .ok rom =>
    let reply := session.load rom
    match reply.answer with
    | .error fault => .noProgram (opening ++ reply.lines |>.push (failedLine fault))
    | .ok _ =>
      match Window.ofSession reply.session options.cycles options.scale pitches keyboard with
      | .ok window => .started window (opening ++ reply.lines)
      | .error fault => .noWindow fault

end Launch

end ChipEight
