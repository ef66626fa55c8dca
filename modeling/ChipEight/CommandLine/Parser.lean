import ChipEight.CommandLine.Token
import ChipEight.Text.Numeral

/-!
# Reading a command line

The tokens are taken from left to right; the last value of an option counts. The first plain word names the
program, and what is left over is reported at the end, after a missing program.
-/

namespace ChipEight.CommandLine

/-- The settings as far as they have been read. -/
structure Draft where
  rom : Option String := none
  options : Options := {}
  /-- The words that mean nothing. -/
  extras : List String := []
  /-- The program was named by the word just read. -/
  justNamed : Bool := false
deriving DecidableEq

namespace Draft

/-- A word that means nothing. -/
def extra (d : Draft) (text : String) : Draft := { d with extras := d.extras ++ [text], justNamed := false }

/-- A plain word names the program if none has done so. -/
def word (d : Draft) (text : String) : Draft :=
  if d.rom.isNone then { d with rom := some text, justNamed := true } else d.extra text

/-- The divider means nothing only where no word for the program is looked for and none was just read. -/
def divide (d : Draft) : Draft := if d.rom.isNone || d.justNamed then d else d.extra "--"

/-- A switch is given. -/
def setSwitch (d : Draft) (s : Switch) : Draft :=
  { d with options := d.options.setSwitch s, justNamed := false }

/-- An option gets a text for its integer. -/
def setQuantity (d : Draft) (q : Quantity) (text : String) : Except Stop Draft :=
  match Text.integer? text with
  | some n => .ok { d with options := d.options.setQuantity q n, justNamed := false }
  | none => .error (.mistake (.notAnInteger q text))

/-- The settings, if a program was named and no word is left over. -/
def finish (d : Draft) : Except Stop Settings :=
  match d.rom, d.extras with
  | none, _ => .error (.mistake .missingRom)
  | some rom, [] => .ok ⟨rom, d.options⟩
  | some _, extras => .error (.mistake (.unrecognized extras))

end Draft

/-- The letters behind the letter for help: that letter again may be followed by more, any other one by anything,
but neither a value nor a dash may follow. -/
def helpLetters : List Char → Stop
  | [] => .help
  | 'h' :: '=' :: value => .mistake (.needlessValue .help (String.ofList value))
  | 'h' :: rest => helpLetters rest
  | '-' :: rest => .mistake (.needlessValue .help (String.ofList ('-' :: rest)))
  | _ => .help

/-- The outcome of asking for help. -/
def helpStop : Attached → Stop
  | .nothing => .help
  | .value text => .mistake (.needlessValue .help text)
  | .letters cs => helpLetters cs

/-- Takes all tokens. -/
def consume : List Token → Draft → Except Stop Draft
  | [], d => .ok d
  | .word text :: rest, d => consume rest (d.word text)
  | .unknown text :: rest, d => consume rest (d.extra text)
  | .divider :: rest, d => consume rest d.divide
  | .opt .help attached :: _, _ => .error (helpStop attached)
  | .opt (.switch s) .nothing :: rest, d => consume rest (d.setSwitch s)
  | .opt (.switch s) (.value text) :: _, _ => .error (.mistake (.needlessValue (.switch s) text))
  | .opt (.switch s) (.letters cs) :: _, _ => .error (.mistake (.needlessValue (.switch s) (String.ofList cs)))
  | .opt (.quantity q) (.value text) :: rest, d => do consume rest (← d.setQuantity q text)
  | .opt (.quantity q) (.letters cs) :: rest, d => do consume rest (← d.setQuantity q (String.ofList cs))
  | .opt (.quantity q) .nothing :: .word text :: rest, d => do consume rest (← d.setQuantity q text)
  | .opt (.quantity q) .nothing :: _, _ => .error (.mistake (.missingValue q))

/-- The settings that a command line makes. -/
def parse (words : List String) : Except Stop Settings :=
  match Token.ofWords words with
  | .error e => .error (.mistake e)
  | .ok tokens => do (← consume tokens {}).finish

end ChipEight.CommandLine
