import ChipEight.CommandLine.Options
import ChipEight.Text.Quoted

/-!
# Usage

The text on how to use the command line, and the mistakes a command line can hold.
-/

namespace ChipEight.CommandLine

/-- A mistake in a command line. -/
inductive UsageError where
  | missingRom
  /-- Words that mean nothing, in their order. -/
  | unrecognized (words : List String)
  | notAnInteger (q : Quantity) (text : String)
  | missingValue (q : Quantity)
  /-- A value for an option that takes none. -/
  | needlessValue (o : Opt) (text : String)
  /-- The start of several names. -/
  | ambiguous (word : String) (names : List String)
deriving DecidableEq

/-- The line that reports a mistake. -/
def UsageError.message (e : UsageError) : String :=
  "chip8vm: error: " ++ match e with
    | missingRom => "the following arguments are required: rom"
    | unrecognized words => "unrecognized arguments: " ++ " ".intercalate words
    | notAnInteger q text => "argument " ++ (Opt.quantity q).title ++ ": invalid int value: " ++ Text.quoted text
    | missingValue q => "argument " ++ (Opt.quantity q).title ++ ": expected one argument"
    | needlessValue o text => "argument " ++ o.title ++ ": ignored explicit argument " ++ Text.quoted text
    | ambiguous word names => "ambiguous option: " ++ word ++ " could match " ++ ", ".intercalate names

/-- Why a command line makes no settings. -/
inductive Stop where
  | help
  | mistake (e : UsageError)
deriving DecidableEq

/-- The exit code of a stop. -/
def Stop.code : Stop → Nat
  | help => 0
  | mistake _ => 2

/-- The short form of the usage. -/
def usageLines : List String :=
  ["usage: chip8vm [-h] [--scale SCALE] [--cycles CYCLES] [--vip]",
   "               [--shift-uses-vy] [--jump-uses-v0] [--index-autoincrement]",
   "               [--index-overflow-flag] [--logs]",
   "               rom"]

/-- The names of an option, with a word for its value. -/
def Opt.heading : Opt → String
  | help => "-h, --help"
  | quantity .scale => "--scale SCALE"
  | quantity .cycles => "--cycles CYCLES"
  | o => ", ".intercalate o.names

/-- What an option is for. -/
def Opt.purpose : Opt → String
  | help => "show this help message and exit"
  | quantity .scale => "Pixel scale factor (default " ++ toString ({} : Options).scale ++ ")"
  | quantity .cycles => "Instructions per 60Hz frame (default " ++ toString ({} : Options).cycles ++ ")"
  | switch .vip => "Start from the original COSMAC VIP quirks"
  | switch .shiftReadsY => "8XY6/8XYE copy VY into VX before shifting"
  | switch .jumpAddsZero => "BNNN jumps to NNN + V0"
  | switch .blockMovesIndex => "FX55/FX65 increment I"
  | switch .indexSetsFlag => "FX1E sets VF when I overflows"
  | switch .logs => "Start with instruction logging on (F1 toggles it)"

/-- An entry in two columns; a heading of over 20 characters has a line of its own. -/
def entryLines (heading purpose : String) : List String :=
  if heading.length ≤ 20 then
    ["  " ++ heading ++ String.ofList (List.replicate (22 - heading.length) ' ') ++ purpose]
  else ["  " ++ heading, String.ofList (List.replicate 24 ' ') ++ purpose]

/-- The long form of the usage. -/
def helpLines : List String :=
  usageLines ++ ["", "CHIP-8 emulator", "", "positional arguments:"] ++ entryLines "rom" "Path to CHIP-8 ROM" ++
    ["", "options:"] ++ Opt.all.flatMap fun o => entryLines o.heading o.purpose

/-- The lines for standard output. -/
def Stop.lines : Stop → List String
  | help => helpLines
  | mistake _ => []

/-- The last line for standard error, if any. -/
def Stop.message : Stop → String
  | help => ""
  | mistake e => e.message

end ChipEight.CommandLine
