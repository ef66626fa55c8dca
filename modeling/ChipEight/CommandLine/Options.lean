import ChipEight.Machine.Run
import ChipEight.Window.Picture

/-!
# Options

The options of the command line, and the settings that a command line makes. An option is a switch, takes an
integer, or asks for help; its names are listed in the order in which they are told to the user.
-/

namespace ChipEight.CommandLine

/-- The options that take an integer. -/
inductive Quantity where
  | scale
  | cycles
deriving DecidableEq

/-- The options that are given or not. -/
inductive Switch where
  | vip
  | shiftReadsY
  | jumpAddsZero
  | blockMovesIndex
  | indexSetsFlag
  | logs
deriving DecidableEq

/-- An option. -/
inductive Opt where
  | help
  | quantity (q : Quantity)
  | switch (s : Switch)
deriving DecidableEq

namespace Opt

/-- All options, in the order in which they are told. -/
def all : List Opt :=
  [help, quantity .scale, quantity .cycles, switch .vip, switch .shiftReadsY, switch .jumpAddsZero,
   switch .blockMovesIndex, switch .indexSetsFlag, switch .logs]

/-- The names of an option. -/
def names : Opt → List String
  | help => ["-h", "--help"]
  | quantity .scale => ["--scale"]
  | quantity .cycles => ["--cycles"]
  | switch .vip => ["--vip"]
  | switch .shiftReadsY => ["--shift-uses-vy"]
  | switch .jumpAddsZero => ["--jump-uses-v0"]
  | switch .blockMovesIndex => ["--index-autoincrement"]
  | switch .indexSetsFlag => ["--index-overflow-flag"]
  | switch .logs => ["--logs"]

/-- All names with their options. -/
def named : List (String × Opt) := all.flatMap fun o => o.names.map fun name => (name, o)

/-- The option with exactly this name. -/
def ofName? (name : String) : Option Opt := named.lookup name

/-- How an option is called in a message. -/
def title (o : Opt) : String := "/".intercalate o.names

end Opt

/-- The values of all options. -/
structure Options where
  scale : Int := Picture.usualScale
  cycles : Int := Machine.usualFrame
  vip : Bool := false
  shiftReadsY : Bool := false
  jumpAddsZero : Bool := false
  blockMovesIndex : Bool := false
  indexSetsFlag : Bool := false
  logs : Bool := false
deriving DecidableEq

namespace Options

/-- The options with an integer set. -/
def setQuantity (o : Options) (q : Quantity) (n : Int) : Options :=
  match q with
  | .scale => { o with scale := n }
  | .cycles => { o with cycles := n }

/-- The options with a switch given. -/
def setSwitch (o : Options) (s : Switch) : Options :=
  match s with
  | .vip => { o with vip := true }
  | .shiftReadsY => { o with shiftReadsY := true }
  | .jumpAddsZero => { o with jumpAddsZero := true }
  | .blockMovesIndex => { o with blockMovesIndex := true }
  | .indexSetsFlag => { o with indexSetsFlag := true }
  | .logs => { o with logs := true }

/-- The dialect asked for: a known one, with the points that a switch decides otherwise. -/
def dialect (o : Options) : Dialect :=
  let base := if o.vip then Dialect.vip else Dialect.modern
  { shiftReadsY := base.shiftReadsY || o.shiftReadsY
    jumpAddsX := base.jumpAddsX && !o.jumpAddsZero
    blockMovesIndex := base.blockMovesIndex || o.blockMovesIndex
    indexSetsFlag := base.indexSetsFlag || o.indexSetsFlag }

end Options

/-- What a command line asks for: a program with the options to run it by. -/
structure Settings where
  rom : String
  options : Options
deriving DecidableEq

end ChipEight.CommandLine
