import ChipEight.CommandLine.Usage
import ChipEight.Text.Digit

/-!
# Tokens of a command line

Every word of a command line is an option, a plain word, or a word that looks like an option and is none. A name
may be cut short as long as it is the start of one name only, and a value may follow it behind an equals sign. The
word of two dashes divides: whatever comes after it is a plain word.
-/

namespace ChipEight.CommandLine

/-- What stands in one word with the name of an option. -/
inductive Attached where
  | nothing
  /-- A value behind an equals sign. -/
  | value (text : String)
  /-- Letters directly behind a name of one letter. -/
  | letters (cs : List Char)
deriving DecidableEq

/-- What a word of the command line is. -/
inductive Token where
  | word (text : String)
  | opt (o : Opt) (attached : Attached)
  | unknown (text : String)
  | divider
deriving DecidableEq

namespace Token

/-- A decimal digit of any script. -/
def isDecimalDigit (c : Char) : Bool := (Text.decimalValue? c).isSome

/-- One or more decimal digits. -/
def isDigits (cs : List Char) : Bool := !cs.isEmpty && cs.all isDecimalDigit

/-- Whether digits, perhaps with a point before or among them, make up the text. -/
def isUnsigned (cs : List Char) : Bool :=
  isDigits cs || match cs.dropWhile isDecimalDigit with
    | '.' :: fraction => isDigits fraction
    | _ => false

/-- Whether a word is a minus sign and a number; one line break may stand at the end. -/
def isNegativeNumber : List Char → Bool
  | '-' :: cs => isUnsigned (if cs.getLast? = some '\n' then cs.dropLast else cs)
  | _ => false

/-- What stands before the first equals sign, and what behind it. -/
def splitValue (cs : List Char) : List Char × Attached :=
  (cs.takeWhile (· ≠ '='), match cs.dropWhile (· ≠ '=') with
    | _ :: value => .value (String.ofList value)
    | [] => .nothing)

/-- The names that a word with two dashes may be short for, with the tokens it would be. -/
def longCandidates (cs : List Char) : List (String × Token) :=
  let (start, attached) := splitValue cs
  (Opt.named.filter fun e => start.isPrefixOf e.1.toList).map fun e => (e.1, opt e.2 attached)

/-- The names of one letter that a word with one dash begins with. -/
def shortCandidates (letter : Char) (rest : List Char) : List (String × Token) :=
  (Opt.named.filter fun e => e.1.toList = ['-', letter]).map fun e => (e.1, opt e.2 (.letters rest))

/-- The names that a word with a dash in front may stand for. -/
def candidates : List Char → List (String × Token)
  | '-' :: '-' :: cs => longCandidates ('-' :: '-' :: cs)
  | '-' :: letter :: rest => shortCandidates letter rest
  | _ => []

/-- A word with a dash in front that is no complete name of an option. -/
def ofDashed (text : String) : Except UsageError Token :=
  match candidates text.toList with
  | [] =>
    .ok (if isNegativeNumber text.toList || text.toList.contains ' ' then word text else unknown text)
  | [(_, token)] => .ok token
  | several => .error (.ambiguous text (several.map Prod.fst))

/-- What a word is. -/
def ofWord (text : String) : Except UsageError Token :=
  match text.toList with
  | '-' :: _ :: _ =>
    match Opt.ofName? text with
    | some o => .ok (opt o .nothing)
    | none =>
      let (name, attached) := splitValue text.toList
      match attached, Opt.ofName? (String.ofList name) with
      | .value v, some o => .ok (opt o (.value v))
      | _, _ => ofDashed text
  | _ => .ok (word text)

/-- What the words of a command line are. -/
def ofWords : List String → Except UsageError (List Token)
  | [] => .ok []
  | text :: rest =>
    if text = "--" then .ok (divider :: rest.map word)
    else do
      let token ← ofWord text
      let tokens ← ofWords rest
      .ok (token :: tokens)

end Token

end ChipEight.CommandLine
