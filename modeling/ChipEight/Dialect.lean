import ChipEight.Fault
import ChipEight.Text.Truth

/-!
# Dialects

The four points in which interpreters read the instruction set differently. A dialect is fixed once made; `with?`
makes another one from it.
-/

namespace ChipEight

/-- One reading of the instruction set. -/
structure Dialect where
  /-- The shifts 8XY6 and 8XYE read VY instead of VX. -/
  shiftReadsY : Bool := false
  /-- The jump BNNN adds VX, X being the top digit of NNN, instead of V0. -/
  jumpAddsX : Bool := true
  /-- FX55 and FX65 move the index past the last register. -/
  blockMovesIndex : Bool := false
  /-- FX1E tells by VF whether the index overflowed. -/
  indexSetsFlag : Bool := false
deriving DecidableEq

namespace Dialect

/-- The reading of later interpreters. -/
def modern : Dialect := {}

/-- The reading of the first interpreter. -/
def vip : Dialect := { shiftReadsY := true, jumpAddsX := false, blockMovesIndex := true }

/-- The switches with their public names. -/
def switches (d : Dialect) : List (String × Bool) :=
  [("shift_uses_vy", d.shiftReadsY), ("jump_uses_vx", d.jumpAddsX),
   ("index_autoincrement", d.blockMovesIndex), ("index_overflow_flag", d.indexSetsFlag)]

/-- The dialect with one switch set, named by its public name. -/
def with? (d : Dialect) (name : String) (on : Bool) : Except Fault Dialect :=
  match name with
  | "shift_uses_vy" => .ok { d with shiftReadsY := on }
  | "jump_uses_vx" => .ok { d with jumpAddsX := on }
  | "index_autoincrement" => .ok { d with blockMovesIndex := on }
  | "index_overflow_flag" => .ok { d with indexSetsFlag := on }
  | _ => .error (.unknownSwitch name)

/-- The dialect with several switches set, one after the other. -/
def withAll (d : Dialect) (settings : List (String × Bool)) : Except Fault Dialect :=
  settings.foldlM (fun d s => d.with? s.1 s.2) d

/-- The switches of a finished dialect cannot be assigned. -/
def assign (_ : Dialect) (name : String) : Except Fault Dialect := .error (.fixedSwitch name)

/-- The text of a dialect: all switches with their values. -/
def describe (d : Dialect) : String :=
  "Quirks(" ++ ", ".intercalate (d.switches.map fun s => s.1 ++ "=" ++ Text.truth s.2) ++ ")"

end Dialect

end ChipEight
