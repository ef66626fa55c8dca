import ChipEight.Layout
import ChipEight.Position

/-!
# The keypad

Sixteen keys that are up or down, and the first press of a key that was up since the last `take` or `reset`.
-/

namespace ChipEight

/-- The keys that are down, and the press that awaits being taken. -/
structure Keypad where
  layout : Layout := Layout.standard
  down : Vector Bool 16 := Vector.replicate 16 false
  /-- The number of the first key pressed and not yet taken, as it was given to `press`. -/
  pending : Option Int := none
deriving DecidableEq

namespace Keypad

private theorem toNat_emod_lt (key : Int) : (key % 16).toNat < 16 := by omega

/-- The key numbered by the low four bits of an integer. -/
def lowKey (key : Int) : Fin 16 := ⟨(key % 16).toNat, toNat_emod_lt key⟩

/-- Whether the key numbered by the low four bits of `key` is down. -/
def isDown (k : Keypad) (key : Int) : Bool := k.down.get (lowKey key)

/-- A key goes down. Only a key that was up becomes pending, and only if no other is. -/
def press (k : Keypad) (key : Int) : Except Fault Keypad :=
  (position 0 16 key).map fun i : Fin 16 => { k with
    down := setAt k.down i true
    pending := if k.down.get i then k.pending else k.pending.or (some key) }

/-- A key goes up. -/
def release (k : Keypad) (key : Int) : Except Fault Keypad :=
  (position 0 16 key).map fun i : Fin 16 => { k with down := setAt k.down i false }

/-- The keypad after its pending press was taken. -/
def take (k : Keypad) : Keypad := { k with pending := none }

/-- All keys go up and no press is pending. -/
def reset (k : Keypad) : Keypad :=
  { k with down := Vector.replicate 16 false, pending := none }

/-- The keys that are down, in ascending order. -/
def keysDown (k : Keypad) : List (Fin 16) := (List.finRange 16).filter k.down.get

end Keypad

end ChipEight
