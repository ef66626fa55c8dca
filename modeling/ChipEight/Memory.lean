import ChipEight.Fault
import ChipEight.Font

/-!
# Memory

4096 bytes, with the font preloaded below 0x200, where programs start. Every access names its first address and
its number of bytes and is checked as a whole before anything is read or written.
-/

namespace ChipEight

/-- The 4096 bytes of memory. -/
structure Memory where
  bytes : Vector UInt8 4096
deriving DecidableEq

namespace Memory

/-- The number of bytes. -/
def size : Nat := 4096

/-- The address that programs are loaded to and start at. -/
def programStart : Nat := 0x200

/-- The longest program. -/
def maxRom : Nat := size - programStart

/-- Memory with nothing but the font in it. -/
def fresh : Memory where
  bytes :=
    ⟨⟨List.replicate Font.start 0 ++ Font.rows ++ List.replicate (size - Font.stop) 0⟩,
      by
        rw [List.size_toArray, List.length_append, List.length_append, List.length_replicate, List.length_replicate]
        rfl⟩

/-- The byte at an address, 0 past the end. -/
def byteAt (m : Memory) (address : Nat) : UInt8 := m.bytes[address]?.getD 0

/-- An access to `count` bytes from `address` on stays inside memory. -/
def Fits (address count : Int) : Prop := 0 ≤ address ∧ address + count ≤ size

instance (address count : Int) : Decidable (Fits address count) := inferInstanceAs (Decidable (_ ∧ _))

/-- The bytes from `start` up to but not including `stop`, as far as there are any. -/
def between (m : Memory) (start stop : Nat) : List UInt8 :=
  (m.bytes.toArray.extract start stop).toList

/-- The end of an access; one below address 0 counts back from the end of memory. -/
def accessStop (address count : Int) : Nat :=
  if address + count < 0 then (address + count + size).toNat else (address + count).toNat

/-- Reads `count` bytes from `address` on. -/
def read (m : Memory) (address count : Int) : Except Fault (List UInt8) :=
  if Fits address count then .ok (m.between address.toNat (accessStop address count))
  else .error (.memoryBounds address count)

/-- The memory with some bytes put at `address` and after; what would lie past the end is dropped. -/
def put (m : Memory) (address : Nat) : List UInt8 → Memory
  | [] => m
  | b :: rest => put ⟨m.bytes.setIfInBounds address b⟩ (address + 1) rest

/-- Writes bytes from `address` on. -/
def store (m : Memory) (address : Int) (values : List UInt8) : Except Fault Memory :=
  if Fits address values.length then .ok (m.put address.toNat values)
  else .error (.memoryBounds address values.length)

/-- Writes numbers from `address` on; all of them have to be bytes, whatever the address. -/
def write (m : Memory) (address : Int) (values : List Int) : Except Fault Memory :=
  if values.all fun v => 0 ≤ v ∧ v < 256 then m.store address (values.map UInt8.ofInt)
  else .error .byteRange

/-- Copies a program to where programs start. -/
def loadRom (m : Memory) (rom : List UInt8) : Except Fault Memory :=
  if rom.length > maxRom then .error (.romTooLarge rom.length maxRom)
  else m.store programStart rom

end Memory

end ChipEight
