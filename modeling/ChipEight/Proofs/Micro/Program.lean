import ChipEight.Proofs.Host
import ChipEight.Proofs.Micro.Basic

/-!
# Microprograms

Every instruction as a sequence of micro-operations on bare cells, from the fields of its opcode; the table that
finds the microprogram for an opcode; the cycle that reads, looks up and runs; and the steps of a host. The text of
a trace is put together whether it is printed or not, and may itself run into a trap.

The order of checks and effects is that of the statements: a sprite is read before VF is cleared, a return address
is stored before the counter moves, a block of registers is stored before the index moves.
-/

namespace ChipEight.Micro

/-- The fields of an opcode as plain numbers. -/
structure Fields where
  opcode : Int
  family : Nat
  x : Nat
  y : Nat
  n : Nat
  nn : Nat
  nnn : Nat
deriving DecidableEq

/-- Takes an opcode apart. -/
def split (opcode : Int) : Except Fault Fields := do
  let family ← Bits.slice opcode 12 16 16
  let x ← Bits.slice opcode 8 12 16
  let y ← Bits.slice opcode 4 8 16
  let n ← Bits.slice opcode 0 4 16
  let nn ← Bits.slice opcode 0 8 16
  let nnn ← Bits.slice opcode 0 12 16
  return { opcode, family, x, y, n, nn, nnn }

/-! ### Texts -/

/-- The name of a register. -/
def name (x : Nat) : String := "V" ++ Text.hex x

/-- The value of a register in decimal. -/
def valueText (x : Nat) : Code String := return toString (← readRegister x)

/-! ### Microprograms -/

def clearScreen : Code Unit := do
  clearPixels
  log "Clear the display (all pixels turned off)"

def ret : Code Unit := do
  setCounter (← pop)
  log ("Return to " ++ Trace.address (← get).counter)

def jump (nnn : Nat) : Code Unit := do
  setCounter nnn
  log ("Jump to memory address " ++ Trace.address nnn)

def call (nnn : Nat) : Code Unit := do
  push (← get).counter
  setCounter nnn
  log ("Call subroutine at address " ++ Trace.address nnn ++ " (return to " ++ Trace.address (← number (← peek)) ++ ")")

/-- Skips an opcode if the condition holds, and tells why. -/
def skipWhen (condition : Bool) (text : String) : Code Unit := do
  if condition then
    skip
    log ("Skip next instruction: " ++ text)

def skipIfByte (x nn : Nat) : Code Unit := do
  skipWhen ((← readRegister x) = nn) (name x ++ " == " ++ toString nn)

def skipUnlessByte (x nn : Nat) : Code Unit := do
  skipWhen ((← readRegister x) ≠ nn) (name x ++ " != " ++ toString nn)

def skipIfSame (x y : Nat) : Code Unit := do
  skipWhen ((← readRegister x) = (← readRegister y)) (name x ++ " == " ++ name y)

def skipUnlessSame (x y : Nat) : Code Unit := do
  skipWhen ((← readRegister x) ≠ (← readRegister y)) (name x ++ " != " ++ name y)

def setByte (x nn : Nat) : Code Unit := do
  writeRegister x nn
  log ("Set " ++ name x ++ " = " ++ toString nn)

def addByte (x nn : Nat) : Code Unit := do
  let old ← readRegister x
  writeRegister x ((old + nn) % 256)
  log ("Add " ++ toString nn ++ " to " ++ name x ++ ": " ++ toString old ++ " + " ++ toString nn ++ " -> " ++
    (← valueText x))

def copy (x y : Nat) : Code Unit := do
  writeRegister x (← readRegister y)
  log ("Copy value of " ++ name y ++ " (" ++ (← valueText y) ++ ") into " ++ name x)

/-- Combines VX and VY into VX. -/
def combine (f : Int → Int → Int) (word : String) (x y : Nat) : Code Unit := do
  writeRegister x (f (← readRegister x) (← readRegister y))
  log (name x ++ " = " ++ name x ++ " " ++ word ++ " " ++ name y ++ " -> " ++ (← valueText x))

def bitOr : Nat → Nat → Code Unit := combine Int.lor "OR"

def bitAnd : Nat → Nat → Code Unit := combine Int.land "AND"

def bitXor : Nat → Nat → Code Unit := combine Int.xor "XOR"

def add (x y : Nat) : Code Unit := do
  let total := (← readRegister x) + (← readRegister y)
  writeRegister x (total % 256)
  writeRegister 15 (if total > 255 then 1 else 0)
  log ("Add " ++ name y ++ " to " ++ name x ++ ": result " ++ (← valueText x) ++ ", carry=" ++
    (← valueText 15))

/-- Subtracts one register from another into a third; VF tells that nothing was borrowed. -/
def difference (into left right : Nat) : Code Unit := do
  let a ← readRegister left
  let b ← readRegister right
  writeRegister into ((a - b) % 256)
  writeRegister 15 (if a ≥ b then 1 else 0)

def subtract (x y : Nat) : Code Unit := do
  difference x x y
  log ("Subtract " ++ name y ++ " from " ++ name x ++ ": result " ++ (← valueText x) ++
    ", NOT borrow=" ++ (← valueText 15))

def subtractFrom (x y : Nat) : Code Unit := do
  difference x y x
  log ("Set " ++ name x ++ " = " ++ name y ++ " - " ++ name x ++ ": result " ++
    (← valueText x) ++ ", NOT borrow=" ++ (← valueText 15))

/-- In the dialects that do so, VX becomes VY before it is shifted. -/
def fetchShifted (x y : Nat) : Code Unit := do
  if (← get).dialect.shiftReadsY then writeRegister x (← readRegister y)

def shiftRight (x y : Nat) : Code Unit := do
  fetchShifted x y
  let flag := (← readRegister x) % 2
  writeRegister x ((← readRegister x) / 2)
  writeRegister 15 flag
  log ("Shift " ++ name x ++ " right by 1: " ++ (← valueText x) ++ ", least significant bit=" ++
    toString flag)

def shiftLeft (x y : Nat) : Code Unit := do
  fetchShifted x y
  let flag := (← readRegister x) / 128 % 2
  writeRegister x ((← readRegister x) * 2 % 256)
  writeRegister 15 flag
  log ("Shift " ++ name x ++ " left by 1: " ++ (← valueText x) ++ ", most significant bit=" ++
    toString flag)

def setIndex (nnn : Nat) : Code Unit := do
  moveIndex nnn
  log ("Set memory pointer I = " ++ Trace.address (← get).index)

def jumpOffset (x nnn : Nat) : Code Unit := do
  let register := if (← get).dialect.jumpAddsX then x else 0
  setCounter (nnn + (← readRegister register))
  log ("Jump to address " ++ name register ++ " + " ++ Trace.address nnn ++ " = " ++ Trace.address (← get).counter)

def random (x nn : Nat) : Code Unit := do
  writeRegister x (Int.land (← randomByte) nn)
  log ("Set " ++ name x ++ " = random_byte & " ++ toString nn ++ " -> " ++ (← valueText x))

/-- Toggles a pixel; VF tells of a pixel that was lit. -/
def drawPixel (px py : Int) : Code Unit := do
  let lit ← readPixel px py
  if lit then writeRegister 15 1
  writePixel px py (!lit)

/-- Toggles the pixels of one row of a sprite, as far as the screen goes. -/
def drawRow (column line : Int) (bits : UInt8) : Code Unit :=
  (List.range (min 8 (64 - column)).toNat).forM fun bit =>
    if bits.toNat &&& (0x80 >>> bit) ≠ 0 then drawPixel (column + bit) line else pure ()

def draw (x y n : Nat) : Code Unit := do
  let column := (← readRegister x) % 64
  let line := (← readRegister y) % 32
  let rows ← readMemory (← get).index n
  writeRegister 15 0
  (slice rows 0 (32 - line)).zipIdx.forM fun row => drawRow column (line + row.2) row.1
  log ("Drew sprite at (" ++ toString column ++ "," ++ toString line ++ "), height=" ++ toString n ++
    ", collision=" ++ (← valueText 15))

def skipIfKey (x : Nat) : Code Unit := do
  let key := (← readRegister x) % 16
  skipWhen (← keyDown key) ("key " ++ Text.hex key ++ " is pressed")

def skipUnlessKey (x : Nat) : Code Unit := do
  let key := (← readRegister x) % 16
  skipWhen (!(← keyDown key)) ("key " ++ Text.hex key ++ " is NOT pressed")

def readDelay (x : Nat) : Code Unit := do
  writeRegister x (← get).delay
  log ("Set " ++ name x ++ " = delay timer (" ++ (← valueText x) ++ ")")

/-- The press that a wait has come to; a wait that begins forgets an earlier one. -/
def awaitedPress (x : Nat) : Code (Option Int) := do
  if (← get).waiting = none then
    let _ ← takePress
    await (some (x : Int))
    return none
  else takePress

def waitForKey (x : Nat) : Code Unit := do
  match ← awaitedPress x with
  | none =>
    stepBack
    log ("Wait for key press -> " ++ name x ++ ": waiting")
  | some key =>
    await none
    writeRegister x key
    log ("Wait for key press -> " ++ name x ++ ": " ++ Text.hex key)

def loadDelay (x : Nat) : Code Unit := do
  setDelay (← readRegister x)
  log ("Set delay timer = " ++ name x ++ " (" ++ (← valueText x) ++ ")")

def loadSound (x : Nat) : Code Unit := do
  setSound (← readRegister x)
  log ("Set sound timer = " ++ name x ++ " (" ++ (← valueText x) ++ ")")

def addToIndex (x : Nat) : Code Unit := do
  let old := (← get).index
  let total := old + (← readRegister x)
  moveIndex (total % 65536)
  if (← get).dialect.indexSetsFlag then writeRegister 15 (if total > 65535 then 1 else 0)
  log ("Increment I by " ++ name x ++ ": " ++ Trace.address old ++ " -> " ++ Trace.address (← get).index)

def pointAtGlyph (x : Nat) : Code Unit := do
  let digit := (← readRegister x) % 16
  moveIndex (Font.start + Font.glyphHeight * digit)
  log ("Set I to the memory location of sprite for digit " ++ Text.hex digit ++ " (" ++ Trace.address (← get).index ++ ")")

def storeDecimal (x : Nat) : Code Unit := do
  let value ← readRegister x
  writeMemory (← get).index [value / 100, value / 10 % 10, value % 10]
  log ("Store BCD of " ++ name x ++ " (" ++ toString value ++ ") at I, I+1, I+2")

/-- In the dialects that do so, the index moves past a block of registers. -/
def passBlock (x : Nat) : Code Unit := do
  if (← get).dialect.blockMovesIndex then moveIndex (((← get).index + x + 1) % 65536)

def storeRegisters (x : Nat) : Code Unit := do
  writeMemory (← get).index (slice (← get).registers 0 (x + 1))
  log ("Store registers V0.." ++ name x ++ " in memory starting at I (" ++ Trace.address (← get).index ++ ")")
  passBlock x

def loadRegisters (x : Nat) : Code Unit := do
  let bytes ← readMemory (← get).index (x + 1)
  writeFirst (x + 1) (bytes.map fun b => (b.toNat : Int))
  log ("Load registers V0.." ++ name x ++ " from memory starting at I (" ++ Trace.address (← get).index ++ ")")
  passBlock x

/-! ### The table of instructions -/

/-- A microprogram that awaits the fields of its opcode. -/
abbrev Handler := Fields → Code Unit

/-- A row of the table: one microprogram for the family, or one for each of some values of a field. -/
inductive Row where
  | whole (handler : Handler)
  | byField (field : Fields → Int) (handlers : List (Int × Handler))

/-- The rows by family. -/
def table : List (Nat × Row) :=
  [(0x0, .byField (·.opcode) [(0x00E0, fun _ => clearScreen), (0x00EE, fun _ => ret)]),
   (0x1, .whole fun f => jump f.nnn),
   (0x2, .whole fun f => call f.nnn),
   (0x3, .whole fun f => skipIfByte f.x f.nn),
   (0x4, .whole fun f => skipUnlessByte f.x f.nn),
   (0x5, .byField (·.n) [(0x0, fun f => skipIfSame f.x f.y)]),
   (0x6, .whole fun f => setByte f.x f.nn),
   (0x7, .whole fun f => addByte f.x f.nn),
   (0x8, .byField (·.n)
     [(0x0, fun f => copy f.x f.y), (0x1, fun f => bitOr f.x f.y), (0x2, fun f => bitAnd f.x f.y),
      (0x3, fun f => bitXor f.x f.y), (0x4, fun f => add f.x f.y), (0x5, fun f => subtract f.x f.y),
      (0x6, fun f => shiftRight f.x f.y), (0x7, fun f => subtractFrom f.x f.y),
      (0xE, fun f => shiftLeft f.x f.y)]),
   (0x9, .byField (·.n) [(0x0, fun f => skipUnlessSame f.x f.y)]),
   (0xA, .whole fun f => setIndex f.nnn),
   (0xB, .whole fun f => jumpOffset f.x f.nnn),
   (0xC, .whole fun f => random f.x f.nn),
   (0xD, .whole fun f => draw f.x f.y f.n),
   (0xE, .byField (·.nn) [(0x9E, fun f => skipIfKey f.x), (0xA1, fun f => skipUnlessKey f.x)]),
   (0xF, .byField (·.nn)
     [(0x07, fun f => readDelay f.x), (0x0A, fun f => waitForKey f.x), (0x15, fun f => loadDelay f.x),
      (0x18, fun f => loadSound f.x), (0x1E, fun f => addToIndex f.x), (0x29, fun f => pointAtGlyph f.x),
      (0x33, fun f => storeDecimal f.x), (0x55, fun f => storeRegisters f.x),
      (0x65, fun f => loadRegisters f.x)])]

/-- The microprogram for the fields of an opcode, if there is one. -/
def find (f : Fields) : Except Trap (Option (Code Unit)) :=
  match table.lookup f.family with
  | none => .error (.noRow f.family)
  | some (.whole handler) => .ok (some (handler f))
  | some (.byField field handlers) => .ok ((handlers.lookup (field f)).map fun handler => handler f)

/-! ### Cycles -/

/-- The fields of the opcode at the counter. -/
def fetch : Code Fields := do
  match ← readMemory (← get).counter 2 with
  | [high, low] => accept ((Bits.join high.toNat low.toNat 8).bind split)
  | bytes => throw (.oddRead bytes.length)

def cycle : Code Unit := do
  countCycle
  let f ← fetch
  skip
  match find f with
  | .error trap => throw trap
  | .ok none => say ("Unknown opcode: " ++ Text.hexPadded 4 f.opcode)
  | .ok (some program) => program

/-- Cycles in a row, as long as none is refused. -/
def cyclesOf : Nat → Code Unit
  | 0 => pure ()
  | n + 1 => do
    cycle
    cyclesOf n

/-! ### Hosts -/

def load (rom : List UInt8) : Code Unit := do
  if rom.length > 4096 - 0x200 then throw (.refused (.romTooLarge rom.length (4096 - 0x200)))
  writeMemory 0x200 (rom.map fun b => (b.toNat : Int))
  log ("Loaded " ++ toString rom.length ++ " bytes at 0x" ++ Trace.address 0x200)

/-- A host step on bare cells. -/
def perform : HostStep → Code Unit
  | .load rom => load rom
  | .cycle => cycle
  | .frame n => do
    tick
    cyclesOf n.toNat
  | .tick => tick
  | .setDelay value => setDelay value
  | .setSound value => setSound value
  | .press key => pressKey key.val
  | .release key => releaseKey key.val
  | .takePress => do
    let _ ← takePress
  | .resetKeys => resetKeys
  | .clearScreen => clearPixels
  | .markShown => modify fun s => { s with dirty := false }
  | .toggleLogging => do
    modify fun s => { s with logging := !s.logging }
    say ("logsOn: " ++ Text.truth (← get).logging)

/-- The store after a list of host steps, those that ended in a trap included. -/
def Store.after (s : Store) (steps : List HostStep) : Store :=
  steps.foldl (fun s step => (perform step s).2) s

/-- The cells as they are when a machine is switched on. -/
def Store.fresh (dialect : Dialect) (layout : Layout) (random : Wheel) (logging : Bool) : Store where
  memory := splice (List.replicate 4096 0) 0x50 (0x50 + Font.rows.length) Font.rows
  registers := List.replicate 16 0
  index := 0
  counter := 0x200
  slots := List.replicate 16 0
  top := 0
  dialect := dialect
  pixels := List.replicate 32 (List.replicate 64 0)
  dirty := true
  layout := layout
  keys := List.replicate 16 0
  pending := none
  delay := 0
  sound := 0
  random := random
  waiting := none
  cycles := 0
  logging := logging
  printed := []

end ChipEight.Micro
