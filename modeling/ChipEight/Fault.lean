import ChipEight.Text.Hex
import ChipEight.Text.Quoted

/-!
# Faults

Every cause for which the machine, its parts or its host refuse an operation, and the text that reports it.
Four of them stop a running program (`Fault.stopsProgram`); the others are mistakes of whoever drives the machine.
-/

namespace ChipEight

/-- A cause for refusing an operation. -/
inductive Fault where
  /-- Bits `[start, stop)` do not lie inside a word of `width` bits. -/
  | bitRange (start stop width : Int)
  | negativeShift
  /-- A value to be stored in memory is no byte. -/
  | byteRange
  /-- The `count` bytes from `address` on do not lie inside memory. -/
  | memoryBounds (address count : Int)
  | romTooLarge (size limit : Nat)
  | stackOverflow
  | stackUnderflow
  | negativeDepth
  /-- A return address needs more than 16 bits or is negative. -/
  | addressRange (address : Int)
  | indexBounds (index : Int) (axis size : Nat)
  /-- No switch of a dialect has this name. -/
  | unknownSwitch (name : String)
  /-- The switches of a dialect cannot be assigned. -/
  | fixedSwitch (name : String)
  /-- No key of the keyboard has this name. -/
  | unknownKey (name : String)
  | negativeScale
  /-- A rate is beyond the largest number that can be shown. -/
  | infiniteRate
  | missingFile (path : String)
  | isDirectory (path : String)
deriving DecidableEq

namespace Fault

/-- The faults that a program can run into and that end it. -/
def stopsProgram : Fault → Bool
  | memoryBounds .. | romTooLarge .. | stackOverflow | stackUnderflow => true
  | _ => false

/-- The text that reports a fault. -/
def message : Fault → String
  | bitRange start stop width => s!"invalid bit range [{start}, {stop}) for {width}-bit word"
  | negativeShift => "negative shift count"
  | byteRange => "bytes must be in range(0, 256)"
  | memoryBounds address count =>
    "Memory access out of bounds: 0x" ++ Text.hexPadded 3 address ++ s!" (+{count})"
  | romTooLarge size limit => s!"ROM is {size} bytes, only {limit} fit in memory"
  | stackOverflow => "Stack overflow on CALL"
  | stackUnderflow => "Stack underflow on 00EE"
  | negativeDepth => "negative dimensions are not allowed"
  | addressRange address => s!"Python integer {address} out of bounds for uint16"
  | indexBounds index axis size => s!"index {index} is out of bounds for axis {axis} with size {size}"
  | unknownSwitch name => "Quirks.__init__() got an unexpected keyword argument '" ++ name ++ "'"
  | fixedSwitch name => "cannot assign to field " ++ Text.quoted name
  | unknownKey name => "module 'pyglet.window.key' has no attribute '" ++ name ++ "'"
  | negativeScale => "repeats may not contain negative values."
  | infiniteRate => "cannot convert float infinity to integer"
  | missingFile path => "[Errno 2] No such file or directory: " ++ Text.quoted path
  | isDirectory path => "[Errno 21] Is a directory: " ++ Text.quoted path

end Fault

end ChipEight
