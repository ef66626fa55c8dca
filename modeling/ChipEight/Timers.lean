/-!
# Timers

The delay and the sound timer, each a byte that a tick counts down to 0.
-/

namespace ChipEight

/-- The delay and the sound timer. -/
structure Timers where
  delay : UInt8 := 0
  sound : UInt8 := 0
deriving DecidableEq

namespace Timers

/-- The rate of ticks, and of frames, per second. -/
def hertz : Nat := 60

/-- One less, but never below 0. -/
def countDown (t : UInt8) : UInt8 := if t = 0 then 0 else t - 1

/-- Both timers count down. -/
def tick (t : Timers) : Timers := ⟨countDown t.delay, countDown t.sound⟩

/-- Sets the delay timer to the low byte of a number. -/
def setDelay (t : Timers) (value : Int) : Timers := { t with delay := UInt8.ofInt value }

/-- Sets the sound timer to the low byte of a number. -/
def setSound (t : Timers) (value : Int) : Timers := { t with sound := UInt8.ofInt value }

end Timers

end ChipEight
