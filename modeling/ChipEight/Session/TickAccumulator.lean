import ChipEight.Fault

/-!
# Timer ticks from time

The accumulator turns stretches of time into whole timer ticks. It keeps its remainder in units of
`1 / hertz` nanoseconds, so that one tick is exactly `10 ^ 9` units and nothing is lost over a long
run. A stretch below zero counts as none and one above a cap counts as the cap.
-/

namespace ChipEight

def nanosPerSecond : Int := 1000000000

def nanosPerMilli : Int := 1000000

/-- The frequency of the timers, the longest stretch that counts in full, and the remainder. -/
structure TickAccumulator where
  hertz : Int
  cap : Int
  remainder : Int
deriving DecidableEq, Repr

namespace TickAccumulator

def standardHertz : Number := .int 60

/-- The usual cap in milliseconds. -/
def standardCap : Number := .int 3000

/-- A new accumulator. The frequency has to be positive before its fraction is dropped. -/
def make (hertz capMillis : Number) : Except Fault TickAccumulator := do
  if hertz.le (.int 0) then throw (.badTimerFrequency hertz)
  let hertz ← hertz.truncate.mapError Fault.number
  let cap ← capMillis.truncate.mapError Fault.number
  return ⟨hertz, cap * nanosPerMilli, 0⟩

/-- The accumulator without its remainder. -/
def reset (a : TickAccumulator) : TickAccumulator := { a with remainder := 0 }

/-- The part of a stretch of time that counts. -/
def clamp (a : TickAccumulator) (stretch : Int) : Int := max 0 (min stretch a.cap)

/-- The ticks that are due after a further stretch of time. -/
def advance (a : TickAccumulator) (stretch : Int) : Int × TickAccumulator :=
  let total := a.remainder + a.clamp stretch * a.hertz
  (total / nanosPerSecond, { a with remainder := total % nanosPerSecond })

end TickAccumulator

end ChipEight
