import ChipEight.Machine.State

/-!
# The world around a session

A session reaches the outside through a clock, a way to wait, an input that is polled, a display and
a beeper. A `World` gives these as functions on the state of the outside, so that a session is a
function too: the same functions answer for a rehearsed clock and for a recorded host.
-/

namespace ChipEight

/-- What a poll of the input leaves behind. A poll that fails may have changed the keypad. -/
structure Polled (σ : Type) where
  /-- Does the session go on, or is it to quit? -/
  answer : Except Fault Bool
  keypad : Keypad
  /-- Was the session asked to stop after the current turn? -/
  stop : Bool
  world : σ

/-- What a presentation leaves behind. -/
structure Presented (σ : Type) where
  answer : Except Fault Unit
  screen : Screen
  world : σ

/-- What a wait leaves behind. -/
structure Slept (σ : Type) where
  answer : Except Fault Unit
  world : σ

/-- The outside of a session, as functions on its state. -/
structure World (σ : Type) where
  /-- Reads the clock, in nanoseconds. -/
  readClock : σ → Int × σ
  /-- Waits for a number of nanoseconds. The system may refuse to. -/
  sleep : Int → σ → Slept σ
  /-- Polls the input; the machine is only looked at. -/
  poll : Machine → σ → Polled σ
  present : Screen → σ → Presented σ
  startBeep : σ → σ
  stopBeep : σ → σ

end ChipEight
