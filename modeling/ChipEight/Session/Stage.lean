import ChipEight.Host.Basic
import ChipEight.Session.Basic

/-!
# Stages

A stage is a world whose course is laid down beforehand. Its clock moves by a fixed stride at each
reading, by a stall at chosen polls, and by sleeping; it may ask the session to stop at a chosen
poll. It has a host and a file tree, and it notes every poll and every wait.

A wait is asked for in seconds, as a binary number, and moves the clock by the nearest whole number
of nanoseconds. The system may have a greatest number of them; a wait beyond it is refused, and does
not move the clock.
-/

namespace ChipEight

/-- What a stage notes of a poll: its clock, and the machine's program counter and timers. -/
structure PollNote where
  now : Int
  pc : Int
  delay : Int
  sound : Int
deriving DecidableEq, Repr

/-- A world whose course is laid down. -/
structure Stage where
  clock : Int
  /-- How far a reading of the clock moves it on. -/
  stride : Int
  /-- The polls at which the clock jumps, and how far; of two entries for a poll the later holds. -/
  stalls : List (Int × Int)
  /-- The poll at which the session is asked to stop. -/
  stopAt : Option Int
  /-- The greatest number of nanoseconds that the system waits for, if there is one. -/
  longestWait : Option Int
  notes : Array PollNote
  sleeps : Array Int
  host : Host
  files : FileTree

namespace Stage

/-- A stage on which nothing has happened. -/
def make (host : Host) (files : FileTree) : Stage where
  clock := 0
  stride := 0
  stalls := []
  stopAt := none
  longestWait := none
  notes := #[]
  sleeps := #[]
  host := host
  files := files

def readClock (s : Stage) : Int × Stage := (s.clock, { s with clock := s.clock + s.stride })

/-- The time that a wait for a number of nanoseconds takes: they are brought to seconds and back. -/
def sleepLength (nanos : Int) : Except NumberError Int := do
  let seconds ← Number.div (.int nanos) (.int nanosPerSecond)
  (seconds.mul (.ofInt nanosPerSecond)).round.mapError NumberError.ofNoInteger

/-- The time that a wait takes in a system with a greatest one. -/
def waitLength (longest : Option Int) (nanos : Int) : Except Fault Int := do
  let length ← (sleepLength nanos).mapError Fault.number
  if longest.any fun most => most < length then throw (.waitTooLong length)
  return length

def sleep (nanos : Int) (s : Stage) : Slept Stage :=
  match waitLength s.longestWait nanos with
  | .error e => ⟨.error e, s⟩
  | .ok length =>
    ⟨.ok (), { s with clock := s.clock + length, sleeps := s.sleeps.push length }⟩

/-- The jump of the clock at a poll. -/
def stallAt (s : Stage) (poll : Int) : Int :=
  match s.stalls.reverse.find? fun entry => entry.1 == poll with
  | some entry => entry.2
  | none => 0

/-- Notes the poll, lets the clock jump, and polls the host. -/
def poll (m : Machine) (s : Stage) : Polled Stage :=
  let index : Int := s.notes.size
  let p := s.host.poll m.keypad
  let note : PollNote := ⟨s.clock, m.registers.pc, m.timers.delay, m.timers.sound⟩
  { answer := p.answer
    keypad := p.keypad
    stop := p.stop || s.stopAt == some index
    world :=
      { s with notes := s.notes.push note, clock := s.clock + s.stallAt index, host := p.world } }

/-- The time on the clock in seconds. -/
def seconds (s : Stage) : Number :=
  match Number.div (.int s.clock) (.int nanosPerSecond) with
  | .ok x => .real x
  | .error _ => .int s.clock

def present (screen : Screen) (s : Stage) : Presented Stage :=
  let p := s.host.present s.seconds screen s.files
  ⟨p.answer, p.screen, { s with host := p.world.1, files := p.world.2 }⟩

/-- The world of a stage. -/
def world : World Stage where
  readClock := readClock
  sleep := sleep
  poll := poll
  present := present
  startBeep s := { s with host := s.host.startBeep }
  stopBeep s := { s with host := s.host.stopBeep }

end Stage

end ChipEight
