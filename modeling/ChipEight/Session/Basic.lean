import ChipEight.Machine.Monitored
import ChipEight.Session.TickAccumulator
import ChipEight.Session.World

/-!
# Sessions

A session drives a machine at a fixed instruction frequency against a world. It works in turns. A
turn reads the clock and lets the timers tick for the time that has passed; then it ends the run if
a limit is reached, polls the input, which may ask to quit, carries out one instruction, shows the
screen, starts or stops the beeper to match the sound timer, and waits until the next instruction is
due.

A session also ends when it was asked to stop, which is seen between two turns, or by a fault. In
every case the beeper is silenced and the session is left ready for another run.
-/

namespace ChipEight

/-- A machine, its timing, and the world around it. -/
structure Session (σ : Type) where
  monitored : Monitored
  ticker : TickAccumulator
  hertz : Binary64
  /-- The nanoseconds from one instruction to the next. -/
  period : Int
  /-- Was the beeper started and not stopped? -/
  beeping : Bool
  running : Bool
  world : σ

inductive StopReason where
  | quit
  | maxSteps
  | maxSeconds
  | stopped
deriving DecidableEq, Repr

def StopReason.name : StopReason → String
  | .quit => "quit"
  | .maxSteps => "max_steps"
  | .maxSeconds => "max_seconds"
  | .stopped => "stopped"

structure Counts where
  steps : Nat
  iterations : Nat
  ticks : Int
  frames : Nat
deriving DecidableEq, Repr

def Counts.zero : Counts := ⟨0, 0, 0, 0⟩

/-- What a wait for a number of nanoseconds leaves behind; there is none unless the number is above
zero. A wait is asked for in seconds, so that a number too great for these has none either. -/
def World.waitFor (w : World σ) (nanos : Int) (s : σ) : Slept σ :=
  if nanos ≤ 0 then ⟨.ok (), s⟩
  else
    match Number.div (.int nanos) (.int nanosPerSecond) with
    | .error e => ⟨.error (.number e), s⟩
    | .ok _ => w.sleep nanos s

/-- How long a run may go on. -/
structure Bounds where
  /-- The greatest number of steps. -/
  steps : Option Int
  /-- The length of time after which no further step is made, in nanoseconds. -/
  nanos : Option Int
deriving DecidableEq, Repr

namespace Session

def standardHertz : Number := .real (.ofInt 500)

/-- The frequency as a binary number and the period that belongs to it. -/
def timing (hertz : Number) : Except Fault (Binary64 × Int) := do
  if hertz.le (.int 0) then throw (.badFrequency hertz)
  let hertz ← hertz.toBinary64.mapError Fault.number
  let period ← (Number.div (.int nanosPerSecond) (.real hertz)).mapError Fault.number
  let period ← (period.round.mapError NumberError.ofNoInteger).mapError Fault.number
  return (hertz, period)

/-- A session that was not run yet. -/
def make (monitored : Monitored) (hertz timerHertz capMillis : Number) (world : σ) :
    Except Fault (Session σ) := do
  let (hertz, period) ← timing hertz
  let ticker ← TickAccumulator.make timerHertz capMillis
  return ⟨monitored, ticker, hertz, period, false, false, world⟩

def machine (s : Session σ) : Machine := s.monitored.machine

def withMachine (s : Session σ) (m : Machine) : Session σ :=
  { s with monitored := { s.monitored with machine := m } }

/-- A length of time in nanoseconds, its fraction dropped. -/
def nanosOfSeconds (seconds : Number) : Except Fault Int := do
  let nanos ← (Number.mul seconds (.int nanosPerSecond)).mapError Fault.number
  nanos.truncate.mapError Fault.number

end Session

/-- A session inside a run: when the run began, the last reading of the clock, and the counts. -/
structure Run (σ : Type) where
  session : Session σ
  start : Int
  last : Int
  counts : Counts

namespace Run

/-- A part of a run that may end in a fault. -/
abbrev Action (σ : Type) := EStateM Fault (Run σ)

def onSession (f : Session σ → Session σ) : Action σ Unit :=
  modify fun r => { r with session := f r.session }

def count (f : Counts → Counts) : Action σ Unit := modify fun r => { r with counts := f r.counts }

def readClock (w : World σ) : Action σ Int := do
  let r ← get
  let (now, world) := w.readClock r.session.world
  set { r with session := { r.session with world := world } }
  return now

/-- Lets the timers tick for the time since the last reading of the clock. -/
def serviceTimers (now : Int) : Action σ Unit :=
  modify fun r =>
    let (due, ticker) := r.session.ticker.advance (now - r.last)
    { r with
      session := { r.session.withMachine (r.session.machine.tick due.toNat) with ticker := ticker }
      last := now
      counts := { r.counts with ticks := r.counts.ticks + due } }

/-- The limit that is reached at a reading of the clock, time before steps. -/
def limitReached (bounds : Bounds) (r : Run σ) (now : Int) : Option StopReason :=
  if bounds.nanos.any fun limit => limit ≤ now - r.start then some .maxSeconds
  else if bounds.steps.any fun limit => limit ≤ (r.counts.steps : Int) then some .maxSteps
  else none

/-- Polls the input; false if the session is to quit. -/
def poll (w : World σ) : Action σ Bool := do
  let r ← get
  let p := w.poll r.session.machine r.session.world
  let session := r.session.withMachine { r.session.machine with keypad := p.keypad }
  set { r with
    session := { session with world := p.world, running := session.running && !p.stop } }
  match p.answer with
  | .ok goesOn => return goesOn
  | .error e => throw e

def step : Action σ Unit := do
  let r ← get
  match Monitored.step.run r.session.monitored with
  | .ok _ m => set { r with session := { r.session with monitored := m } }
  | .error e m =>
    set { r with session := { r.session with monitored := m } }
    throw e

def present (w : World σ) : Action σ Unit := do
  let r ← get
  let p := w.present r.session.machine.screen r.session.world
  let session := r.session.withMachine { r.session.machine with screen := p.screen }
  set { r with session := { session with world := p.world } }
  match p.answer with
  | .ok _ => return ()
  | .error e => throw e

/-- The session with its beeper on or off, the beeper being touched only for a change. -/
def withBeeper (w : World σ) (on : Bool) (s : Session σ) : Session σ :=
  if on = s.beeping then s
  else { s with beeping := on, world := if on then w.startBeep s.world else w.stopBeep s.world }

/-- Brings the beeper in line with the sound timer. -/
def updateBeeper (w : World σ) : Action σ Unit :=
  onSession fun s => withBeeper w s.machine.timers.beeping s

/-- Waits until a period has passed since a reading of the clock. -/
def pace (w : World σ) (began : Int) : Action σ Unit := do
  let now ← readClock w
  let r ← get
  let left := w.waitFor (began + r.session.period - now) r.session.world
  set { r with session := { r.session with world := left.world } }
  match left.answer with
  | .ok _ => return ()
  | .error e => throw e

/-- The part of a turn before the wait, from a reading of the clock on: the reason to end the run,
if there is one now. -/
def work (w : World σ) (bounds : Bounds) (now : Int) : Action σ (Option StopReason) := do
  serviceTimers now
  match limitReached bounds (← get) now with
  | some reason => return some reason
  | none =>
    if !(← poll w) then return some .quit
    step
    count fun c => { c with steps := c.steps + 1 }
    present w
    count fun c => { c with frames := c.frames + 1 }
    updateBeeper w
    count fun c => { c with iterations := c.iterations + 1 }
    return none

def turn (w : World σ) (bounds : Bounds) : Action σ (Option StopReason) := do
  let now ← readClock w
  match ← work w bounds now with
  | some reason => return some reason
  | none =>
    pace w now
    return none

/-- Makes turns until one ends the run; no answer if `turns` of them do not. -/
def loop (w : World σ) (bounds : Bounds) : (turns : Nat) → Action σ (Option StopReason)
  | 0 => return none
  | turns + 1 => do
    if !(← get).session.running then return some .stopped
    match ← turn w bounds with
    | some reason => return some reason
    | none => loop w bounds turns

end Run

/-- What a run that came to its end reports. -/
structure RunStats where
  counts : Counts
  elapsed : Int
  seconds : Binary64
  reason : StopReason
deriving DecidableEq, Repr

namespace Session

/-- Who reports the end of a run. -/
def runSource : String := "chip8vm.scheduler"

def finishedLine (stats : RunStats) : String :=
  s!"Run finished ({stats.reason.name}): {stats.counts.steps} steps, " ++
    s!"{stats.counts.ticks} timer ticks in " ++ stats.seconds.fixedText 3 ++ "s"

/-- The session at the first turn of a run that starts at a reading of the clock. -/
def started (s : Session σ) (now : Int) : Run σ :=
  ⟨{ s with ticker := s.ticker.reset, running := true }, now, now, .zero⟩

/-- The session after a run, silent and not running, and the time that the run took. -/
def close (w : World σ) (r : Run σ) : Int × Session σ :=
  let s := Run.withBeeper w false { r.session with running := false }
  let (now, world) := w.readClock s.world
  (now - r.start, { s with world := world })

/-- The report of a run that ended for a reason, and the session that has it in its journal. -/
def settle (reason : StopReason) (counts : Counts) (elapsed : Int) (s : Session σ) :
    Except Fault RunStats × Session σ :=
  match Number.div (.int elapsed) (.int nanosPerSecond) with
  | .error e => (.error (.number e), s)
  | .ok seconds =>
    let stats := ⟨counts, elapsed, seconds, reason⟩
    (.ok stats,
      { s with monitored := s.monitored.report .info runSource (finishedLine stats) })

/-- Runs a session until it ends; no answer if it does not end within `turns` turns. -/
def run (w : World σ) (bounds : Bounds) (turns : Nat) (s : Session σ) :
    Option (Except Fault RunStats × Session σ) :=
  let (now, world) := w.readClock s.world
  match (Run.loop w bounds turns).run ({ s with world := world }.started now) with
  | .ok none _ => none
  | .ok (some reason) r =>
    let (elapsed, s) := close w r
    some (settle reason r.counts elapsed s)
  | .error e r => some (.error e, (close w r).2)

/-- Runs a session for a number of steps and a number of seconds at most. If the seconds cannot be
brought to nanoseconds, there is no run. -/
def runFor (w : World σ) (steps : Option Int) (seconds : Option Number) (turns : Nat)
    (s : Session σ) : Option (Except Fault RunStats × Session σ) :=
  match seconds.mapM nanosOfSeconds with
  | .error e => some (.error e, s)
  | .ok nanos => s.run w ⟨steps, nanos⟩ turns

end Session

end ChipEight
