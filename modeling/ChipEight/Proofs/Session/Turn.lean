import ChipEight.Proofs.Machine.Monitored
import ChipEight.Session.Basic

/-!
# The parts of a turn

Each part of a turn is a change of the run and an end: it goes on, or it fails. Here the change is
named, and every `_run` says what a part does in these words. Statements about turns are proved from
these equations; none of them opens a part again.
-/

namespace ChipEight

/-- The end of an action with a given answer and a given state behind it. -/
def ended (answer : Except Fault α) (state : β) : EStateM.Result Fault β α :=
  match answer with
  | .ok a => .ok a state
  | .error e => .error e state

theorem ended_eq_ok_iff {answer : Except Fault α} {a : α} {state state' : β} :
    ended answer state = .ok a state' ↔ answer = .ok a ∧ state = state' := by
  cases answer <;> simp [ended]

theorem ended_eq_error_iff {answer : Except Fault α} {e : Fault} {state state' : β} :
    ended answer state = .error e state' ↔ answer = .error e ∧ state = state' := by
  cases answer <;> simp [ended]

namespace Run

/-- The run that a turn leaves, if it does not end the run. -/
def goesOn? {σ : Type} : EStateM.Result Fault (Run σ) (Option StopReason) → Option (Run σ)
  | .ok none r => some r
  | _ => none

theorem goesOn?_eq_some_iff {σ : Type} {r : Run σ}
    {result : EStateM.Result Fault (Run σ) (Option StopReason)} :
    goesOn? result = some r ↔ result = .ok none r := by
  unfold goesOn?
  split
  case h_1 => simp
  case h_2 other => exact iff_of_false nofun (other r)

variable {σ : Type} (w : World σ)

/-- The ticks that are due at a reading of the clock, and the accumulator that is left. -/
def due (r : Run σ) (now : Int) : Int × TickAccumulator := r.session.ticker.advance (now - r.last)

def withWorld (r : Run σ) (world : σ) : Run σ :=
  { r with session := { r.session with world := world } }

/-- The run after its timers have ticked up to a reading of the clock. -/
def ticked (r : Run σ) (now : Int) : Run σ where
  session :=
    { r.session.withMachine (r.session.machine.tick (r.due now).1.toNat) with
      ticker := (r.due now).2 }
  start := r.start
  last := now
  counts := { r.counts with ticks := r.counts.ticks + (r.due now).1 }

/-- What the input leaves behind when it is polled. -/
def polling (r : Run σ) : Polled σ := w.poll r.session.machine r.session.world

def polled (r : Run σ) : Run σ where
  session :=
    { r.session.withMachine { r.session.machine with keypad := (r.polling w).keypad } with
      world := (r.polling w).world
      running := r.session.running && !(r.polling w).stop }
  start := r.start
  last := r.last
  counts := r.counts

def withJournal (r : Run σ) (journal : Journal) : Run σ :=
  { r with
    session := { r.session with monitored := { r.session.monitored with journal := journal } } }

def withMachine (r : Run σ) (m : Machine) : Run σ := { r with session := r.session.withMachine m }

/-- What the display leaves behind when it is given the screen. -/
def presenting (r : Run σ) : Presented σ := w.present r.session.machine.screen r.session.world

def presented (r : Run σ) : Run σ where
  session :=
    { r.session.withMachine { r.session.machine with screen := (r.presenting w).screen } with
      world := (r.presenting w).world }
  start := r.start
  last := r.last
  counts := r.counts

def counted (r : Run σ) (f : Counts → Counts) : Run σ := { r with counts := f r.counts }

/-- The run with its beeper in line with the sound timer. -/
def beeped (r : Run σ) : Run σ :=
  { r with session := withBeeper w r.session.machine.timers.beeping r.session }

variable (r : Run σ)

theorem readClock_run :
    (readClock w).run r =
      .ok (w.readClock r.session.world).1 (r.withWorld (w.readClock r.session.world).2) := rfl

theorem serviceTimers_run (now : Int) : (serviceTimers now).run r = .ok () (r.ticked now) := rfl

theorem count_run (f : Counts → Counts) : (count f).run r = .ok () (r.counted f) := rfl

theorem poll_run : (poll w).run r = ended (r.polling w).answer (r.polled w) := by
  have answer : (w.poll r.session.machine r.session.world).answer = (r.polling w).answer := rfl
  unfold poll
  simp only [EStateM.run_bind, EStateM.run_get, EStateM.run_set, answer]
  cases (r.polling w).answer <;> rfl

theorem present_run : (present w).run r = ended (r.presenting w).answer (r.presented w) := by
  have answer : (w.present r.session.machine.screen r.session.world).answer =
      (r.presenting w).answer := rfl
  unfold present
  simp only [EStateM.run_bind, EStateM.run_get, EStateM.run_set, answer]
  cases (r.presenting w).answer <;> rfl

/-- A step of a run is a step of its machine: the rest of the run stays, but for the journal. -/
theorem step_run :
    match r.session.machine.fault? with
    | some e => ∃ journal, step.run r = .error e (r.withJournal journal)
    | none =>
      ∃ journal,
        step.run r = .ok () ((r.withMachine r.session.machine.next).withJournal journal) := by
  have same : r.session.monitored.machine = r.session.machine := rfl
  unfold step
  rw [EStateM.run_bind, EStateM.run_get]
  dsimp only
  rw [Monitored.step_run, same]
  cases r.session.machine.fault? with
  | some e => exact ⟨_, rfl⟩
  | none => exact ⟨_, rfl⟩

/-! ## A whole turn -/

/-- What the wait for the next instruction leaves behind, once the clock was read. -/
def pacing (r : Run σ) (began : Int) : Slept σ :=
  w.waitFor (began + r.session.period - (w.readClock r.session.world).1)
    (w.readClock r.session.world).2

def paced (r : Run σ) (began : Int) : Run σ := r.withWorld (r.pacing w began).world

theorem pace_run (began : Int) :
    (pace w began).run r = ended (r.pacing w began).answer (r.paced w began) := by
  have answer : (w.waitFor (began + r.session.period - (w.readClock r.session.world).1)
      (w.readClock r.session.world).2).answer = (r.pacing w began).answer := rfl
  unfold pace
  simp only [EStateM.run_bind, readClock_run, EStateM.run_get, EStateM.run_set, withWorld, answer]
  cases (r.pacing w began).answer <;> rfl

/-- The part of a turn after a poll that goes on. -/
def carryOut : Action σ Unit := do
  step
  count fun c => { c with steps := c.steps + 1 }
  present w
  count fun c => { c with frames := c.frames + 1 }
  updateBeeper w
  count fun c => { c with iterations := c.iterations + 1 }

def stepped (r : Run σ) (journal : Journal) : Run σ :=
  ((r.withMachine r.session.machine.next).withJournal journal).counted fun c =>
    { c with steps := c.steps + 1 }

/-- The run after the last parts of a turn: the screen was shown and the beeper brought in line. -/
def served (r : Run σ) : Run σ :=
  (((r.presented w).counted fun c => { c with frames := c.frames + 1 }).beeped w).counted fun c =>
    { c with iterations := c.iterations + 1 }

/-- The part of a turn after the poll fails in its step, or in the presentation after it, or it is
carried out as a whole. -/
theorem carryOut_run :
    match r.session.machine.fault? with
    | some e => ∃ journal, (carryOut w).run r = .error e (r.withJournal journal)
    | none =>
      ∃ journal, (carryOut w).run r =
        match ((r.stepped journal).presenting w).answer with
        | .error e => .error e ((r.stepped journal).presented w)
        | .ok _ => .ok () ((r.stepped journal).served w) := by
  have spec := r.step_run
  unfold carryOut
  rw [EStateM.run_bind]
  cases met : r.session.machine.fault? with
  | some e =>
    rw [met] at spec
    obtain ⟨journal, failed⟩ := spec
    rw [failed]
    exact ⟨journal, rfl⟩
  | none =>
    rw [met] at spec
    obtain ⟨journal, done⟩ := spec
    refine ⟨journal, ?_⟩
    have counted : ((r.withMachine r.session.machine.next).withJournal journal).counted
        (fun c => { c with steps := c.steps + 1 }) = r.stepped journal := rfl
    simp only [done, EStateM.run_bind, count_run, present_run, counted]
    cases ((r.stepped journal).presenting w).answer <;> rfl

/-- The run after the first part of a turn: the clock was read and the timers have ticked. -/
def entered (r : Run σ) : Run σ :=
  (r.withWorld (w.readClock r.session.world).2).ticked (w.readClock r.session.world).1

/-- The reading of the clock at the beginning of a turn. -/
def reading (r : Run σ) : Int := (w.readClock r.session.world).1

/-- A turn up to its wait. -/
def worked (bounds : Bounds) (r : Run σ) : EStateM.Result Fault (Run σ) (Option StopReason) :=
  (work w bounds (r.reading w)).run (r.withWorld (w.readClock r.session.world).2)

/-- The timers tick; a limit that is reached ends the run, and so does an input that asks to quit.
Otherwise an instruction is carried out. -/
theorem worked_eq (bounds : Bounds) :
    r.worked w bounds =
      match limitReached bounds (r.entered w) (r.reading w) with
      | some reason => .ok (some reason) (r.entered w)
      | none =>
        match ((r.entered w).polling w).answer with
        | .error e => .error e ((r.entered w).polled w)
        | .ok false => .ok (some .quit) ((r.entered w).polled w)
        | .ok true =>
          match (carryOut w).run ((r.entered w).polled w) with
          | .error e r' => .error e r'
          | .ok _ r' => .ok none r' := by
  have folded : (r.withWorld (w.readClock r.session.world).2).ticked (r.reading w) = r.entered w :=
    rfl
  unfold worked work
  simp only [EStateM.run_bind, serviceTimers_run, EStateM.run_get, folded]
  cases limitReached bounds (r.entered w) (r.reading w) with
  | some reason => rfl
  | none =>
    dsimp only
    rw [EStateM.run_bind, poll_run]
    cases ((r.entered w).polling w).answer with
    | error e => rfl
    | ok goesOn =>
      cases goesOn with
      | false => rfl
      | true =>
        -- What is left of the turn is `carryOut`, up to the brackets.
        have tail : (do
            step
            count fun c => { c with steps := c.steps + 1 }
            present w
            count fun c => { c with frames := c.frames + 1 }
            updateBeeper w
            count fun c => { c with iterations := c.iterations + 1 }
            return none : Action σ (Option StopReason)) = carryOut w >>= fun _ => pure none := by
          simp only [carryOut, bind_assoc]
        simp only [ended, Bool.not_true, Bool.false_eq_true, if_false, tail, EStateM.run_bind]
        cases (carryOut w).run ((r.entered w).polled w) <;> rfl

/-- **A turn** waits for the next instruction after its work, unless that ends the run or fails. -/
theorem turn_run (bounds : Bounds) :
    (turn w bounds).run r =
      match r.worked w bounds with
      | .ok none r' =>
        ended ((r'.pacing w (r.reading w)).answer.map fun _ => none) (r'.paced w (r.reading w))
      | result => result := by
  have reading : (w.readClock r.session.world).1 = r.reading w := rfl
  unfold turn
  rw [EStateM.run_bind, readClock_run, reading]
  dsimp only
  rw [EStateM.run_bind, worked]
  cases (work w bounds (r.reading w)).run (r.withWorld (w.readClock r.session.world).2) with
  | error e r' => rfl
  | ok reason? r' =>
    cases reason? with
    | some reason => rfl
    | none =>
      dsimp only
      rw [EStateM.run_bind, pace_run]
      cases (r'.pacing w (r.reading w)).answer <;> rfl

/-- A run ends where it was stopped; otherwise it makes a turn, and goes on if that does not end
it. -/
theorem loop_succ_run (bounds : Bounds) (turns : Nat) :
    (loop w bounds (turns + 1)).run r =
      if r.session.running then
        match (turn w bounds).run r with
        | .ok (some reason) r => .ok (some reason) r
        | .ok none r => (loop w bounds turns).run r
        | .error e r => .error e r
      else .ok (some .stopped) r := by
  rw [loop, EStateM.run_bind, EStateM.run_get]
  dsimp only
  cases r.session.running with
  | false => rfl
  | true =>
    change (turn w bounds >>= _).run r = _
    rw [EStateM.run_bind]
    cases (turn w bounds).run r with
    | error e r => rfl
    | ok reason? r => cases reason? <;> rfl

end Run

end ChipEight
