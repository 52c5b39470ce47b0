import ChipEight.Proofs.Session.Hosts
import ChipEight.Proofs.Session.Turn

/-!
# The entries of a run

A run comes to the beginning of one turn after the other. These are its **entries**, and they are
numbered from zero. `Turned` says once what a turn can do from an entry, `Enters` to which entries
a run comes, and `loop_ended` that a run ends at an entry: there it was asked to stop, or its turn
ends it or fails. Statements about whole runs are proved from these three by an induction over
entries.

A session is closed after its turns, however they end. `Session.run_cases` says what is left of it
then.
-/

namespace ChipEight

namespace Run

variable {σ : Type}

section Turned

variable (w : World σ)

/-- The run after the poll of a turn. -/
def attended (r : Run σ) : Run σ := (r.entered w).polled w

/-- Is the run asked to stop at the poll of a turn? -/
def asks (r : Run σ) : Bool := ((r.entered w).polling w).stop

/-- The run after the wait of a turn. -/
def completed (r : Run σ) (journal : Journal) : Run σ :=
  (((r.attended w).stepped journal).served w).paced w (r.reading w)

/-- What the wait of a turn answers. -/
def waiting (r : Run σ) (journal : Journal) : Except Fault Unit :=
  ((((r.attended w).stepped journal).served w).pacing w (r.reading w)).answer

/-- **What a turn can do**, `wait` being what it does after its work and `answer` how that goes. It
ends the run after its ticks at a limit, or after its poll; it fails in its poll, its step, its
presentation or its wait; or it is completed. -/
inductive Attempted (bounds : Bounds) (r : Run σ) (answer : Run σ → Except Fault Unit)
    (wait : Run σ → Run σ) : EStateM.Result Fault (Run σ) (Option StopReason) → Prop where
  | limit {reason : StopReason}
      (reached : limitReached bounds (r.entered w) (r.reading w) = some reason) :
      Attempted bounds r answer wait (.ok (some reason) (r.entered w))
  | quit (within : limitReached bounds (r.entered w) (r.reading w) = none)
      (quits : ((r.entered w).polling w).answer = .ok false) :
      Attempted bounds r answer wait (.ok (some .quit) (r.attended w))
  | pollFailed {e : Fault} (within : limitReached bounds (r.entered w) (r.reading w) = none)
      (failed : ((r.entered w).polling w).answer = .error e) :
      Attempted bounds r answer wait (.error e (r.attended w))
  | stepFailed {e : Fault} (within : limitReached bounds (r.entered w) (r.reading w) = none)
      (goes : ((r.entered w).polling w).answer = .ok true)
      (met : (r.attended w).session.machine.fault? = some e) (journal : Journal) :
      Attempted bounds r answer wait (.error e ((r.attended w).withJournal journal))
  | presentFailed {e : Fault} (within : limitReached bounds (r.entered w) (r.reading w) = none)
      (goes : ((r.entered w).polling w).answer = .ok true)
      (clear : (r.attended w).session.machine.fault? = none) (journal : Journal)
      (failed : (((r.attended w).stepped journal).presenting w).answer = .error e) :
      Attempted bounds r answer wait (.error e (((r.attended w).stepped journal).presented w))
  | waitFailed {e : Fault} (within : limitReached bounds (r.entered w) (r.reading w) = none)
      (goes : ((r.entered w).polling w).answer = .ok true)
      (clear : (r.attended w).session.machine.fault? = none) (journal : Journal)
      (shown : (((r.attended w).stepped journal).presenting w).answer = .ok ())
      (failed : answer (((r.attended w).stepped journal).served w) = .error e) :
      Attempted bounds r answer wait (.error e (wait (((r.attended w).stepped journal).served w)))
  | completed (within : limitReached bounds (r.entered w) (r.reading w) = none)
      (goes : ((r.entered w).polling w).answer = .ok true)
      (clear : (r.attended w).session.machine.fault? = none) (journal : Journal)
      (shown : (((r.attended w).stepped journal).presenting w).answer = .ok ())
      (waited : answer (((r.attended w).stepped journal).served w) = .ok ()) :
      Attempted bounds r answer wait (.ok none (wait (((r.attended w).stepped journal).served w)))

theorem attempted (bounds : Bounds) (r : Run σ) (answer : Run σ → Except Fault Unit)
    (wait : Run σ → Run σ) :
    Attempted w bounds r answer wait
      (match r.worked w bounds with
        | .ok none r' => ended ((answer r').map fun _ => none) (wait r')
        | result => result) := by
  have attended : (r.entered w).polled w = r.attended w := rfl
  rw [worked_eq, attended]
  cases within : limitReached bounds (r.entered w) (r.reading w) with
  | some reason => exact .limit within
  | none =>
    cases polled : ((r.entered w).polling w).answer with
    | error e => exact .pollFailed within polled
    | ok goesOn =>
      cases goesOn with
      | false => exact .quit within polled
      | true =>
        have spec := carryOut_run w (r.attended w)
        cases met : (r.attended w).session.machine.fault? with
        | some e =>
          rw [met] at spec
          obtain ⟨journal, failed⟩ := spec
          rw [failed]
          exact .stepFailed within polled met journal
        | none =>
          rw [met] at spec
          obtain ⟨journal, done⟩ := spec
          rw [done]
          cases shown : (((r.attended w).stepped journal).presenting w).answer with
          | error e => exact .presentFailed within polled met journal shown
          | ok _ =>
            dsimp only
            cases waited : answer (((r.attended w).stepped journal).served w) with
            | error e => exact .waitFailed within polled met journal shown waited
            | ok _ => exact .completed within polled met journal shown waited

/-- The work of a turn can do as much, but for the wait. -/
theorem worked_attempted (bounds : Bounds) (r : Run σ) :
    Attempted w bounds r (fun _ => .ok ()) (fun r' => r') (r.worked w bounds) := by
  have whole := attempted w bounds r (fun _ => .ok ()) fun r' => r'
  cases worked : r.worked w bounds with
  | error e r' =>
    rw [worked] at whole
    exact whole
  | ok reason? r' =>
    rw [worked] at whole
    cases reason? <;> exact whole

abbrev Turned (bounds : Bounds) (r : Run σ) :
    EStateM.Result Fault (Run σ) (Option StopReason) → Prop :=
  Attempted w bounds r (fun r' => (r'.pacing w (r.reading w)).answer)
    fun r' => r'.paced w (r.reading w)

theorem turned (bounds : Bounds) (r : Run σ) : Turned w bounds r ((turn w bounds).run r) := by
  rw [turn_run]
  exact attempted w bounds r _ _

end Turned

theorem limitReached_cases {bounds : Bounds} {r : Run σ} {now : Int} {reason : StopReason}
    (reached : limitReached bounds r now = some reason) :
    reason = .maxSeconds ∨ reason = .maxSteps := by
  unfold limitReached at reached
  split at reached
  · cases reached
    exact .inl rfl
  · split at reached
    · cases reached
      exact .inr rfl
    · cases reached

/-! ## What a completed turn leaves -/

section Completed

variable {w : World σ} (r : Run σ) (journal : Journal)

/-- The beeper is remembered by the session; all else is up to the world. -/
theorem withBeeper_eq (on : Bool) (s : Session σ) :
    withBeeper w on s = { s with beeping := on, world := (withBeeper w on s).world } := by
  unfold withBeeper
  split
  · subst on
    rfl
  · rfl

theorem withBeeper_machine (on : Bool) (s : Session σ) :
    (withBeeper w on s).machine = s.machine := by
  rw [withBeeper_eq]
  rfl

/-- What waits leave alone is the same after a wait, if there is one. -/
theorem waitFor_world {α : Type} {f : σ → α} (sleep : ∀ nanos s, f (w.sleep nanos s).world = f s)
    (nanos : Int) (s : σ) : f (w.waitFor nanos s).world = f s := by
  unfold World.waitFor
  split
  · rfl
  · split
    · rfl
    · exact sleep nanos s

/-- What the clock and the waits leave alone is the same after the wait of a turn. -/
theorem paced_world {α : Type} {f : σ → α} (readClock : ∀ s, f (w.readClock s).2 = f s)
    (sleep : ∀ nanos s, f (w.sleep nanos s).world = f s) (began : Int) :
    f (r.paced w began).session.world = f r.session.world :=
  (waitFor_world sleep _ _).trans (readClock _)

/-- What a completed turn leaves is what its presentation leaves, but for the world and the memory
of the beeper. -/
theorem completed_session :
    ∃ on world, (r.completed w journal).session =
      { (((r.attended w).stepped journal).presented w).session with
        beeping := on, world := world } := by
  have beeped := withBeeper_eq (w := w)
    (((r.attended w).stepped journal).presented w).session.machine.timers.beeping
    (((r.attended w).stepped journal).presented w).session
  exact ⟨_, _, congrArg (fun s : Session σ =>
    { s with world := (r.completed w journal).session.world }) beeped⟩

/-- A completed turn leaves the machine after its step, with the screen that the display leaves. -/
theorem completed_machine :
    (r.completed w journal).session.machine =
      { (r.attended w).session.machine.next with
        screen := (((r.attended w).stepped journal).presenting w).screen } := by
  obtain ⟨on, world, left⟩ := completed_session (w := w) r journal
  rw [left]
  rfl

/-- A run goes on after a completed turn unless it was asked to stop. -/
theorem completed_running :
    (r.completed w journal).session.running = (r.session.running && !r.asks w) := by
  obtain ⟨on, world, left⟩ := completed_session (w := w) r journal
  rw [left]
  rfl

theorem completed_ticker :
    (r.completed w journal).session.ticker = (r.entered w).session.ticker := by
  obtain ⟨on, world, left⟩ := completed_session (w := w) r journal
  rw [left]
  rfl

/-- A completed turn counts one step, one iteration and one frame. -/
theorem completed_counts :
    (r.completed w journal).counts =
      { steps := r.counts.steps + 1
        iterations := r.counts.iterations + 1
        ticks := (r.entered w).counts.ticks
        frames := r.counts.frames + 1 } := rfl

end Completed

/-! ## Entries -/

variable {w : World σ} {bounds : Bounds} {r₀ r r' : Run σ} {k : Nat} {asked : Bool}

/-- **A run comes to its entry number `k`**, and it was asked to stop in the turn before that. -/
inductive Enters (w : World σ) (bounds : Bounds) (r₀ : Run σ) : Nat → Bool → Run σ → Prop where
  | first : Enters w bounds r₀ 0 false r₀
  | next {k : Nat} {r r' : Run σ} (entered : Enters w bounds r₀ k false r)
      (went : (turn w bounds).run r = .ok none r') : Enters w bounds r₀ (k + 1) (r.asks w) r'

/-- A turn that does not end the run was completed. -/
theorem Attempted.of_none {answer : Run σ → Except Fault Unit} {wait : Run σ → Run σ}
    (went : Attempted w bounds r answer wait (.ok none r')) :
    limitReached bounds (r.entered w) (r.reading w) = none ∧
      ((r.entered w).polling w).answer = .ok true ∧
      (r.attended w).session.machine.fault? = none ∧
      ∃ journal, (((r.attended w).stepped journal).presenting w).answer = .ok () ∧
        answer (((r.attended w).stepped journal).served w) = .ok () ∧
        r' = wait (((r.attended w).stepped journal).served w) := by
  cases went with
  | completed within goes clear journal shown waited =>
    exact ⟨within, goes, clear, journal, shown, waited, rfl⟩

theorem Turned.of_none (went : Turned w bounds r (.ok none r')) :
    limitReached bounds (r.entered w) (r.reading w) = none ∧
      ((r.entered w).polling w).answer = .ok true ∧
      (r.attended w).session.machine.fault? = none ∧
      ∃ journal, (((r.attended w).stepped journal).presenting w).answer = .ok () ∧
        r.waiting w journal = .ok () ∧ r' = r.completed w journal := Attempted.of_none went

theorem turned_of_run {result : EStateM.Result Fault (Run σ) (Option StopReason)}
    (ran : (turn w bounds).run r = result) : Turned w bounds r result := ran ▸ turned w bounds r

/-- What holds at the first entry and passes from one entry to the next holds at all of them. -/
theorem Enters.induction {P : Nat → Run σ → Prop} (entered : Enters w bounds r₀ k asked r)
    (first : P 0 r₀)
    (next : ∀ k r journal, Enters w bounds r₀ k false r → P k r →
      limitReached bounds (r.entered w) (r.reading w) = none →
      ((r.entered w).polling w).answer = .ok true →
      (r.attended w).session.machine.fault? = none →
      (((r.attended w).stepped journal).presenting w).answer = .ok () →
      r.waiting w journal = .ok () → P (k + 1) (r.completed w journal)) : P k r := by
  induction entered with
  | first => exact first
  | next entered went ih =>
    obtain ⟨within, goes, clear, journal, shown, waited, rfl⟩ := (turned_of_run went).of_none
    exact next _ _ journal entered ih within goes clear shown waited

/-- A run that is to go on has not been asked to stop. -/
theorem Enters.running (entered : Enters w bounds r₀ k asked r)
    (running : r₀.session.running = true) : r.session.running = !asked := by
  induction entered with
  | first => exact running
  | next entered went ih =>
    obtain ⟨-, -, -, journal, -, -, rfl⟩ := (turned_of_run went).of_none
    rw [completed_running, ih, Bool.not_false, Bool.true_and]

/-- How the turns of a run end: not within their number, at an entry to which the run comes after it
was asked to stop, or by the turn from an entry. -/
inductive Ended (w : World σ) (bounds : Bounds) (r₀ : Run σ) (turns : Nat) :
    EStateM.Result Fault (Run σ) (Option StopReason) → Prop where
  | unended {asked : Bool} {r : Run σ} (entered : Enters w bounds r₀ turns asked r) :
      Ended w bounds r₀ turns (.ok none r)
  | stopped {k : Nat} {r : Run σ} (entered : Enters w bounds r₀ k true r) :
      Ended w bounds r₀ turns (.ok (some .stopped) r)
  | finished {k : Nat} {r r' : Run σ} {reason : StopReason} (entered : Enters w bounds r₀ k false r)
      (last : Turned w bounds r (.ok (some reason) r')) :
      Ended w bounds r₀ turns (.ok (some reason) r')
  | failed {k : Nat} {r r' : Run σ} {e : Fault} (entered : Enters w bounds r₀ k false r)
      (last : Turned w bounds r (.error e r')) : Ended w bounds r₀ turns (.error e r')

/-- The turns from an entry on end as turns of the whole run. -/
theorem Enters.loop_ended (entered : Enters w bounds r₀ k asked r)
    (running : r₀.session.running = true) (turns : Nat) :
    Ended w bounds r₀ (k + turns) ((loop w bounds turns).run r) := by
  -- What is left of the turns goes down as the number of the entry goes up.
  induction turns generalizing k asked r with
  | zero => exact .unended entered
  | succ turns ih =>
    have going := entered.running running
    rw [loop_succ_run]
    cases asked with
    | true =>
      rw [going]
      exact .stopped entered
    | false =>
      rw [going]
      simp only [Bool.not_false, if_true]
      cases ran : (turn w bounds).run r with
      | error e r' => exact .failed entered (turned_of_run ran)
      | ok reason? r' =>
        cases reason? with
        | some reason => exact .finished entered (turned_of_run ran)
        | none =>
          have rest := ih (.next entered ran)
          rw [Nat.succ_add_eq_add_succ] at rest
          exact rest

/-- **A run ends at one of its entries.** -/
theorem loop_ended (running : r.session.running = true) (bounds : Bounds) (turns : Nat) :
    Ended w bounds r turns ((loop w bounds turns).run r) := by
  have start : Enters w bounds r 0 false r := .first
  have whole := start.loop_ended running turns
  rw [Nat.zero_add] at whole
  exact whole

end Run

/-! ## What only polls change -/

/-- **What `f` finds in the state of a world changes at polls alone**, by `g` at each. -/
structure World.AtPolls (w : World σ) (f : σ → α) (g : α → α) : Prop where
  readClock : ∀ s, f (w.readClock s).2 = f s
  sleep : ∀ nanos s, f (w.sleep nanos s).world = f s
  poll : ∀ m s, f (w.poll m s).world = g (f s)
  present : ∀ screen s, f (w.present screen s).world = f s
  startBeep : ∀ s, f (w.startBeep s) = f s
  stopBeep : ∀ s, f (w.stopBeep s) = f s

namespace World.AtPolls

variable {σ α : Type} {w : World σ} {f : σ → α} {g : α → α}

theorem withBeeper (changes : w.AtPolls f g) (on : Bool) (s : Session σ) :
    f (Run.withBeeper w on s).world = f s.world := by
  unfold Run.withBeeper
  split
  · rfl
  · cases on with
    | true => exact changes.startBeep _
    | false => exact changes.stopBeep _

theorem attended (changes : w.AtPolls f g) (r : Run σ) :
    f (r.attended w).session.world = g (f r.session.world) := by
  rw [← changes.readClock r.session.world]
  exact changes.poll _ _

theorem completed (changes : w.AtPolls f g) (r : Run σ) (journal : Journal) :
    f (r.completed w journal).session.world = g (f r.session.world) := by
  rw [← changes.attended r]
  calc f (r.completed w journal).session.world
      = f (((r.attended w).stepped journal).served w).session.world :=
        Run.paced_world _ changes.readClock changes.sleep _
    _ = f (((r.attended w).stepped journal).presented w).session.world := changes.withBeeper _ _
    _ = f (r.attended w).session.world := changes.present _ _

end World.AtPolls

/-- What no poll changes either is the same at all entries of a run. -/
theorem Run.Enters.kept {σ α : Type} {w : World σ} {f : σ → α} {bounds : Bounds} {r₀ r : Run σ}
    {k : Nat} {asked : Bool} (entered : Enters w bounds r₀ k asked r) (keeps : w.AtPolls f id) :
    f r.session.world = f r₀.session.world := by
  refine entered.induction (P := fun _ r => f r.session.world = f r₀.session.world) rfl ?_
  intro k r journal _ same _ _ _ _ _
  exact (keeps.completed r journal).trans same

theorem Stage.countsPolls : Stage.world.AtPolls (fun s => s.notes.size) (· + 1) where
  readClock _ := rfl
  sleep := sleep_keeps (f := fun s => s.notes.size) fun _ _ _ => rfl
  poll _ _ := Array.size_push _
  present _ _ := rfl
  startBeep _ := rfl
  stopBeep _ := rfl

theorem Host.stop_poll (h : Host) (keypad : Keypad) : (h.poll keypad).stop = false := by
  cases h with
  | headless h =>
    change (h.input.poll keypad).stop = false
    unfold ScriptedInput.poll
    dsimp only
    split
    · rfl
    · split
      · rfl
      · split <;> rfl
  | window v =>
    unfold Host.poll
    dsimp only
    split <;> rfl

/-- **A world is calm**: it never asks a session to stop, and it stays that way. -/
structure World.Calm (w : World σ) (calm : σ → Prop) : Prop where
  keeps : w.AtPolls calm id
  stop : ∀ m s, calm s → (w.poll m s).stop = false

/-- A stage without a poll at which to stop never asks a session to stop. -/
theorem Stage.calm : Stage.world.Calm fun s => s.stopAt = none where
  keeps.readClock _ := rfl
  keeps.sleep := sleep_keeps (f := fun s => s.stopAt = none) fun _ _ _ => rfl
  keeps.poll _ _ := rfl
  keeps.present _ _ := rfl
  keeps.startBeep _ := rfl
  keeps.stopBeep _ := rfl
  stop m s never := by
    have stop : (Stage.world.poll m s).stop =
        ((s.host.poll m.keypad).stop || s.stopAt == some (s.notes.size : Int)) := rfl
    rw [stop, Host.stop_poll, never]
    rfl

theorem World.Calm.asks {σ : Type} {w : World σ} {calm : σ → Prop} (quiet : w.Calm calm)
    {r : Run σ} (here : calm r.session.world) : r.asks w = false := by
  have read : calm (r.entered w).session.world := (quiet.keeps.readClock _).mpr here
  exact quiet.stop _ _ read

/-! ## Whole runs -/

namespace Session

variable {σ : Type}

/-- A session at the first turn of a run. -/
def begun (w : World σ) (s : Session σ) : Run σ :=
  { s with world := (w.readClock s.world).2 }.started (w.readClock s.world).1

/-- The world of a session that is silenced. -/
def hushed (w : World σ) (s : Session σ) : σ := if s.beeping then w.stopBeep s.world else s.world

/-- A session that is closed after its turns. -/
def closed (w : World σ) (s : Session σ) : Session σ :=
  { s with beeping := false, running := false, world := (w.readClock (s.hushed w)).2 }

def withJournal (s : Session σ) (journal : Journal) : Session σ :=
  { s with monitored := { s.monitored with journal := journal } }

theorem hushed_eq (w : World σ) (s : Session σ) :
    s.hushed w = (Run.withBeeper w false s).world := by
  obtain ⟨_, _, _, _, beeping, _, _⟩ := s
  cases beeping <;> rfl

theorem close_session (w : World σ) (r : Run σ) : (close w r).2 = r.session.closed w := by
  obtain ⟨⟨_, _, _, _, beeping, _, _⟩, _, _, _⟩ := r
  cases beeping <;> rfl

theorem settle_session (reason : StopReason) (counts : Counts) (elapsed : Int) (s : Session σ) :
    ∃ journal, (settle reason counts elapsed s).2 = s.withJournal journal := by
  unfold settle
  split
  · exact ⟨s.monitored.journal, rfl⟩
  · exact ⟨_, rfl⟩

/-- The report of a run does not depend on the session that it is written to. -/
theorem answer_settle (reason : StopReason) (counts : Counts) (elapsed : Int) (s s' : Session σ) :
    (settle reason counts elapsed s).1 = (settle reason counts elapsed s').1 := by
  unfold settle
  split <;> rfl

/-- A report has the counts and the reason of its run. -/
theorem settle_eq_ok {reason : StopReason} {counts : Counts} {elapsed : Int} {s : Session σ}
    {stats : RunStats} (made : (settle reason counts elapsed s).1 = .ok stats) :
    stats.counts = counts ∧ stats.reason = reason := by
  unfold settle at made
  split at made
  · cases made
  · cases made
    exact ⟨rfl, rfl⟩

variable {w : World σ} {bounds : Bounds} {turns : Nat} {s s' : Session σ}
  {answer : Except Fault RunStats}

/-- A run that finished was closed after its turns: one of them ended it for a reason, or failed.
The report adds nothing but a line to the journal. -/
theorem run_cases (finished : s.run w bounds turns = some (answer, s')) :
    ∃ r journal, s' = (r.session.closed w).withJournal journal ∧
      ((∃ reason elapsed, (Run.loop w bounds turns).run (s.begun w) = .ok (some reason) r ∧
          answer = (settle reason r.counts elapsed s').1) ∨
        ∃ e, (Run.loop w bounds turns).run (s.begun w) = .error e r ∧ answer = .error e) := by
  unfold run at finished
  dsimp only at finished
  split at finished
  case h_1 => cases finished
  case h_2 reason r ran =>
    obtain ⟨rfl, rfl⟩ := Prod.mk.inj (Option.some.inj finished)
    rw [close_session]
    obtain ⟨journal, left⟩ := settle_session reason r.counts (close w r).1 (r.session.closed w)
    exact ⟨r, journal, left, .inl ⟨reason, (close w r).1, ran, answer_settle _ _ _ _ _⟩⟩
  case h_3 e r ran =>
    obtain ⟨rfl, rfl⟩ := Prod.mk.inj (Option.some.inj finished)
    exact ⟨r, _, close_session w r, .inr ⟨e, ran, rfl⟩⟩

/-- A run that has not finished would go on after its turns. -/
theorem unfinished (going : s.run w bounds turns = none) :
    ∃ r, (Run.loop w bounds turns).run (s.begun w) = .ok none r := by
  unfold run at going
  dsimp only at going
  split at going
  case h_1 r ran => exact ⟨r, ran⟩
  case h_2 => cases going
  case h_3 => cases going

/-- The turns of a session end at an entry of its run. -/
theorem begun_ended (w : World σ) (s : Session σ) (bounds : Bounds) (turns : Nat) :
    Run.Ended w bounds (s.begun w) turns ((Run.loop w bounds turns).run (s.begun w)) :=
  Run.loop_ended rfl bounds turns

end Session

theorem World.AtPolls.closed {σ α : Type} {w : World σ} {f : σ → α} {g : α → α}
    (changes : w.AtPolls f g) (s : Session σ) : f (s.closed w).world = f s.world := by
  have read : f (s.closed w).world = f (s.hushed w) := changes.readClock _
  rw [read, Session.hushed_eq]
  exact changes.withBeeper false s

end ChipEight
