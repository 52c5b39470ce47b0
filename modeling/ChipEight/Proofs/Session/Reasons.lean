import ChipEight.Proofs.Machine.WellFormed
import ChipEight.Proofs.Session.Headless

/-!
# Why a run ends

A run that comes to its end reports a reason and counts. `StopReason.first?` says which reason there
is to end a run at an entry: it was asked to stop in the turn before, its time is over, its steps
are made, or the input asks to quit, in this order. `run_ends_for_first_reason` says that a run ends
at the first entry at which there is one, reports that one, and has counted as many steps,
iterations and frames as it has entries before that; the machine, the display and the input have
counted alike.

Two bounds follow. A run with a greatest number of steps comes to its end and makes no more than
these, in any world. One whose input asks to quit, and which nothing else ends, makes exactly the
steps that the input leaves it.
-/

namespace ChipEight

/-- **The reason to end a run at its entry number `k`**, the first in order of those that hold: it
was asked to stop in the turn before, so much time has passed, so many steps were made, the input
asks to quit. -/
def StopReason.first? (bounds : Bounds) (asked : Bool) (passed : Int) (k : Nat) (quits : Bool) :
    Option StopReason :=
  if asked then some .stopped
  else if bounds.nanos.any (· ≤ passed) then some .maxSeconds
  else if bounds.steps.any (· ≤ (k : Int)) then some .maxSteps
  else if quits then some .quit
  else none

namespace Run

variable {σ : Type}

def quits (w : World σ) (r : Run σ) : Bool :=
  match ((r.entered w).polling w).answer with
  | .ok goesOn => !goesOn
  | .error _ => false

/-- **A run ends at its entry number `k` for a reason**: there is a reason to end it there, and none
at an entry before. -/
structure EndsAt (w : World σ) (bounds : Bounds) (r₀ : Run σ) (k : Nat) (reason : StopReason) :
    Prop where
  holds : ∃ asked r, Enters w bounds r₀ k asked r ∧
    StopReason.first? bounds asked (r.reading w - r₀.start) k (r.quits w) = some reason
  first : ∀ j < k, ∃ asked r, Enters w bounds r₀ j asked r ∧
    StopReason.first? bounds asked (r.reading w - r₀.start) j (r.quits w) = none

/-- The counts of a run at its entry number `k`. -/
structure Tally (r₀ : Run σ) (k : Nat) (r : Run σ) : Prop where
  start : r.start = r₀.start
  steps : r.counts.steps = r₀.counts.steps + k
  iterations : r.counts.iterations = r₀.counts.iterations + k
  frames : r.counts.frames = r₀.counts.frames + k
  executed : r.session.machine.executed = r₀.session.machine.executed + k

variable {w : World σ} {bounds : Bounds} {r₀ r r' : Run σ} {k : Nat} {asked : Bool}

/-- Each completed turn counts one of each. -/
theorem Enters.tally (entered : Enters w bounds r₀ k asked r) : Tally r₀ k r := by
  refine entered.induction (P := Tally r₀) ⟨rfl, rfl, rfl, rfl, rfl⟩ ?_
  intro k r journal _ tally _ _ clear _ _
  refine ⟨tally.start, ?_, ?_, ?_, ?_⟩
  · rw [completed_counts, tally.steps, Nat.add_assoc]
  · rw [completed_counts, tally.iterations, Nat.add_assoc]
  · rw [completed_counts, tally.frames, Nat.add_assoc]
  · have attended : (r.attended w).session.machine.executed = r.session.machine.executed := rfl
    rw [completed_machine, Machine.executed_next clear, attended, tally.executed, Nat.add_assoc]

/-- A limit comes before an input that asks to quit. -/
theorem first?_eq (w : World σ) (bounds : Bounds) (r : Run σ) :
    StopReason.first? bounds false (r.reading w - r.start) r.counts.steps (r.quits w) =
      (limitReached bounds (r.entered w) (r.reading w)).or
        (if r.quits w then some .quit else none) := by
  have start : (r.entered w).start = r.start := rfl
  have steps : (r.entered w).counts.steps = r.counts.steps := rfl
  unfold StopReason.first? limitReached
  rw [start, steps, if_neg Bool.false_ne_true]
  split
  · rfl
  · split <;> rfl

/-- A turn that ends the run does so for the first reason, and there is none if it does not end the
run. -/
theorem Turned.first? {answer : Option StopReason} (turned : Turned w bounds r (.ok answer r')) :
    StopReason.first? bounds false (r.reading w - r.start) r.counts.steps (r.quits w) = answer := by
  rw [first?_eq]
  cases turned with
  | limit reached => rw [reached, Option.some_or]
  | quit within quits =>
    have asks : r.quits w = true := by rw [Run.quits, quits]; rfl
    rw [within, asks]
    rfl
  | completed within goes =>
    have asks : r.quits w = false := by rw [Run.quits, goes]; rfl
    rw [within, asks]
    rfl

/-- There is no reason to end a run at an entry that it has left. -/
theorem Enters.none_before (entered : Enters w bounds r₀ k asked r)
    (uncounted : r₀.counts.steps = 0) :
    ∀ j < k, ∃ asked r, Enters w bounds r₀ j asked r ∧
      StopReason.first? bounds asked (r.reading w - r₀.start) j (r.quits w) = none := by
  induction entered with
  | first => exact fun j before => absurd before (Nat.not_lt_zero j)
  | @next k r r' entered went ih =>
    intro j before
    rcases Nat.lt_succ_iff_lt_or_eq.mp before with earlier | rfl
    · exact ih j earlier
    · -- The run has left the entry `j`, so its turn ended the run for no reason.
      refine ⟨false, r, entered, ?_⟩
      have none := (turned_of_run went).first?
      rw [entered.tally.start, entered.tally.steps, uncounted, Nat.zero_add] at none
      exact none

/-! ## The number of entries -/

/-- At an entry where no limit is reached there are steps left to make. -/
theorem Enters.lt_steps (entered : Enters w bounds r₀ k asked r) {n : Int}
    (limit : bounds.steps = some n) (uncounted : r₀.counts.steps = 0)
    (within : limitReached bounds (r.entered w) (r.reading w) = none) : k < n.toNat := by
  have made : (r.entered w).counts.steps = k := by
    rw [← Nat.zero_add k, ← uncounted]
    exact entered.tally.steps
  unfold limitReached at within
  rw [limit, made, Option.any_some] at within
  split at within
  · cases within
  · split at within
    case isTrue => cases within
    case isFalse below =>
      have below : ¬n ≤ k := by simpa using below
      omega

/-- A run that goes on at fewer than `n` entries comes to no entry after number `n`. -/
theorem Enters.le_of_below (entered : Enters w bounds r₀ k asked r) {n : Nat}
    (below : ∀ k r, Enters w bounds r₀ k false r →
      limitReached bounds (r.entered w) (r.reading w) = none → k < n) : k ≤ n := by
  cases entered with
  | first => exact Nat.zero_le _
  | next entered went =>
    obtain ⟨within, -⟩ := (turned_of_run went).of_none
    exact below _ _ entered within

section Headless

variable {host : σ → Host} {h : Headless}

/-- The host of a run at its entry number `k`. -/
structure Served (host : σ → Host) (h : Headless) (k : Nat) (r : Run σ) : Prop where
  host : ∃ h', host r.session.world = .headless h' ∧
    h'.display.presented = h.display.presented + k ∧ h'.input.polls = h.input.polls + k ∧
    h'.input.quitAfter = h.input.quitAfter

/-- Each completed turn shows the screen once, and its poll goes on. -/
theorem Enters.served (entered : Enters w bounds r₀ k asked r) (hosts : w.Hosts host)
    (headless : host r₀.session.world = .headless h) : Served host h k r := by
  refine entered.induction (P := Served host h) ⟨h, headless, rfl, rfl, rfl⟩ ?_
  rintro k r journal - ⟨h', headless, presented, polls, quitAfter⟩ - goes - - -
  obtain ⟨files, audio, -, -, left⟩ := completed_headless hosts headless journal
  obtain ⟨answer, -, -⟩ := entered_polling_headless hosts headless
  have counted := h'.input.poll_cases r.session.machine.keypad
  rw [← answer, goes] at counted
  refine ⟨_, left, ?_, ?_, ?_⟩
  · dsimp only
    rw [FrameRecorder.presented_present, presented, Nat.add_assoc]
  · rw [counted.2]
    exact congrArg (· + 1) polls
  · rw [counted.2]
    exact quitAfter

/-- At the poll of a turn, the input of a headless host asks to quit if it is over. -/
theorem quits_headless (hosts : w.Hosts host) (headless : host r.session.world = .headless h) :
    r.quits w = h.input.isOver := by
  obtain ⟨answer, -, -⟩ := entered_polling_headless hosts headless
  have cases := h.input.poll_cases r.session.machine.keypad
  unfold quits
  rw [answer]
  cases said : (h.input.poll r.session.machine.keypad).answer with
  | ok goesOn =>
    rw [said] at cases
    exact cases.1.symm
  | error e =>
    rw [said] at cases
    exact cases.1.symm

/-- A run does not come past the entry at which its input asks to quit. -/
theorem Enters.le_quitAfter (entered : Enters w bounds r₀ k asked r) (hosts : w.Hosts host)
    (headless : host r₀.session.world = .headless h) {q : Int}
    (quitAfter : h.input.quitAfter = some q) : k ≤ (q - h.input.polls).toNat := by
  cases entered with
  | first => exact Nat.zero_le _
  | @next k r _ entered went =>
    obtain ⟨-, goes, -⟩ := (turned_of_run went).of_none
    obtain ⟨h', headless, -, polls, same⟩ := (entered.served hosts headless).host
    have quit := quits_headless hosts headless
    rw [Run.quits, goes, ScriptedInput.isOver, same, quitAfter, polls] at quit
    have below : ¬q ≤ ((h.input.polls + k : Nat) : Int) := by simpa using quit
    omega

/-- The entry at which the input asks to quit. -/
theorem Enters.eq_quitAfter (entered : Enters w bounds r₀ k asked r) (hosts : w.Hosts host)
    (headless : host r₀.session.world = .headless h) {q : Int}
    (quitAfter : h.input.quitAfter = some q) (quits : r.quits w = true) :
    k = (q - h.input.polls).toNat := by
  have bounded := entered.le_quitAfter hosts headless quitAfter
  obtain ⟨h', headless, -, polls, same⟩ := (entered.served hosts headless).host
  rw [quits_headless hosts headless, ScriptedInput.isOver, same, quitAfter, polls] at quits
  have reached : q ≤ ((h.input.polls + k : Nat) : Int) := by simpa using quits
  omega

end Headless

theorem Enters.polls {polls : σ → Nat} (entered : Enters w bounds r₀ k asked r)
    (counts : w.AtPolls polls (· + 1)) : polls r.session.world = polls r₀.session.world + k := by
  refine entered.induction
    (P := fun k r => polls r.session.world = polls r₀.session.world + k) rfl ?_
  intro k r journal _ polled _ _ _ _ _
  rw [counts.completed, polled, Nat.add_assoc]

/-! ## The last entry -/

/-- What the end of a run leaves of its last entry: the run as it was, or after the first part of a
turn, or after its poll. -/
inductive Last (w : World σ) (r : Run σ) : StopReason → Run σ → Prop where
  | stopped : Last w r .stopped r
  | limit {reason : StopReason} (limit : reason ≠ .quit) : Last w r reason (r.entered w)
  | quit (quits : r.quits w = true) : Last w r .quit (r.attended w)

/-- A run that ends for a reason ends at the first entry at which there is one. -/
theorem Ended.endsAt {turns : Nat} {reason : StopReason}
    (ended : Ended w bounds r₀ turns (.ok (some reason) r')) (uncounted : r₀.counts.steps = 0) :
    ∃ k asked r, Enters w bounds r₀ k asked r ∧ Last w r reason r' ∧
      EndsAt w bounds r₀ k reason := by
  cases ended with
  | @stopped k _ entered =>
    exact ⟨k, true, r', entered, .stopped, ⟨true, r', entered, rfl⟩, entered.none_before uncounted⟩
  | @finished k r _ _ entered last =>
    have here := last.first?
    rw [entered.tally.start, entered.tally.steps, uncounted, Nat.zero_add] at here
    refine ⟨k, false, r, entered, ?_, ⟨false, r, entered, here⟩, entered.none_before uncounted⟩
    cases last with
    | limit reached =>
      refine .limit ?_
      rcases limitReached_cases reached with rfl | rfl
      · decide
      · decide
    | quit within quits =>
      refine .quit ?_
      rw [Run.quits, quits]
      rfl

theorem Last.tally {reason : StopReason} (last : Last w r reason r') (tally : Tally r₀ k r) :
    Tally r₀ k r' := by
  obtain ⟨start, steps, iterations, frames, executed⟩ := tally
  cases last with
  | stopped => exact ⟨start, steps, iterations, frames, executed⟩
  | limit => exact ⟨start, steps, iterations, frames, executed⟩
  | quit => exact ⟨start, steps, iterations, frames, executed⟩

theorem Last.presented {reason : StopReason} {host : σ → Host} {h : Headless}
    (last : Last w r reason r') (hosts : w.Hosts host)
    (headless : host r.session.world = .headless h) :
    ∃ h', host r'.session.world = .headless h' ∧ h'.display = h.display := by
  cases last with
  | stopped => exact ⟨h, headless, rfl⟩
  | limit => exact ⟨h, (hosts.readClock _).trans headless, rfl⟩
  | quit =>
    obtain ⟨-, -, left⟩ := entered_polling_headless hosts headless
    exact ⟨_, left, rfl⟩

/-- The end of a run polls once if the input asks to quit, and not at all otherwise. -/
theorem Last.polls {reason : StopReason} {polls : σ → Nat} (last : Last w r reason r')
    (counts : w.AtPolls polls (· + 1)) :
    polls r'.session.world = polls r.session.world + if reason = .quit then 1 else 0 := by
  cases last with
  | stopped => rfl
  | limit limit =>
    rw [if_neg limit]
    exact counts.readClock _
  | quit =>
    rw [if_pos rfl]
    exact counts.attended r

/-- A turn that fails has carried out one instruction at most. -/
theorem Turned.executed_le {e : Fault} (failed : Turned w bounds r (.error e r')) :
    limitReached bounds (r.entered w) (r.reading w) = none ∧
      r'.session.machine.executed ≤ r.session.machine.executed + 1 := by
  cases failed with
  | pollFailed within => exact ⟨within, Nat.le_succ _⟩
  | stepFailed within => exact ⟨within, Nat.le_succ _⟩
  | presentFailed within _ clear => exact ⟨within, Nat.le_of_eq (Machine.executed_next clear)⟩
  | waitFailed within _ clear journal =>
    have left := congrArg Machine.executed (completed_machine (w := w) r journal)
    exact ⟨within, Nat.le_of_eq (left.trans (Machine.executed_next clear))⟩

/-- A run that goes on at fewer than `n` entries has carried out `n` instructions at most when it
has ended or failed. -/
theorem Ended.executed_le {turns n : Nat} (uncounted : r₀.counts.steps = 0)
    (below : ∀ k r, Enters w bounds r₀ k false r →
      limitReached bounds (r.entered w) (r.reading w) = none → k < n) :
    (∀ reason, Ended w bounds r₀ turns (.ok (some reason) r') →
      r'.session.machine.executed ≤ r₀.session.machine.executed + n) ∧
    ∀ e, Ended w bounds r₀ turns (.error e r') →
      r'.session.machine.executed ≤ r₀.session.machine.executed + n := by
  refine ⟨fun reason ended => ?_, fun e ended => ?_⟩
  · obtain ⟨k, asked, r, entered, last, -⟩ := ended.endsAt uncounted
    have made := (last.tally entered.tally).executed
    have few := entered.le_of_below below
    omega
  · cases ended with
    | @failed k r _ _ entered last =>
      obtain ⟨within, one⟩ := last.executed_le
      have made := entered.tally.executed
      have few := below k r entered within
      omega

/-- A run that is asked to stop at none of its polls was not asked to stop before any entry. -/
theorem Enters.not_asked (entered : Enters w bounds r₀ k asked r)
    (unasked : ∀ j r, Enters w bounds r₀ j false r → r.asks w = false) : asked = false := by
  cases entered with
  | first => rfl
  | next entered went => exact unasked _ _ entered

end Run

namespace Session

variable {σ : Type}

/-- What a run that ended at its entry number `k` reports and leaves. -/
structure Reports (host : σ → Host) (polls : σ → Nat) (s : Session σ) (k : Nat) (stats : RunStats)
    (s' : Session σ) : Prop where
  steps : stats.counts.steps = k
  iterations : stats.counts.iterations = k
  frames : stats.counts.frames = k
  executed : s'.machine.executed = s.machine.executed + k
  presented : ∃ h h', host s.world = .headless h ∧ host s'.world = .headless h' ∧
    h'.display.presented = h.display.presented + k
  polled : polls s'.world = polls s.world + k + if stats.reason = .quit then 1 else 0

section

variable {w : World σ} {host : σ → Host} {polls : σ → Nat} {s s' : Session σ} {h : Headless}
  {bounds : Bounds} {turns : Nat} {stats : RunStats}

/-- A run that comes to its end ends at the first entry at which there is a reason, and is closed
there. -/
theorem ends_of_run (finished : s.run w bounds turns = some (.ok stats, s')) :
    ∃ k asked r r' journal, Run.Enters w bounds (s.begun w) k asked r ∧
      Run.Last w r stats.reason r' ∧ (s.begun w).EndsAt w bounds k stats.reason ∧
      stats.counts = r'.counts ∧ s' = (r'.session.closed w).withJournal journal := by
  obtain ⟨r', journal, left, ⟨reason, elapsed, ran, report⟩ | ⟨e, ran, failed⟩⟩ :=
    run_cases finished
  · obtain ⟨counted, rfl⟩ := settle_eq_ok report.symm
    have ended := s.begun_ended w bounds turns
    rw [ran] at ended
    obtain ⟨k, asked, r, entered, last, endsAt⟩ := ended.endsAt rfl
    exact ⟨k, asked, r, r', journal, entered, last, endsAt, counted, left⟩
  · cases failed

/-- A run that comes to its end reports what it has done up to that. -/
theorem reports_of_run (hosts : w.Hosts host) (counts : w.AtPolls polls (· + 1))
    (headless : host s.world = .headless h)
    (finished : s.run w bounds turns = some (.ok stats, s')) :
    ∃ k, (s.begun w).EndsAt w bounds k stats.reason ∧ s.Reports host polls k stats s' ∧
      ∀ q, h.input.quitAfter = some q → stats.reason = .quit → k = (q - h.input.polls).toNat := by
  obtain ⟨k, asked, r, r', journal, entered, last, endsAt, counted, rfl⟩ := ends_of_run finished
  obtain ⟨-, steps, iterations, frames, executed⟩ := last.tally entered.tally
  have start : host (s.begun w).session.world = .headless h :=
    (hosts.readClock _).trans headless
  obtain ⟨h₁, here, presented, -, -⟩ := (entered.served hosts start).host
  obtain ⟨h₂, left, display⟩ := last.presented hosts here
  obtain ⟨audio, closed⟩ := closed_headless hosts left
  have polled : polls (r'.session.closed w).world =
      polls s.world + k + if stats.reason = .quit then 1 else 0 := by
    rw [counts.closed, last.polls counts, entered.polls counts]
    exact congrArg (· + k + _) (counts.readClock _)
  refine ⟨k, endsAt, ⟨?_, ?_, ?_, executed, ⟨h, _, headless, closed, ?_⟩, polled⟩, ?_⟩
  · rw [counted, steps]
    exact Nat.zero_add k
  · rw [counted, iterations]
    exact Nat.zero_add k
  · rw [counted, frames]
    exact Nat.zero_add k
  · rw [display, presented]
  · intro q quitAfter quit
    rw [quit] at last
    cases last with
    | limit limit => exact absurd rfl limit
    | quit quits => exact entered.eq_quitAfter hosts start quitAfter quits

/-- A run that goes on at fewer than `n` entries has come to its end after `n` turns and one
more. -/
theorem isSome_run_of_below {n : Nat} (enough : n < turns)
    (below : ∀ k r, Run.Enters w bounds (s.begun w) k false r →
      Run.limitReached bounds (r.entered w) (r.reading w) = none → k < n) :
    (s.run w bounds turns).isSome := by
  cases finished : s.run w bounds turns with
  | some result => rfl
  | none =>
    obtain ⟨r, going⟩ := unfinished finished
    have ended := s.begun_ended w bounds turns
    rw [going] at ended
    cases ended with
    | unended entered =>
      have few := entered.le_of_below below
      omega

theorem executed_le_of_below {n : Nat}
    (below : ∀ k r, Run.Enters w bounds (s.begun w) k false r →
      Run.limitReached bounds (r.entered w) (r.reading w) = none → k < n)
    {answer : Except Fault RunStats} (finished : s.run w bounds turns = some (answer, s')) :
    s'.machine.executed ≤ s.machine.executed + n := by
  obtain ⟨r, journal, rfl, ⟨reason, elapsed, ran, -⟩ | ⟨e, ran, -⟩⟩ := run_cases finished
  · have ended := s.begun_ended w bounds turns
    rw [ran] at ended
    exact (Run.Ended.executed_le rfl below).1 reason ended
  · have ended := s.begun_ended w bounds turns
    rw [ran] at ended
    exact (Run.Ended.executed_le rfl below).2 e ended

/-- A run that is given a number of steps has come to its end after as many turns and one more. -/
theorem isSome_run_of_steps {n : Int} (limit : bounds.steps = some n) (enough : n.toNat < turns) :
    (s.run w bounds turns).isSome :=
  isSome_run_of_below enough fun _ _ entered within => entered.lt_steps limit rfl within

theorem executed_le_of_run {n : Int} (limit : bounds.steps = some n)
    {answer : Except Fault RunStats} (finished : s.run w bounds turns = some (answer, s')) :
    s'.machine.executed ≤ s.machine.executed + n.toNat :=
  executed_le_of_below (fun _ _ entered within => entered.lt_steps limit rfl within) finished

/-- A run that only its input can end comes to its end, and its input ends it. -/
theorem quits_of_run (hosts : w.Hosts host) (headless : host s.world = .headless h) {q : Int}
    (quitAfter : h.input.quitAfter = some q)
    (unasked : ∀ k r, Run.Enters w ⟨none, none⟩ (s.begun w) k false r → r.asks w = false)
    (enough : (q - h.input.polls).toNat < turns) :
    ∃ answer s', s.run w ⟨none, none⟩ turns = some (answer, s') ∧
      ∀ stats, answer = .ok stats → stats.reason = .quit := by
  have start : host (s.begun w).session.world = .headless h := (hosts.readClock _).trans headless
  have ended := s.begun_ended w ⟨none, none⟩ turns
  cases finished : s.run w ⟨none, none⟩ turns with
  | none =>
    obtain ⟨r, going⟩ := unfinished finished
    rw [going] at ended
    -- The run would have come past the entry at which the input asks to quit.
    cases ended with
    | unended entered =>
      have below := entered.le_quitAfter hosts start quitAfter
      omega
  | some result =>
    obtain ⟨answer, s'⟩ := result
    refine ⟨answer, s', rfl, ?_⟩
    rintro stats rfl
    obtain ⟨r, journal, -, ⟨reason, elapsed, ran, report⟩ | ⟨e, -, failed⟩⟩ := run_cases finished
    · obtain ⟨-, rfl⟩ := settle_eq_ok report.symm
      rw [ran] at ended
      obtain ⟨k, -, -, -, -, endsAt⟩ := ended.endsAt rfl
      obtain ⟨asked, r, entered, holds⟩ := endsAt.holds
      -- Neither a stop nor a limit is left as the reason.
      rw [entered.not_asked unasked] at holds
      have quits : (if r.quits w then some StopReason.quit else none) = some stats.reason := holds
      split at quits
      · exact (Option.some.inj quits).symm
      · cases quits
    · cases failed

/-- A session is not running after a run; if there was no run, it is as it was. -/
theorem running_of_runFor {steps : Option Int} {seconds : Option Number}
    (idle : (∃ nanos, seconds.mapM nanosOfSeconds = .ok nanos) ∨ s.running = false)
    {answer : Except Fault RunStats}
    (finished : s.runFor w steps seconds turns = some (answer, s')) : s'.running = false := by
  unfold runFor at finished
  split at finished
  case h_1 e refused =>
    cases finished
    rcases idle with ⟨nanos, limit⟩ | idle
    · rw [refused] at limit
      cases limit
    · exact idle
  case h_2 nanos limit =>
    obtain ⟨r, journal, rfl, -⟩ := run_cases finished
    rfl

end

/-- **A run ends for the first reason that there is**, in any world with a headless host: at the
first entry at which it was asked to stop, its time is over, its steps are made or its input asks to
quit, the first of these if several hold. Its steps, iterations and frames are as many as the
entries before that one, and so are the instructions that the machine has carried out and the
screens that the display was given; one poll more was made if the input asked to quit.

A run that nothing but its input ends makes the steps up to the poll at which the input asks to
quit. In any world, a run that is given a number of steps comes to its end and makes no more of
them, and a session is not running after a run, whether it was reported or failed; where the seconds
cannot be brought to nanoseconds there is no run, and the session is as it was. -/
theorem run_ends_for_first_reason (w : World σ) (s : Session σ) (steps : Option Int)
    (seconds : Option Number) (turns : Nat) :
    (∀ (host : σ → Host) (polls : σ → Nat) (h : Headless), w.Hosts host →
      w.AtPolls polls (· + 1) → host s.world = .headless h →
      (∀ stats s', s.runFor w steps seconds turns = some (.ok stats, s') →
        ∃ nanos k, seconds.mapM nanosOfSeconds = .ok nanos ∧
          (s.begun w).EndsAt w ⟨steps, nanos⟩ k stats.reason ∧ s.Reports host polls k stats s' ∧
          ∀ q, h.input.quitAfter = some q → stats.reason = .quit →
            k = (q - h.input.polls).toNat) ∧
      (∀ q, h.input.quitAfter = some q → (q - h.input.polls).toNat < turns →
        (∀ k r, Run.Enters w ⟨none, none⟩ (s.begun w) k false r → r.asks w = false) →
        ∃ answer s', s.runFor w none none turns = some (answer, s') ∧
          ∀ stats, answer = .ok stats →
            stats.reason = .quit ∧ stats.counts.steps = (q - h.input.polls).toNat)) ∧
    (∀ n, steps = some n →
      (∀ answer s', s.runFor w steps seconds turns = some (answer, s') →
        s'.machine.executed ≤ s.machine.executed + n.toNat) ∧
      (n.toNat < turns → (s.runFor w steps seconds turns).isSome)) ∧
    (∀ answer s', s.runFor w steps seconds turns = some (answer, s') →
      (∃ nanos, seconds.mapM nanosOfSeconds = .ok nanos) ∨ s.running = false →
      s'.running = false) := by
  refine ⟨?_, ?_, fun answer s' finished idle => running_of_runFor idle finished⟩
  · intro host polls h hosts counts headless
    refine ⟨?_, ?_⟩
    · intro stats s' finished
      unfold runFor at finished
      split at finished
      · cases finished
      · rename_i nanos limit
        obtain ⟨k, endsAt, reports, left⟩ := reports_of_run hosts counts headless finished
        exact ⟨nanos, k, limit, endsAt, reports, left⟩
    · intro q quitAfter enough unasked
      obtain ⟨answer, s', finished, quits⟩ :=
        quits_of_run hosts headless quitAfter unasked enough
      refine ⟨answer, s', finished, ?_⟩
      rintro stats rfl
      have reason := quits stats rfl
      obtain ⟨k, -, reports, left⟩ := reports_of_run hosts counts headless finished
      exact ⟨reason, reports.steps.trans (left q quitAfter reason)⟩
  · intro n limit
    unfold runFor
    split
    · refine ⟨fun answer s' finished => ?_, fun _ => rfl⟩
      cases finished
      exact Nat.le_add_right _ _
    · exact ⟨fun answer s' finished => executed_le_of_run limit finished,
        isSome_run_of_steps limit⟩

/-- A headless host without a script whose input asks to quit after three polls. -/
def briefHost : Headless :=
  ⟨⟨none, FrameRecorder.standardZoom, 0, 0, none⟩, .make [] (some 3), .silent⟩

/-- A session on a stage. Its program jumps to its own beginning for ever. -/
def brief : Session Stage where
  monitored := ⟨.loaded [0x12, 0x00], false, .empty⟩
  ticker := ⟨60, 3000 * nanosPerMilli, 0⟩
  hertz := .ofInt 500
  period := 2000000
  beeping := false
  running := false
  world := Stage.make (.headless briefHost) .empty

/-- The brief session, asked to stop at its second poll. -/
def called : Session Stage := { brief with world := { brief.world with stopAt := some 1 } }

/-- The brief session has made three steps when its input asks to quit. If three steps are all that
it is given, they are the reason, as they come before the input; if four milliseconds are over when
two steps are made, the time is the reason, and if it was asked to stop besides, that is. -/
theorem run_ends_for_first_reason_brief :
    let polls := fun x : Stage => x.notes.size
    let length : Option Number := some (.real (.ofRatio false 4 1000))
    Stage.world.Hosts Stage.host ∧ Stage.world.AtPolls polls (· + 1) ∧
    Stage.host brief.world = .headless briefHost ∧ Stage.host called.world = .headless briefHost ∧
    (∃ stats s', brief.runFor Stage.world (some 3) none 9 = some (.ok stats, s') ∧
      s'.running = false ∧
      (brief.begun Stage.world).EndsAt Stage.world ⟨some 3, none⟩ 3 .maxSteps ∧
      brief.Reports Stage.host polls 3 stats s') ∧
    (∃ stats s', brief.runFor Stage.world (some 2) length 9 = some (.ok stats, s') ∧
      s'.running = false ∧
      (brief.begun Stage.world).EndsAt Stage.world ⟨some 2, some 4000000⟩ 2 .maxSeconds ∧
      brief.Reports Stage.host polls 2 stats s') ∧
    (∃ stats s', called.runFor Stage.world (some 2) length 9 = some (.ok stats, s') ∧
      s'.running = false ∧
      (called.begun Stage.world).EndsAt Stage.world ⟨some 2, some 4000000⟩ 2 .stopped ∧
      called.Reports Stage.host polls 2 stats s') ∧
    ∃ answer s', brief.runFor Stage.world none none 9 = some (answer, s') ∧
      ∀ stats, answer = .ok stats → stats.reason = .quit ∧ stats.counts.steps = 3 := by
  intro polls length
  have told {s : Session Stage} {steps : Option Int} {seconds : Option Number} {nanos : Option Int}
      {reason : StopReason} {n : Nat} (headless : Stage.host s.world = .headless briefHost)
      (idle : s.running = false) (limit : seconds.mapM nanosOfSeconds = .ok nanos)
      (course : ((s.runFor Stage.world steps seconds 9).map fun result =>
        result.1.toOption.map fun stats => (stats.reason, stats.counts.steps)) =
          some (some (reason, n))) :
      ∃ stats s', s.runFor Stage.world steps seconds 9 = some (.ok stats, s') ∧
        s'.running = false ∧ (s.begun Stage.world).EndsAt Stage.world ⟨steps, nanos⟩ n reason ∧
        s.Reports Stage.host polls n stats s' := by
    obtain ⟨within, -, stops⟩ := run_ends_for_first_reason Stage.world s steps seconds 9
    obtain ⟨ends, -⟩ := within Stage.host polls briefHost Stage.hosts Stage.countsPolls headless
    obtain ⟨⟨answer, s'⟩, finished, reported⟩ := Option.map_eq_some_iff.mp course
    cases answer with
    | error e => cases reported
    | ok stats =>
      obtain ⟨rfl, rfl⟩ := Prod.mk.inj (Option.some.inj reported)
      obtain ⟨nanos', k, limit', endsAt, reports, -⟩ := ends stats s' finished
      cases limit.symm.trans limit'
      cases reports.steps
      exact ⟨stats, s', finished, stops _ s' finished (.inr idle), endsAt, reports⟩
  have time : length.mapM nanosOfSeconds = .ok (some 4000000) := by decide +kernel
  refine ⟨Stage.hosts, Stage.countsPolls, rfl, rfl, told rfl rfl rfl (by decide +kernel),
    told rfl rfl time (by decide +kernel), told rfl rfl time (by decide +kernel), ?_⟩
  obtain ⟨within, -, -⟩ := run_ends_for_first_reason Stage.world brief none none 9
  obtain ⟨-, quits⟩ := within Stage.host polls briefHost Stage.hosts Stage.countsPolls rfl
  refine quits 3 rfl (by decide) fun k r entered => ?_
  have kept : r.session.world.stopAt = none := (entered.kept Stage.calm.keeps).mpr rfl
  exact Stage.calm.asks kept

end Session

end ChipEight
