import ChipEight.Proofs.Session.Launched
import ChipEight.Proofs.Session.Refinement
import ChipEight.Proofs.Session.Trail
import Mathlib.Algebra.Order.Floor.Ring
import Mathlib.Data.List.Chain
import Mathlib.Data.Rat.Floor

/-!
# Pacing

A turn begins with a reading of the clock, and waits at its end for what is then left of the period.
If the clock of the world never goes back (`World.Forward`), the readings are a period apart, a turn
sleeps once at most, and a run that is given a length of time makes no more steps than periods begin
in it (`Session.instructions_are_paced`). Where the clock moves by work and by waits alone
(`World.Exact`), a turn takes a period or the time of its work, and light work leaves room for all
of those steps. The clock of a steady stage is of this kind (`Stage.exact`).

A turn is cut in two. Its work leads from its first reading to `Run.atWait`, and what each part of
the work respects is respected by the whole of it (`World.Leads`); its wait is `Run.paced`.
-/

namespace ChipEight

/-! ## Clocks -/

/-- **A clock that never goes back.** Each state of the world has a time, which no part of the world
turns back: a reading of the clock lies between the times before and after it, and a wait of up to
a period takes its length at least, unless it is refused. This is asked of the states that are
`fair`, which are kept. -/
structure World.Forward (w : World σ) (fair : σ → Prop) (time : σ → Int) (period : Int) :
    Prop where
  keeps : w.AtPolls fair id
  readClock : ∀ s, fair s → time s ≤ (w.readClock s).1 ∧
    (w.readClock s).1 ≤ time (w.readClock s).2
  sleep : ∀ nanos s, fair s → 0 < nanos → nanos ≤ period → (w.sleep nanos s).answer = .ok () →
    time s + nanos ≤ time (w.sleep nanos s).world
  poll : ∀ m s, fair s → time s ≤ time (w.poll m s).world
  present : ∀ screen s, fair s → time s ≤ time (w.present screen s).world
  startBeep : ∀ s, fair s → time s ≤ time (w.startBeep s)
  stopBeep : ∀ s, fair s → time s ≤ time (w.stopBeep s)

/-- **A clock that moves by work and by waits alone**, by the latter exactly as far as it is asked
to, unless they are refused. -/
structure World.Exact (w : World σ) (fair : σ → Prop) (time : σ → Int) (period : Int) : Prop
    extends w.Forward fair time period where
  read : ∀ s, fair s → (w.readClock s).1 = time s ∧ time (w.readClock s).2 = time s
  waits : ∀ nanos s, fair s → 0 < nanos → nanos ≤ period → (w.sleep nanos s).answer = .ok () →
    time (w.sleep nanos s).world = time s + nanos

/-- **What `f` finds in the state of a world changes at waits alone**, by `g` at each that is not
refused. -/
structure World.AtWaits (w : World σ) (f : σ → α) (g : Int → α → α) : Prop where
  readClock : ∀ s, f (w.readClock s).2 = f s
  sleep : ∀ nanos s, (w.sleep nanos s).answer = .ok () → f (w.sleep nanos s).world = g nanos (f s)
  poll : ∀ m s, f (w.poll m s).world = f s
  present : ∀ screen s, f (w.present screen s).world = f s
  startBeep : ∀ s, f (w.startBeep s) = f s
  stopBeep : ∀ s, f (w.stopBeep s) = f s

/-- **Work leads along a relation**: so do the parts of a turn that follow its first reading, up to
its wait. -/
structure World.Leads (w : World σ) (R : σ → σ → Prop) : Prop where
  refl : ∀ a, R a a
  trans : ∀ {a b c}, R a b → R b c → R a c
  poll : ∀ m s, R s (w.poll m s).world
  present : ∀ screen s, R s (w.present screen s).world
  startBeep : ∀ s, R s (w.startBeep s)
  stopBeep : ∀ s, R s (w.stopBeep s)

section

variable {σ α : Type} {w : World σ} {fair : σ → Prop} {time : σ → Int} {period : Int} {f : σ → α}
  {g : Int → α → α} {R : σ → σ → Prop}

theorem World.Forward.leads (forward : w.Forward fair time period) :
    w.Leads fun s s' => fair s → fair s' ∧ time s ≤ time s' where
  refl _ fine := ⟨fine, Int.le_refl _⟩
  trans first second fine :=
    ⟨(second (first fine).1).1, Int.le_trans (first fine).2 (second (first fine).1).2⟩
  poll m s fine := ⟨(forward.keeps.poll m s).mpr fine, forward.poll m s fine⟩
  present screen s fine :=
    ⟨(forward.keeps.present screen s).mpr fine, forward.present screen s fine⟩
  startBeep s fine := ⟨(forward.keeps.startBeep s).mpr fine, forward.startBeep s fine⟩
  stopBeep s fine := ⟨(forward.keeps.stopBeep s).mpr fine, forward.stopBeep s fine⟩

theorem World.AtWaits.leads (changes : w.AtWaits f g) : w.Leads fun s s' => f s' = f s where
  refl _ := rfl
  trans first second := second.trans first
  poll := changes.poll
  present := changes.present
  startBeep := changes.startBeep
  stopBeep := changes.stopBeep

variable {bounds : Bounds} {r₀ r r' : Run σ} {k : Nat} {asked : Bool}

/-! ## The work of a turn -/

namespace Run

/-- The run after the work of a turn: before its wait, or where the turn has ended the run. -/
def atWait (w : World σ) (bounds : Bounds) (r : Run σ) : Run σ := left (r.worked w bounds)

/-- The time that the work of a turn takes, from its first reading to its wait. -/
def spent (w : World σ) (bounds : Bounds) (time : σ → Int) (r : Run σ) : Int :=
  time (r.atWait w bounds).session.world - r.reading w

/-- A turn that does not end the run is its work and its wait. -/
theorem worked_of_went (went : (turn w bounds).run r = .ok none r') :
    r.worked w bounds = .ok none (r.atWait w bounds) ∧
      ((r.atWait w bounds).pacing w (r.reading w)).answer = .ok () ∧
      r' = (r.atWait w bounds).paced w (r.reading w) := by
  rw [turn_run] at went
  unfold atWait
  split at went
  case h_1 r₁ worked =>
    obtain ⟨waited, rfl⟩ := ended_eq_ok_iff.mp went
    rw [worked]
    refine ⟨rfl, ?_, rfl⟩
    cases answer : (r₁.pacing w (r.reading w)).answer with
    | error e =>
      rw [answer] at waited
      cases waited
    | ok _ => exact answer
  case h_2 result ends => exact absurd went (ends r')

/-- It has polled, stepped and presented before its wait. -/
theorem atWait_of_went (went : (turn w bounds).run r = .ok none r') :
    ∃ journal, r.atWait w bounds = ((r.attended w).stepped journal).served w := by
  have whole := worked_attempted w bounds r
  rw [(worked_of_went went).1] at whole
  obtain ⟨-, -, -, journal, -, -, served⟩ := whole.of_none
  exact ⟨journal, served⟩

theorem period_atWait (w : World σ) (bounds : Bounds) (r : Run σ) :
    (r.atWait w bounds).session.period = r.session.period := by
  have whole := worked_attempted w bounds r
  unfold atWait
  generalize r.worked w bounds = result at whole
  cases whole with
  | waitFailed _ _ _ _ _ refused => cases refused
  | completed _ _ _ journal =>
    change (withBeeper w _ (((r.attended w).stepped journal).presented w).session).period = _
    rw [withBeeper_eq]
    rfl
  | _ => rfl

end Run

namespace World.Leads

theorem withBeeper (leads : w.Leads R) (on : Bool) (s : Session σ) :
    R s.world (Run.withBeeper w on s).world := by
  unfold Run.withBeeper
  split
  · exact leads.refl _
  · cases on with
    | true => exact leads.startBeep _
    | false => exact leads.stopBeep _

/-- The work of a turn leads from its first reading to its wait, or to its end. -/
theorem atWait (leads : w.Leads R) (bounds : Bounds) (r : Run σ) :
    R (w.readClock r.session.world).2 (r.atWait w bounds).session.world := by
  have attended : R (w.readClock r.session.world).2 (r.attended w).session.world := leads.poll _ _
  have presented (journal : Journal) : R (w.readClock r.session.world).2
      (((r.attended w).stepped journal).presented w).session.world :=
    leads.trans attended (leads.present _ _)
  have whole := Run.worked_attempted w bounds r
  unfold Run.atWait
  generalize r.worked w bounds = result at whole
  cases whole with
  | limit => exact leads.refl _
  | quit => exact attended
  | pollFailed => exact attended
  | stepFailed => exact attended
  | presentFailed _ _ _ journal => exact presented journal
  | waitFailed _ _ _ _ _ refused => cases refused
  | completed _ _ _ journal => exact leads.trans (presented journal) (leads.withBeeper _ _)

end World.Leads

theorem World.AtWaits.atWait (changes : w.AtWaits f g) (bounds : Bounds) (r : Run σ) :
    f (r.atWait w bounds).session.world = f r.session.world :=
  (changes.leads.atWait bounds r).trans (changes.readClock _)

theorem World.Forward.atWait (forward : w.Forward fair time period) (fine : fair r.session.world)
    (bounds : Bounds) :
    fair (r.atWait w bounds).session.world ∧
      r.reading w ≤ time (r.atWait w bounds).session.world := by
  have read : fair (w.readClock r.session.world).2 := (forward.keeps.readClock _).mpr fine
  obtain ⟨fine', later⟩ := forward.leads.atWait bounds r read
  exact ⟨fine', Int.le_trans (forward.readClock _ fine).2 later⟩

/-! ## The wait of a turn -/

/-- A wait that is not refused reads the clock, and sleeps for what is left of the period then, if
anything is. -/
theorem Run.paced_cases {began : Int} (waited : (r.pacing w began).answer = .ok ()) :
    let nanos := began + r.session.period - (w.readClock r.session.world).1
    let read := (w.readClock r.session.world).2
    nanos ≤ 0 ∧ (r.paced w began).session.world = read ∨
      0 < nanos ∧ (w.sleep nanos read).answer = .ok () ∧
        (r.paced w began).session.world = (w.sleep nanos read).world := by
  intro nanos read
  change (w.waitFor nanos read).answer = .ok () at waited
  change nanos ≤ 0 ∧ (w.waitFor nanos read).world = read ∨
    0 < nanos ∧ (w.sleep nanos read).answer = .ok () ∧
      (w.waitFor nanos read).world = (w.sleep nanos read).world
  unfold World.waitFor at waited ⊢
  by_cases none : nanos ≤ 0
  · rw [if_pos none]
    exact .inl ⟨none, rfl⟩
  · rw [if_neg none] at waited ⊢
    cases seconds : Number.div (.int nanos) (.int nanosPerSecond) with
    | error e =>
      rw [seconds] at waited
      cases waited
    | ok _ =>
      rw [seconds] at waited
      exact .inr ⟨not_le.mp none, waited, rfl⟩

theorem World.Forward.paced (forward : w.Forward fair time r.session.period)
    (fine : fair r.session.world) {began : Int} (since : began ≤ time r.session.world)
    (waited : (r.pacing w began).answer = .ok ()) :
    fair (r.paced w began).session.world ∧
      began + r.session.period ≤ time (r.paced w began).session.world := by
  have read : fair (w.readClock r.session.world).2 := (forward.keeps.readClock _).mpr fine
  obtain ⟨before, after⟩ := forward.readClock _ fine
  rcases Run.paced_cases waited with ⟨none, left⟩ | ⟨some, slept, left⟩
  · rw [left]
    exact ⟨read, by omega⟩
  · have later := forward.sleep _ _ read some (by omega) slept
    rw [left]
    exact ⟨(forward.keeps.sleep _ _).mpr read, by omega⟩

/-- A wait sleeps once at most, for a positive time of a period at most. -/
theorem World.AtWaits.paced (changes : w.AtWaits f g)
    (forward : w.Forward fair time r.session.period) (fine : fair r.session.world) {began : Int}
    (since : began ≤ time r.session.world) (waited : (r.pacing w began).answer = .ok ()) :
    f (r.paced w began).session.world = f r.session.world ∨
      ∃ nanos, 0 < nanos ∧ nanos ≤ r.session.period ∧
        f (r.paced w began).session.world = g nanos (f r.session.world) := by
  obtain ⟨before, -⟩ := forward.readClock _ fine
  rcases Run.paced_cases waited with ⟨-, left⟩ | ⟨some, slept, left⟩
  · rw [left]
    exact .inl (changes.readClock _)
  · refine .inr ⟨_, some, by omega, ?_⟩
    rw [left, changes.sleep _ _ slept, changes.readClock]

theorem World.Exact.paced (exact : w.Exact fair time r.session.period)
    (fine : fair r.session.world) {began : Int} (since : began ≤ time r.session.world)
    (waited : (r.pacing w began).answer = .ok ()) :
    time (r.paced w began).session.world =
      max (began + r.session.period) (time r.session.world) := by
  have read : fair (w.readClock r.session.world).2 := (exact.keeps.readClock _).mpr fine
  obtain ⟨reading, still⟩ := exact.read _ fine
  rcases Run.paced_cases waited with ⟨none, left⟩ | ⟨some, slept, left⟩
  · rw [left, still]
    omega
  · have later := exact.waits _ _ read some (by omega) slept
    rw [left, later, still]
    omega

/-! ## A turn -/

/-- A turn that does not end the run takes a period at least. -/
theorem World.Forward.turn (forward : w.Forward fair time period) (fine : fair r.session.world)
    (same : r.session.period = period) (went : (Run.turn w bounds).run r = .ok none r') :
    r'.session.period = period ∧ fair r'.session.world ∧
      r.reading w + period ≤ time r'.session.world := by
  obtain ⟨fine', since⟩ := forward.atWait fine bounds
  have same' : (r.atWait w bounds).session.period = period :=
    (r.period_atWait w bounds).trans same
  obtain ⟨-, waited, rfl⟩ := Run.worked_of_went went
  subst same'
  exact ⟨rfl, forward.paced fine' since waited⟩

/-- A turn that does not end the run sleeps once at most, for a positive time of a period at
most. -/
theorem World.AtWaits.turn (changes : w.AtWaits f g) (forward : w.Forward fair time period)
    (fine : fair r.session.world) (same : r.session.period = period)
    (went : (Run.turn w bounds).run r = .ok none r') :
    f r'.session.world = f r.session.world ∨
      ∃ nanos, 0 < nanos ∧ nanos ≤ period ∧
        f r'.session.world = g nanos (f r.session.world) := by
  obtain ⟨fine', since⟩ := forward.atWait fine bounds
  have same' : (r.atWait w bounds).session.period = period :=
    (r.period_atWait w bounds).trans same
  obtain ⟨-, waited, rfl⟩ := Run.worked_of_went went
  rw [← changes.atWait bounds r]
  subst same'
  exact changes.paced forward fine' since waited

/-- A turn that does not end the run takes a period, or the time of its work if that is longer. -/
theorem World.Exact.turn (exact : w.Exact fair time period) (fine : fair r.session.world)
    (same : r.session.period = period) (went : (Run.turn w bounds).run r = .ok none r') :
    time r'.session.world = r.reading w + max period (r.spent w bounds time) := by
  obtain ⟨fine', since⟩ := exact.atWait fine bounds
  have same' : (r.atWait w bounds).session.period = period :=
    (r.period_atWait w bounds).trans same
  obtain ⟨-, waited, rfl⟩ := Run.worked_of_went went
  rw [Run.spent]
  subst same'
  rw [exact.paced fine' since waited]
  omega

/-! ## A run -/

/-- The readings of the clock with which the turns of a run begin are a period apart. -/
theorem World.Forward.course (forward : w.Forward fair time period) (bounds : Bounds) (turns : Nat)
    (fine : fair r.session.world) (same : r.session.period = period) :
    (r.course w bounds turns).readings.IsChain (fun a b => a + period ≤ b) ∧
      ∀ a ∈ (r.course w bounds turns).readings.head?, time r.session.world ≤ a := by
  induction turns generalizing r with
  | zero => exact ⟨.nil, fun _ none => by cases none⟩
  | succ turns ih =>
    have reading : time r.session.world ≤ r.reading w := (forward.readClock _ fine).1
    unfold Run.course
    cases r.session.running with
    | false => exact ⟨.nil, fun _ none => by cases none⟩
    | true =>
      simp only [if_true]
      cases went : (Run.turn w bounds).run r with
      | error e r' => exact ⟨.singleton _, fun a first => by cases first; exact reading⟩
      | ok reason? r' =>
        cases reason? with
        | some reason => exact ⟨.singleton _, fun a first => by cases first; exact reading⟩
        | none =>
          obtain ⟨same', fine', later⟩ := forward.turn fine same went
          obtain ⟨chain, next⟩ := ih fine' same'
          refine ⟨chain.cons fun b first => Int.le_trans later (next b first), fun a first => ?_⟩
          cases first
          exact reading

/-- A run comes to its entry number `k` after `k` periods at the earliest. -/
theorem World.Forward.enters (forward : w.Forward fair time period)
    (entered : Run.Enters w bounds r₀ k asked r) (fine : fair r₀.session.world)
    (same : r₀.session.period = period) :
    r.session.period = period ∧ fair r.session.world ∧
      time r₀.session.world + k * period ≤ time r.session.world := by
  induction entered with
  | first => exact ⟨same, fine, by rw [Nat.cast_zero, zero_mul, add_zero]⟩
  | next entered went ih =>
    obtain ⟨same', fine', late⟩ := ih
    obtain ⟨next, fine'', later⟩ := forward.turn fine' same' went
    have reading := (forward.readClock _ fine').1
    refine ⟨next, fine'', ?_⟩
    rw [Nat.cast_succ, add_mul, one_mul]
    unfold Run.reading at later
    omega

/-- With work that takes no longer than a period, a run comes to its entry number `k` after exactly
`k` periods. -/
theorem World.Exact.time_enters (exact : w.Exact fair time period)
    (entered : Run.Enters w bounds r₀ k asked r) (fine : fair r₀.session.world)
    (same : r₀.session.period = period)
    (light : ∀ k r r', Run.Enters w bounds r₀ k false r → (Run.turn w bounds).run r = .ok none r' →
      r.spent w bounds time ≤ period) :
    time r.session.world = time r₀.session.world + k * period := by
  induction entered with
  | first => rw [Nat.cast_zero, zero_mul, add_zero]
  | @next k r r' entered went ih =>
    obtain ⟨same', fine', -⟩ := exact.enters entered fine same
    have short := light _ _ _ entered went
    have reading : r.reading w = time r.session.world := (exact.read _ fine').1
    rw [exact.turn fine' same' went, reading, ih, max_eq_left short, Nat.cast_succ, add_mul,
      one_mul, add_assoc]

/-! ## Stages -/

namespace Stage

/-- A wait of up to thirteen days takes exactly the time that it is asked for. -/
theorem sleepLength_eq {nanos : Int} (positive : 0 < nanos) (short : nanos ≤ 2 ^ 50) :
    sleepLength nanos = .ok nanos := by
  obtain ⟨n, rfl⟩ := Int.eq_ofNat_of_zero_le positive.le
  have second : ((nanosPerSecond.toNat : Nat) : Int) = nanosPerSecond := rfl
  obtain ⟨seconds, quotient, product⟩ := Number.round_div_mul (n := n) (d := nanosPerSecond.toNat)
    (by omega) (by omega) (by decide) (by decide)
  rw [second] at quotient product
  simp only [sleepLength, quotient, product, bind, Except.bind, Except.mapError]

/-- A stage is steady if reading its clock takes no time, and no stall turns the clock back. -/
structure Steady (s : Stage) : Prop where
  stride : s.stride = 0
  stalls : ∀ entry ∈ s.stalls, 0 ≤ entry.2

theorem steady_congr {s s' : Stage} (stride : s'.stride = s.stride)
    (stalls : s'.stalls = s.stalls) : s'.Steady = s.Steady :=
  propext ⟨fun steady => ⟨stride ▸ steady.stride, stalls ▸ steady.stalls⟩,
    fun steady => ⟨stride ▸ steady.stride, stalls ▸ steady.stalls⟩⟩

/-- The stalls of a stage are laid down once and for all. -/
theorem keepsStalls : world.AtPolls stalls id where
  readClock _ := rfl
  sleep := sleep_keeps fun _ _ _ => rfl
  poll _ _ := rfl
  present _ _ := rfl
  startBeep _ := rfl
  stopBeep _ := rfl

theorem keepsSteady : world.AtPolls Steady id where
  readClock _ := steady_congr rfl rfl
  sleep := sleep_keeps fun _ _ _ => steady_congr rfl rfl
  poll _ _ := steady_congr rfl rfl
  present _ _ := steady_congr rfl rfl
  startBeep _ := steady_congr rfl rfl
  stopBeep _ := steady_congr rfl rfl

/-- The stall at a poll is one that was laid down, or none. -/
theorem stallAt_cases (s : Stage) (poll : Int) :
    s.stallAt poll = 0 ∨ ∃ entry ∈ s.stalls, s.stallAt poll = entry.2 := by
  unfold stallAt
  split
  case h_1 entry found =>
    exact .inr ⟨entry, List.mem_reverse.mp (List.mem_of_find?_eq_some found), rfl⟩
  case h_2 => exact .inl rfl

theorem Steady.stallAt_nonneg {s : Stage} (steady : s.Steady) (poll : Int) :
    0 ≤ s.stallAt poll := by
  obtain none | ⟨entry, laid, stall⟩ := s.stallAt_cases poll
  · exact none.ge
  · rw [stall]
    exact steady.stalls entry laid

/-- A wait that is not too long takes as long as it is asked to. -/
theorem clock_sleep {nanos : Int} {s : Stage} (positive : 0 < nanos) (short : nanos ≤ 2 ^ 50)
    (slept : (world.sleep nanos s).answer = .ok ()) :
    clock (world.sleep nanos s).world = s.clock + nanos := by
  obtain ⟨length, waits, moved⟩ := sleep_of_ok slept
  have asked := sleepLength_of_waitLength waits
  rw [sleepLength_eq positive short] at asked
  cases asked
  exact congrArg clock moved

/-- **The clock of a steady stage moves by work and by waits alone.** -/
theorem exact (short : period ≤ 2 ^ 50) : world.Exact Steady clock period where
  keeps := keepsSteady
  readClock s steady := ⟨le_rfl, Int.le_add_of_nonneg_right steady.stride.ge⟩
  sleep nanos s _ positive most slept := (clock_sleep positive (most.trans short) slept).ge
  poll m s steady := Int.le_add_of_nonneg_right (steady.stallAt_nonneg _)
  present _ _ _ := le_rfl
  startBeep _ _ := le_rfl
  stopBeep _ _ := le_rfl
  read s steady := by
    have read : clock (world.readClock s).2 = s.clock + s.stride := rfl
    rw [read, steady.stride, Int.add_zero]
    exact ⟨rfl, rfl⟩
  waits nanos s _ positive most slept := clock_sleep positive (most.trans short) slept

theorem spent_eq {r r' : Run Stage} (went : (Run.turn world bounds).run r = .ok none r') :
    r.spent world bounds clock =
      r.session.world.stride + r.session.world.stallAt r.session.world.notes.size := by
  obtain ⟨journal, served⟩ := Run.atWait_of_went went
  have reading : r.reading world = r.session.world.clock := rfl
  rw [Run.spent, served, Run.clock_served, reading]
  omega

/-- The work of a turn takes no longer than a period if no stall does. -/
theorem spent_le {r r' : Run Stage} (steady : r.session.world.Steady) (lasts : 0 ≤ period)
    (short : ∀ entry ∈ r.session.world.stalls, entry.2 ≤ period)
    (went : (Run.turn world bounds).run r = .ok none r') : r.spent world bounds clock ≤ period := by
  rw [spent_eq went, steady.stride, Int.zero_add]
  obtain none | ⟨entry, laid, stall⟩ := r.session.world.stallAt_cases r.session.world.notes.size
  · rw [none]
    exact lasts
  · rw [stall]
    exact short entry laid

/-- The waits that a stage notes are what waits alone change. -/
theorem notesSleeps :
    world.AtWaits sleeps fun nanos before =>
      before ++ (sleepLength nanos).toOption.toArray where
  readClock _ := rfl
  sleep nanos s slept := by
    obtain ⟨length, waits, moved⟩ := sleep_of_ok slept
    rw [sleepLength_of_waitLength waits]
    exact congrArg sleeps moved
  poll _ _ := rfl
  present _ _ := rfl
  startBeep _ := rfl
  stopBeep _ := rfl

end Stage

/-! ## The number of steps -/

/-- A turn that goes on after its first part has begun before the time of the run is over. -/
theorem Run.passed_lt (within : limitReached bounds (r.entered w) (r.reading w) = none)
    {nanos : Int} (limit : bounds.nanos = some nanos) : r.reading w - r.start < nanos := by
  have start : (r.entered w).start = r.start := rfl
  unfold limitReached at within
  rw [limit, start, Option.any_some] at within
  split at within
  case isTrue => cases within
  case isFalse early => simpa using early

/-- A run that is ended by its time has used it up. -/
theorem StopReason.le_of_first? {passed nanos : Int} {quits : Bool}
    (ends : first? bounds asked passed k quits = some .maxSeconds)
    (limit : bounds.nanos = some nanos) : nanos ≤ passed := by
  unfold first? at ends
  rw [limit, Option.any_some] at ends
  by_cases enough : nanos ≤ passed
  · exact enough
  · simp only [enough, decide_false, Bool.false_eq_true, if_false] at ends
    repeat' split at ends
    all_goals cases ends

namespace Session

variable {s s' : Session σ} {turns : Nat} {steps : Option Int} {seconds : Number} {nanos : Int}

theorem runFor_eq_run (limit : nanosOfSeconds seconds = .ok nanos) :
    s.runFor w steps (some seconds) turns = s.run w ⟨steps, some nanos⟩ turns := by
  have whole : (some seconds).mapM nanosOfSeconds = .ok (some nanos) := by
    rw [Option.mapM_some, limit]
    rfl
  rw [runFor, whole]

/-- The entries at which a paced run goes on: as many as periods begin in the time that it is
given. -/
theorem lt_of_forward (forward : w.Forward fair time s.period) (fine : fair s.world)
    (positive : 1 ≤ s.period) (limit : bounds.nanos = some nanos)
    (entered : Run.Enters w bounds (s.begun w) k false r)
    (within : Run.limitReached bounds (r.entered w) (r.reading w) = none) :
    k < ⌈(nanos : ℚ) / s.period⌉₊ := by
  have fine₀ : fair (s.begun w).session.world := (forward.keeps.readClock _).mpr fine
  obtain ⟨-, fine', late⟩ := forward.enters entered fine₀ rfl
  have began : (s.begun w).start ≤ time (s.begun w).session.world := (forward.readClock _ fine).2
  have reading : time r.session.world ≤ r.reading w := (forward.readClock _ fine').1
  have early := Run.passed_lt within limit
  rw [entered.tally.start] at early
  have passed : k * s.period < nanos := by omega
  have unit : (0 : ℚ) < s.period := by exact_mod_cast positive
  rw [Nat.lt_ceil, lt_div_iff₀ unit]
  exact_mod_cast passed

/-- A run whose work takes no longer than a period, and which its time has ended, was at the entry
at which its periods are used up. -/
theorem eq_of_exact (exact : w.Exact fair time s.period) (fine : fair s.world)
    (positive : 1 ≤ s.period) (limit : bounds.nanos = some nanos)
    (light : ∀ k r r', Run.Enters w bounds (s.begun w) k false r →
      (Run.turn w bounds).run r = .ok none r' → r.spent w bounds time ≤ s.period)
    (endsAt : (s.begun w).EndsAt w bounds k .maxSeconds) : k = ⌈(nanos : ℚ) / s.period⌉₊ := by
  obtain ⟨asked, r, entered, holds⟩ := endsAt.holds
  have few := entered.le_of_below fun _ _ entered within =>
    lt_of_forward exact.toForward fine positive limit entered within
  have fine₀ : fair (s.begun w).session.world := (exact.keeps.readClock _).mpr fine
  obtain ⟨-, fine', -⟩ := exact.enters entered fine₀ rfl
  have late := exact.time_enters entered fine₀ rfl light
  have reading : r.reading w = time r.session.world := (exact.read _ fine').1
  have began : (s.begun w).start = time (s.begun w).session.world := by
    obtain ⟨read, still⟩ := exact.read _ fine
    exact read.trans still.symm
  have enough := StopReason.le_of_first? holds limit
  have passed : nanos ≤ k * s.period := by omega
  refine Nat.le_antisymm few (Nat.ceil_le.mpr ?_)
  have unit : (0 : ℚ) < s.period := by exact_mod_cast positive
  rw [div_le_iff₀ unit]
  exact_mod_cast passed

/-- **Instructions are paced.** A session has a period of one nanosecond or more, and a world whose
clock never goes back, where a wait takes at least the time that is asked for. Then the readings of
the clock with which the turns of a run begin are a period apart, whatever its host does, and each
turn that does not end the run sleeps once at most, for a positive time of a period at most. A run
that is given a length of time comes to its end, and has carried out no more instructions than
periods begin in it, however it ends.

If the clock moves by work and by waits alone, the next reading comes a period after the last, or
the time of the work if that is longer. With work that is never longer than a period, a run that
nothing but its time has ended has made all the steps that this allows. -/
theorem instructions_are_paced {w : World σ} {s : Session σ} {fair : σ → Prop} {time : σ → Int}
    (forward : w.Forward fair time s.period) (fine : fair s.world) (positive : 1 ≤ s.period) :
    (∀ bounds turns, (s.course w bounds turns).readings.IsChain fun a b => a + s.period ≤ b) ∧
    (∀ bounds k r r', Run.Enters w bounds (s.begun w) k false r →
      (Run.turn w bounds).run r = .ok none r' →
      (∀ (α : Type) (f : σ → α) (g : Int → α → α), w.AtWaits f g →
        f r'.session.world = f r.session.world ∨
          ∃ nanos, 0 < nanos ∧ nanos ≤ s.period ∧
            f r'.session.world = g nanos (f r.session.world)) ∧
      (w.Exact fair time s.period → 0 ≤ r.spent w bounds time ∧
        r'.reading w = r.reading w + max s.period (r.spent w bounds time))) ∧
    ∀ seconds nanos, nanosOfSeconds seconds = .ok nanos → ∀ steps turns,
      (⌈(nanos : ℚ) / s.period⌉₊ < turns → (s.runFor w steps (some seconds) turns).isSome) ∧
      ∀ answer s', s.runFor w steps (some seconds) turns = some (answer, s') →
        s'.machine.executed ≤ s.machine.executed + ⌈(nanos : ℚ) / s.period⌉₊ ∧
        ∀ stats, answer = .ok stats →
          stats.counts.steps ≤ ⌈(nanos : ℚ) / s.period⌉₊ ∧
          (w.Exact fair time s.period →
            (∀ k r r', Run.Enters w ⟨steps, some nanos⟩ (s.begun w) k false r →
              (Run.turn w ⟨steps, some nanos⟩).run r = .ok none r' →
              r.spent w ⟨steps, some nanos⟩ time ≤ s.period) →
            stats.reason = .maxSeconds →
            stats.counts.steps = ⌈(nanos : ℚ) / s.period⌉₊) := by
  have fine₀ : fair (s.begun w).session.world := (forward.keeps.readClock _).mpr fine
  refine ⟨fun bounds turns => (forward.course bounds turns fine₀ rfl).1, ?_, ?_⟩
  · intro bounds k r r' entered went
    obtain ⟨same, fine', -⟩ := forward.enters entered fine₀ rfl
    refine ⟨fun α f g changes => changes.turn forward fine' same went, fun exact => ?_⟩
    have since := (forward.atWait fine' bounds).2
    obtain ⟨-, fine'', -⟩ := forward.turn fine' same went
    have reading : r'.reading w = time r'.session.world := (exact.read _ fine'').1
    exact ⟨Int.sub_nonneg_of_le since, reading.trans (exact.turn fine' same went)⟩
  · intro seconds nanos limit steps turns
    have below (k : Nat) (r : Run σ)
        (entered : Run.Enters w ⟨steps, some nanos⟩ (s.begun w) k false r)
        (within : Run.limitReached ⟨steps, some nanos⟩ (r.entered w) (r.reading w) = none) :
        k < ⌈(nanos : ℚ) / s.period⌉₊ :=
      lt_of_forward forward fine positive rfl entered within
    rw [runFor_eq_run limit]
    refine ⟨fun enough => isSome_run_of_below enough below, fun answer s' finished => ?_⟩
    refine ⟨executed_le_of_below below finished, ?_⟩
    rintro stats rfl
    obtain ⟨k, asked, r, r', journal, entered, last, endsAt, counted, -⟩ := ends_of_run finished
    have made : stats.counts.steps = k := by
      rw [counted, (last.tally entered.tally).steps]
      exact Nat.zero_add k
    rw [made]
    refine ⟨entered.le_of_below below, fun exact light reason => ?_⟩
    rw [reason] at endsAt
    exact eq_of_exact exact fine positive rfl light endsAt

/-- A session on a stage. Its second turn works for a millisecond and its third for a period. Its
program jumps to its own beginning for ever. -/
def laden : Session Stage :=
  { brief with
    world :=
      { Stage.make
          (.headless ⟨⟨none, FrameRecorder.standardZoom, 0, 0, none⟩, .make [] none, .silent⟩)
          .empty with
        stalls := [(1, 1000000), (2, 2000000)] } }

/-- In seven milliseconds, the laden session makes four steps, and its first turn sleeps once. -/
theorem instructions_are_paced_laden :
    Stage.world.Exact Stage.Steady Stage.clock laden.period ∧ laden.world.Steady ∧
    1 ≤ laden.period ∧
    (laden.course Stage.world ⟨none, some 7000000⟩ 9).readings.IsChain
      (fun a b => a + laden.period ≤ b) ∧
    (∃ r', (Run.turn Stage.world ⟨none, some 7000000⟩).run (laden.begun Stage.world) =
        .ok none r' ∧
      r'.reading Stage.world = laden.period ∧
      ∃ nanos, 0 < nanos ∧ nanos ≤ laden.period ∧
        r'.session.world.sleeps = #[nanos]) ∧
    ∃ stats s', laden.runFor Stage.world none (some (.real (.ofRatio false 7 1000))) 9 =
      some (.ok stats, s') ∧ stats.reason = .maxSeconds ∧ stats.counts.steps = 4 := by
  have exact : Stage.world.Exact Stage.Steady Stage.clock laden.period :=
    Stage.exact (by decide)
  have steady : laden.world.Steady := ⟨rfl, by decide⟩
  obtain ⟨apart, turns, ends⟩ :=
    instructions_are_paced exact.toForward steady (by decide : 1 ≤ laden.period)
  have short : ∀ entry ∈ laden.world.stalls, entry.2 ≤ laden.period := by decide
  have light (k : Nat) (r r' : Run Stage)
      (entered : Run.Enters Stage.world ⟨none, some 7000000⟩ (laden.begun Stage.world) k false r)
      (went : (Run.turn Stage.world ⟨none, some 7000000⟩).run r = .ok none r') :
      r.spent Stage.world ⟨none, some 7000000⟩ Stage.clock ≤ laden.period := by
    have laid : r.session.world.stalls = laden.world.stalls := entered.kept Stage.keepsStalls
    exact Stage.spent_le ((entered.kept exact.keeps).mpr steady) (by decide) (laid ▸ short) went
  refine ⟨exact, steady, by decide, apart _ _, ?_, ?_⟩
  · have goes : (Run.goesOn? ((Run.turn Stage.world ⟨none, some 7000000⟩).run
        (laden.begun Stage.world))).map (·.session.world.sleeps.size) = some 1 := by
      decide +kernel
    obtain ⟨r', left, changed⟩ := Option.map_eq_some_iff.mp goes
    have went := Run.goesOn?_eq_some_iff.mp left
    obtain ⟨sleeps, moves⟩ := turns _ 0 _ r' .first went
    obtain ⟨-, later⟩ := moves exact
    rw [max_eq_left (light 0 _ r' .first went)] at later
    refine ⟨r', went, later.trans (zero_add _), ?_⟩
    obtain same | ⟨nanos, positive, most, slept⟩ := sleeps _ _ _ Stage.notesSleeps
    · exact absurd (same ▸ changed) (by decide)
    · refine ⟨nanos, positive, most, slept.trans ?_⟩
      rw [Stage.sleepLength_eq positive (most.trans (by decide))]
      rfl
  · have limit : nanosOfSeconds (.real (.ofRatio false 7 1000)) = .ok 7000000 := by
      decide +kernel
    have reason : ((laden.runFor Stage.world none (some (.real (.ofRatio false 7 1000))) 9).map
        fun result => result.1.toOption.map RunStats.reason) = some (some .maxSeconds) := by
      decide +kernel
    obtain ⟨⟨answer, s'⟩, finished, reported⟩ := Option.map_eq_some_iff.mp reason
    cases answer with
    | error e => cases reported
    | ok stats =>
      have reason : stats.reason = .maxSeconds := Option.some.inj reported
      obtain ⟨-, exactly⟩ := ((ends _ _ limit none 9).2 _ s' finished).2 stats rfl
      have period : laden.period = 2000000 := rfl
      refine ⟨stats, s', finished, reason, ?_⟩
      rw [exactly exact light reason, period, Nat.ceil_eq_iff (by decide)]
      norm_num

end Session

end

end ChipEight
