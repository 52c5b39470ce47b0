import ChipEight.Proofs.Config.Validity
import ChipEight.Proofs.Machine.WellFormed
import ChipEight.Proofs.Session.Accumulator
import ChipEight.Session.Basic

/-!
# Starting with valid settings

Valid settings leave the frequency any positive number below a bound, however small it is. A session
needs the period that belongs to it as an integer of nanoseconds, and a period that overflows the
binary numbers has none. `slowestHertz` is the frequency at which this begins. From settings that
were accepted a machine is always built, and a session is made for it exactly above that frequency
(`accepted_settings_start`).

The length of a run in seconds has no such check at all; `nanosOfSeconds_eq_error_iff` says which
lengths cannot be used.
-/

namespace ChipEight.Session

open Binary64 (overflowBound integerBound)

/-- Frequencies from here down have a period that overflows. -/
def slowestHertz : ℚ := nanosPerSecond / overflowBound

variable {h : Number}

/-- The nanoseconds of a second as a binary number. -/
theorem exists_second :
    ∃ m e, (Number.int nanosPerSecond).toBinary64 = .ok (.finite false m e) ∧ 0 < m ∧
      (m : ℚ) * 2 ^ e = nanosPerSecond :=
  Number.toBinary64_of_pos (x := .int nanosPerSecond) trivial
    (by norm_num [Number.value, nanosPerSecond]) (by norm_num [Number.value, nanosPerSecond])

/-- The quotient of a second and a frequency is a rounded ratio. -/
theorem exists_period (finite : h.IsFinite) (positive : 0 < h.value)
    (small : h.value < (2 ^ 53 : Nat)) :
    ∃ x, ∃ a b : Nat, h.toBinary64 = .ok x ∧ 0 < b ∧ (a : ℚ) / b = nanosPerSecond / h.value ∧
      Number.div (.int nanosPerSecond) (.real x) = .ok (.ofRatio false a b) := by
  obtain ⟨m, e, second, -, left⟩ := exists_second
  obtain ⟨n, f, answer, divisor, right⟩ := Number.toBinary64_of_pos finite positive small
  obtain ⟨a, b, bottom, ratio, quotient⟩ := Binary64.exists_div false false m e f divisor
  refine ⟨.finite false n f, a, b, answer, bottom, ?_, ?_⟩
  · rw [ratio, left, right]
  · exact Number.div_real second quotient

/-- **A frequency has a period exactly above the slowest one.** -/
theorem timing_cases (finite : h.IsFinite) (positive : 0 < h.value)
    (fast : h.value < Draft.hertzBound) :
    (slowestHertz < h.value ∧ ∃ x period, timing h = .ok (x, period) ∧ 1 ≤ period ∧
      period.natAbs ≤ integerBound) ∨
    h.value ≤ slowestHertz ∧ timing h = .error (.number .outOfRange) := by
  have small : h.value < (2 ^ 53 : Nat) := lt_trans fast (by norm_num [Draft.hertzBound])
  obtain ⟨x, a, b, binary, bottom, ratio, quotient⟩ := exists_period finite positive small
  have above : h.le (.int 0) = false := by
    rw [← Bool.not_eq_true, Number.le_iff finite (Number.isFinite_int 0)]
    exact not_le.mpr (by exact_mod_cast positive)
  have timed : timing h =
      match (Binary64.ofRatio false a b).round with
      | .ok period => .ok (x, period)
      | .error e => .error (.number (.ofNoInteger e)) := by
    simp only [timing, above, Bool.false_eq_true, if_false, binary, Except.mapError, bind,
      Except.bind, pure, Except.pure, quotient]
    cases (Binary64.ofRatio false a b).round <;> rfl
  have slow : overflowBound ≤ (a : ℚ) / b ↔ h.value ≤ slowestHertz := by
    rw [ratio, slowestHertz, le_div_iff₀ positive, le_div_iff₀ Binary64.overflowBound_pos,
      mul_comm]
  rw [timed]
  rcases le_or_gt overflowBound ((a : ℚ) / b) with overflows | fits
  · right
    rw [Binary64.ofRatio_eq_infinite false bottom overflows]
    exact ⟨slow.mp overflows, rfl⟩
  · left
    refine ⟨not_le.mp (mt slow.mpr (not_le.mpr fits)), ?_⟩
    have long : (1 : ℚ) ≤ a / b := by
      rw [ratio, one_le_div positive]
      exact le_trans fast.le (by norm_num [Draft.hertzBound, nanosPerSecond])
    obtain ⟨period, rounded, least, most⟩ := Binary64.one_le_round bottom long fits
    rw [rounded]
    exact ⟨x, period, rfl, least, most⟩

variable {σ : Type} {c : Config}

/-- The timers of a session with these settings. -/
def timers (c : Config) : TickAccumulator := ⟨c.timerHertz, c.maxCatchup * nanosPerMilli, 0⟩

theorem timers_make (valid : c.Valid) :
    TickAccumulator.make (.int c.timerHertz) (.int c.maxCatchup) = .ok (timers c) :=
  TickAccumulator.make_int valid.timerHertz c.maxCatchup

/-- A session has the period of its frequency. -/
theorem make_eq_ok {x : Binary64} {period : Int} (valid : c.Valid)
    (timed : timing c.hertz = .ok (x, period)) (m : Monitored) (world : σ) :
    make m c.hertz (.int c.timerHertz) (.int c.maxCatchup) world =
      .ok ⟨m, timers c, x, period, false, false, world⟩ := by
  simp only [make, timed, timers_make valid, bind, Except.bind, pure, Except.pure]

/-- There is no session without a period. -/
theorem make_eq_error {e : Fault} (timed : timing c.hertz = .error e) (m : Monitored) (world : σ) :
    make m c.hertz (.int c.timerHertz) (.int c.maxCatchup) world = .error e := by
  simp only [make, timed, bind, Except.bind]

/-- **A session with valid settings is made exactly above the slowest frequency.** -/
theorem make_cases (valid : c.Valid) (m : Monitored) (world : σ) :
    (slowestHertz < c.hertz.value ∧ ∃ x period, timing c.hertz = .ok (x, period) ∧
      make m c.hertz (.int c.timerHertz) (.int c.maxCatchup) world =
        .ok ⟨m, timers c, x, period, false, false, world⟩ ∧
      1 ≤ period ∧ period.natAbs ≤ integerBound) ∨
    c.hertz.value ≤ slowestHertz ∧
      make m c.hertz (.int c.timerHertz) (.int c.maxCatchup) world =
        .error (.number .outOfRange) := by
  obtain ⟨positive, fast⟩ := valid.hertz
  rcases timing_cases valid.finite positive fast with ⟨above, x, period, timed, least, most⟩ |
    ⟨below, overflows⟩
  · exact .inl ⟨above, x, period, timed, make_eq_ok valid timed m world, least, most⟩
  · exact .inr ⟨below, make_eq_error overflows m world⟩

/-- **What becomes of settings that were accepted.** A machine is built. A session is made for it
exactly if the frequency is above the slowest one; its period is a nanosecond at least, its timers
have the frequency of the settings, which is positive, and so is the length of time that counts for
them. At or below the slowest frequency there is no period. -/
theorem accepted_settings_start {d : Draft} (accepted : d.check = .ok c) (random : RandomSource)
    (journal : Journal) (world : σ) :
    ∃ m, Machine.standard c.stackLimit random = .ok m ∧
      match make ⟨m, c.debug, journal⟩ c.hertz (.int c.timerHertz) (.int c.maxCatchup) world with
      | .ok s =>
        slowestHertz < c.hertz.value ∧ 1 ≤ s.period ∧
          s.ticker.hertz = c.timerHertz ∧ 0 < s.ticker.hertz ∧ 0 < s.ticker.cap
      | .error e => c.hertz.value ≤ slowestHertz ∧ e = .number .outOfRange := by
  have valid := Draft.valid_of_check accepted
  refine ⟨_, Machine.standard_eq valid.stackLimit random, ?_⟩
  rcases make_cases valid ⟨_, c.debug, journal⟩ world with ⟨above, x, period, -, made, least, -⟩ |
    ⟨below, failed⟩
  · rw [made]
    exact ⟨above, least, rfl, valid.timerHertz, Int.mul_pos valid.maxCatchup (by decide)⟩
  · rw [failed]
    exact ⟨below, rfl⟩

/-- The usual settings, but for the frequency. -/
def standardAt (x : Binary64) : Config := { Config.standard with hertz := .real x }

/-- Any positive frequency below the bound is accepted. -/
theorem check_standardAt {x : Binary64}
    (between : (Number.lt (.int 0) (.real x) &&
      Number.lt (.real x) (.int Draft.hertzBound)) = true) :
    (standardAt x).toDraft.check = .ok (standardAt x) := by
  obtain ⟨finite, low, high⟩ := (Number.between_iff 0 Draft.hertzBound).mp between
  refine Draft.checkRanges_eq_ok_iff.mpr ⟨rfl, ?_⟩
  exact { Config.standard_valid with finite := finite, hertz := ⟨by exact_mod_cast low, high⟩ }

/-- At `2 ^ -994` instructions a second, a session is made. -/
theorem accepted_settings_start_slowly :
    let c := standardAt (.finite false (2 ^ 52) (-1046))
    c.toDraft.check = .ok c ∧ ∃ m s, Machine.standard c.stackLimit (.cycling #[]) = .ok m ∧
      make ⟨m, c.debug, .empty⟩ c.hertz (.int c.timerHertz) (.int c.maxCatchup) () = .ok s ∧
      1 ≤ s.period ∧ 0 < s.ticker.hertz ∧ 0 < s.ticker.cap := by
  intro c
  have accepted : c.toDraft.check = .ok c := check_standardAt (by decide +kernel)
  have timed : timing c.hertz =
      .ok (.finite false (2 ^ 52) (-1046), nanosPerSecond * 2 ^ 994) := by decide +kernel
  have made (m : Machine) :=
    make_eq_ok (Draft.valid_of_check accepted) timed ⟨m, c.debug, .empty⟩ ()
  have starts := accepted_settings_start accepted (.cycling #[]) .empty ()
  simp only [made] at starts
  obtain ⟨m, built, -, least, -, timer, cap⟩ := starts
  exact ⟨accepted, m, _, built, made m, least, timer, cap⟩

/-- **Settings that are accepted and do not start**: the usual ones at 1e-300 instructions a
second. -/
theorem accepted_settings_fail :
    let c := standardAt (.finite false 6032057205060441 (-1049))
    c.toDraft.check = .ok c ∧ ∃ m, Machine.standard c.stackLimit (.cycling #[]) = .ok m ∧
      make ⟨m, c.debug, .empty⟩ c.hertz (.int c.timerHertz) (.int c.maxCatchup) () =
        .error (.number .outOfRange) := by
  intro c
  refine ⟨check_standardAt (by decide +kernel), _, rfl, make_eq_error ?_ _ _⟩
  decide +kernel

/-! ## The length of a run -/

/-- Seconds are multiplied and lose their fraction. -/
theorem nanosOfSeconds_real (x : Binary64) {second : Binary64}
    (binary : (Number.int nanosPerSecond).toBinary64 = .ok second) :
    nanosOfSeconds (.real x) =
      (x.mul second).truncate.mapError fun cause => .number (.ofNoInteger cause) := by
  simp only [nanosOfSeconds, Number.mul_int binary, bind, Except.bind, Except.mapError,
    Number.truncate]
  cases (x.mul second).truncate <;> rfl

/-- What can be brought to nanoseconds has 1024 bits at most. -/
theorem nanosOfSeconds_bounds {x : Binary64} {nanos : Int}
    (brought : nanosOfSeconds (.real x) = .ok nanos) : nanos.natAbs ≤ integerBound := by
  obtain ⟨n, f, second, -⟩ := exists_second
  rw [nanosOfSeconds_real x second] at brought
  cases whole : (x.mul (.finite false n f)).truncate with
  | ok n =>
    rw [whole] at brought
    cases brought
    exact Binary64.truncate_bounds (Binary64.mul_canonical ..) whole
  | error cause =>
    rw [whole] at brought
    cases brought

/-- **Seconds that cannot be brought to nanoseconds** are no number, or they overflow. -/
theorem nanosOfSeconds_eq_error_iff {x : Binary64} {e : Fault} :
    nanosOfSeconds (.real x) = .error e ↔
      x = .nan ∧ e = .number .notANumber ∨
      (x.isInfinite = true ∨ overflowBound ≤ |x.value| * nanosPerSecond) ∧
        e = .number .outOfRange := by
  obtain ⟨n, f, second, factor, size⟩ := exists_second
  have cause : nanosOfSeconds (.real x) = .error e ↔
      ∃ cause, (x.mul (.finite false n f)).truncate = .error cause ∧
        e = .number (.ofNoInteger cause) := by
    rw [nanosOfSeconds_real x second]
    cases (x.mul (.finite false n f)).truncate <;> simp [Except.mapError, eq_comm]
  rw [cause, ← size, ← Binary64.isInfinite_mul_iff (t := false) factor,
    ← Binary64.mul_eq_nan_iff (t := false) (f := f) factor]
  simp only [Binary64.truncate_eq_error_iff]
  constructor
  · rintro ⟨_, ⟨undefined, rfl⟩ | ⟨infinite, rfl⟩, rfl⟩
    · exact .inl ⟨undefined, rfl⟩
    · exact .inr ⟨infinite, rfl⟩
  · rintro (⟨undefined, rfl⟩ | ⟨infinite, rfl⟩)
    · exact ⟨.notANumber, .inl ⟨undefined, rfl⟩, rfl⟩
    · exact ⟨.infinite, .inr ⟨infinite, rfl⟩, rfl⟩

/-- The length of a run, if one is given and can be brought to nanoseconds. -/
theorem nanos_cases (maxSeconds : Option Binary64) :
    match (maxSeconds.map Number.real).mapM nanosOfSeconds with
    | .ok nanos => ∀ n ∈ nanos, n.natAbs ≤ integerBound
    | .error e => ∃ x ∈ maxSeconds, nanosOfSeconds (.real x) = .error e := by
  cases maxSeconds with
  | none => exact fun n among => nomatch among
  | some x =>
    cases brought : nanosOfSeconds (.real x) with
    | error e =>
      simp only [Option.map_some, Option.mapM_some, brought]
      exact ⟨x, rfl, brought⟩
    | ok nanos =>
      simp only [Option.map_some, Option.mapM_some, brought]
      intro n among
      cases among
      exact nanosOfSeconds_bounds brought

end ChipEight.Session
