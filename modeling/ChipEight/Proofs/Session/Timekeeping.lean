import ChipEight.Proofs.Machine.Untimed
import ChipEight.Proofs.Session.Accumulator
import ChipEight.Proofs.Session.Refinement
import ChipEight.Proofs.Session.Trail
import Mathlib.Algebra.Order.Ring.Nat

/-!
# Timekeeping

How often the timers tick in a run. `countedTime` is the time between readings of a clock as far as
it counts: a stretch below zero counts as none, and one above the cap as the cap. The remainder that
the accumulator keeps from one stretch to the next makes up for the division of each, so the ticks
of all stretches together are the time that counts, times the frequency, rounded down once
(`TickAccumulator.sum_dues`).

`ticks_are_counted_time` says so of whole runs. It holds whatever the program does and however fast
it is carried out; a timer that the program never sets is left at what the ticks leave of it.
-/

namespace ChipEight

/-- The time between the readings of a clock, as far as it counts. -/
def countedTime (cap last : Int) : List Int → Int
  | [] => 0
  | now :: rest => max 0 (min (now - last) cap) + countedTime cap now rest

/-- A clock that never goes back and makes no jump above the cap is counted in full. -/
theorem countedTime_of_isChain {cap last : Int} {readings : List Int}
    (steady : (last :: readings).IsChain fun a b => a ≤ b ∧ b - a ≤ cap) :
    countedTime cap last readings = readings.getLastD last - last := by
  induction readings generalizing last with
  | nil => exact (Int.sub_self last).symm
  | cons now rest ih =>
    obtain ⟨⟨forward, short⟩, steady⟩ := List.isChain_cons_cons.mp steady
    rw [countedTime, ih steady, List.getLastD_cons]
    omega

namespace TickAccumulator

/-- **Nothing is lost between stretches of time**: the ticks of all of them are those of their sum.
What one division leaves over goes into the next. -/
theorem sum_dues {a : TickAccumulator} (sound : a.Sound) (last : Int) (readings : List Int) :
    ((a.dues last readings).sum : Int) =
      (a.remainder + a.hertz * countedTime a.cap last readings) / nanosPerSecond := by
  have second : (nanosPerSecond : Int) ≠ 0 := by decide
  induction readings generalizing a last with
  | nil =>
    rw [countedTime, Int.mul_zero, Int.add_zero,
      Int.ediv_eq_zero_of_lt sound.remainder_nonneg sound.remainder_lt]
    rfl
  | cons now rest ih =>
    obtain ⟨due, advanced⟩ := sound.advance (now - last)
    have total : (a.advance (now - last)).1 * nanosPerSecond +
        (a.advance (now - last)).2.remainder =
          a.remainder + a.hertz * max 0 (min (now - last) a.cap) := by
      rw [advance_conserves, ← clamp_eq_counted, clamp]
    have hertz : (a.advance (now - last)).2.hertz = a.hertz := rfl
    have cap : (a.advance (now - last)).2.cap = a.cap := rfl
    calc (((a.dues last (now :: rest)).sum : Nat) : Int)
        = (a.advance (now - last)).1 + ((a.advance (now - last)).2.dues now rest).sum := by
          rw [dues, List.sum_cons, Int.natCast_add, Int.toNat_of_nonneg due]
      _ = ((a.advance (now - last)).1 * nanosPerSecond +
            ((a.advance (now - last)).2.remainder + a.hertz * countedTime a.cap now rest)) /
              nanosPerSecond := by
          rw [ih advanced, hertz, cap, Int.add_comm (_ * nanosPerSecond),
            Int.add_mul_ediv_right _ _ second, Int.add_comm]
      _ = (a.remainder + a.hertz * countedTime a.cap last (now :: rest)) / nanosPerSecond := by
          rw [← Int.add_assoc, total, countedTime, Int.mul_add, Int.add_assoc]

theorem dues_take (a : TickAccumulator) (last : Int) (readings : List Int) (k : Nat) :
    a.dues last (readings.take k) = (a.dues last readings).take k := by
  induction readings generalizing a last k with
  | nil => simp only [List.take_nil, dues]
  | cons now rest ih =>
    cases k with
    | zero => rfl
    | succ k => exact congrArg (_ :: ·) (ih _ now k)

end TickAccumulator

/-! ## Trails -/

namespace Run

variable {σ : Type} {w : World σ} {bounds : Bounds} {r₀ r r' : Run σ} {readings : List Int}
  {instructions : List Instruction}

/-- Along a trail, the ticks that are counted are those that are due at the readings. -/
theorem Trail.ticks (trail : Trail w bounds r readings instructions r')
    (sound : r.session.ticker.Sound) :
    r'.counts.ticks = r.counts.ticks + (r.session.ticker.dues r.last readings).sum := by
  induction trail with
  | halt r => exact (Int.add_zero _).symm
  | @turn r r' readings instructions result turned rest ih =>
    obtain ⟨ticker, last, ticks⟩ := turned.clock
    obtain ⟨due, advanced⟩ := sound.advance (r.reading w - r.last)
    have entered : (r.entered w).session.ticker =
        (r.session.ticker.advance (r.reading w - r.last)).2 := rfl
    have counted : (r.entered w).counts.ticks =
        r.counts.ticks + (r.session.ticker.advance (r.reading w - r.last)).1 := rfl
    rw [ticker, last, ticks, entered] at ih
    rw [ih advanced, counted, TickAccumulator.dues, List.sum_cons, Int.natCast_add,
      Int.toNat_of_nonneg due, Int.add_assoc]

/-- Along a trail on which a timer is not set, it is left at what the ticks leave of it. -/
theorem Trail.timer (trail : Trail w bounds r readings instructions r') (timer : Timer)
    (nonneg : 0 ≤ timer.value r.session.machine.timers)
    (unset : ∀ x, timer.setter x ∉ instructions) :
    timer.value r'.session.machine.timers =
      max 0 (timer.value r.session.machine.timers -
        (r.session.ticker.dues r.last readings).sum) := by
  induction trail with
  | halt r =>
    have none : (r.session.ticker.dues r.last []).sum = 0 := rfl
    rw [none]
    omega
  | @turn r r' readings instructions result turned rest ih =>
    obtain ⟨ticker, last, -⟩ := turned.clock
    have ticked : (r.entered w).session.machine.timers = r.session.machine.timers.ticks
        (r.session.ticker.advance (r.reading w - r.last)).1.toNat := rfl
    have entered : (r.entered w).session.ticker =
        (r.session.ticker.advance (r.reading w - r.last)).2 := rfl
    -- The instruction of this turn is on the list, so it does not set the timer.
    have here : timer.value (left result).session.machine.timers =
        timer.value (r.entered w).session.machine.timers := by
      rw [turned.timers]
      cases carried : r.carried? w bounds with
      | none => rfl
      | some i =>
        refine timer.value_timersAfter _ fun x same => unset x ?_
        rw [carried, same]
        exact List.mem_append_left _ (List.mem_singleton_self _)
    rw [ticked, timer.value_ticks nonneg] at here
    rw [ih (by omega) fun x found => unset x (List.mem_append_right _ found), here, ticker, last,
      entered, TickAccumulator.dues, List.sum_cons, Int.natCast_add]
    omega

/-- The course of a run goes on from an entry as the course from there. -/
theorem Enters.course {k : Nat} {asked : Bool} (entered : Enters w bounds r₀ k asked r)
    (running : r₀.session.running = true) (turns : Nat) :
    ∃ before : List Int, before.length = k ∧
      (r₀.course w bounds (k + turns)).readings = before ++ (r.course w bounds turns).readings ∧
      ∀ rest, ∃ ticks : List Nat, ticks.length = k ∧
        r₀.session.ticker.dues r₀.last (before ++ rest) =
          ticks ++ r.session.ticker.dues r.last rest := by
  induction entered generalizing turns with
  | first =>
    refine ⟨[], rfl, ?_, fun rest => ⟨[], rfl, rfl⟩⟩
    rw [Nat.zero_add, List.nil_append]
  | @next k r r' entered went ih =>
    obtain ⟨before, length, readings, dues⟩ := ih (turns + 1)
    obtain ⟨ticker, last, -⟩ := (turned_of_run went).clock
    have going : r.session.running = true := entered.running running
    have here : (r.course w bounds (turns + 1)).readings =
        r.reading w :: (r'.course w bounds turns).readings := by
      rw [Run.course, going, went]
      rfl
    refine ⟨before ++ [r.reading w], ?_, ?_, fun rest => ?_⟩
    · rw [List.length_append, length, List.length_singleton]
    · rw [Nat.add_assoc, Nat.add_comm 1, readings, here, List.append_assoc, List.singleton_append]
    · obtain ⟨ticks, length, due⟩ := dues (r.reading w :: rest)
      refine ⟨ticks ++ [(r.session.ticker.advance (r.reading w - r.last)).1.toNat], ?_, ?_⟩
      · rw [List.length_append, length, List.length_singleton]
      · have left : r'.session.ticker = (r.session.ticker.advance (r.reading w - r.last)).2 :=
          ticker
        have read : r'.last = r.reading w := last
        rw [List.append_assoc, List.singleton_append, due, TickAccumulator.dues, left, read,
          List.append_assoc, List.singleton_append]

end Run

namespace Session

variable {σ : Type}

/-- The reading at an entry of a run, and the ticks that its machine gets there. -/
theorem ticks_of_enters {w : World σ} {bounds : Bounds} {s : Session σ} {k turns : Nat} {r : Run σ}
    (entered : Run.Enters w bounds (s.begun w) k false r) (within : k < turns) :
    (s.course w bounds turns).readings[k]? = some (r.reading w) ∧
      ∃ n, (s.ticks w bounds turns)[k]? = some n ∧
        (r.entered w).session.machine = r.session.machine.tick n := by
  obtain ⟨rest, rfl⟩ : ∃ rest, turns = k + (rest + 1) := ⟨turns - k - 1, by omega⟩
  obtain ⟨before, length, readings, dues⟩ := entered.course rfl (rest + 1)
  have going : r.session.running = true := entered.running rfl
  have here : ∃ later, (r.course w bounds (rest + 1)).readings = r.reading w :: later := by
    rw [Run.course, going]
    simp only [if_true]
    split <;> exact ⟨_, rfl⟩
  obtain ⟨later, here⟩ := here
  rw [here] at readings
  obtain ⟨ticks, count, due⟩ := dues (r.reading w :: later)
  have next (n : Nat) (later : List Nat) : (ticks ++ n :: later)[k]? = some n := by
    rw [List.getElem?_append_right (by omega), count, Nat.sub_self, List.getElem?_cons_zero]
  refine ⟨?_, _, ?_, rfl⟩
  · rw [Session.course, readings, List.getElem?_append_right (by omega), length, Nat.sub_self,
      List.getElem?_cons_zero]
  · have whole : s.ticks w bounds (k + (rest + 1)) =
        ticks ++ r.session.ticker.dues r.last (r.reading w :: later) := by
      rw [← due, ← readings]
      rfl
    rw [whole, TickAccumulator.dues]
    exact next _ _

/-- **The ticks of a run are the time that counts, rounded down once.** The machine gets them at the
entries of the run, and at any of these it has had as many as the readings of the clock up to there
make up: the time that counts, times the frequency of the timers, and nothing else. For a clock that
never goes back and makes no jump above the cap, this is the time since the run began. A run that
comes to its end reports as many ticks; and a timer that its program has not set is left at what
they leave of it, however the run ended. -/
theorem ticks_are_counted_time (w : World σ) {s : Session σ} (hertz : 0 < s.ticker.hertz)
    (bounds : Bounds) (turns : Nat) :
    let start := (w.readClock s.world).1
    let readings := (s.course w bounds turns).readings
    let ticks := s.ticks w bounds turns
    let total := s.ticker.hertz * countedTime s.ticker.cap start readings / nanosPerSecond
    (∀ k r, k < turns → Run.Enters w bounds (s.begun w) k false r →
      readings[k]? = some (r.reading w) ∧
      ∃ n, ticks[k]? = some n ∧ (r.entered w).session.machine = r.session.machine.tick n) ∧
    (∀ k, ((ticks.take k).sum : Int) =
      s.ticker.hertz * countedTime s.ticker.cap start (readings.take k) / nanosPerSecond) ∧
    ((start :: readings).IsChain (fun a b => a ≤ b ∧ b - a ≤ s.ticker.cap) →
      total = s.ticker.hertz * (readings.getLastD start - start) / nanosPerSecond) ∧
    (∀ stats s', s.run w bounds turns = some (.ok stats, s') → stats.counts.ticks = total) ∧
    ∀ answer s', s.run w bounds turns = some (answer, s') →
      (0 ≤ s.machine.timers.delay → (∀ x, .setDelay x ∉ s.obeyed w bounds turns) →
        s'.machine.timers.delay = max 0 (s.machine.timers.delay - total)) ∧
      (0 ≤ s.machine.timers.sound → (∀ x, .setSound x ∉ s.obeyed w bounds turns) →
        s'.machine.timers.sound = max 0 (s.machine.timers.sound - total)) := by
  intro start readings ticks total
  have sound : s.ticker.reset.Sound := TickAccumulator.sound_reset (Int.le_of_lt hertz)
  have trail := Run.loop_trail w bounds turns (s.begun w)
  have due (readings : List Int) : ((s.ticker.reset.dues start readings).sum : Int) =
      s.ticker.hertz * countedTime s.ticker.cap start readings / nanosPerSecond := by
    have exact := TickAccumulator.sum_dues sound start readings
    have remainder : s.ticker.reset.remainder = 0 := rfl
    rw [remainder, Int.zero_add] at exact
    exact exact
  refine ⟨fun k r within entered => ticks_of_enters entered within, fun k => ?_, fun steady => ?_,
    fun stats s' finished => ?_, fun answer s' finished => ?_⟩
  · rw [← due, TickAccumulator.dues_take]
    rfl
  · exact congrArg (s.ticker.hertz * · / nanosPerSecond) (countedTime_of_isChain steady)
  · obtain ⟨r, journal, rfl, ⟨reason, elapsed, ran, report⟩ | ⟨e, -, failed⟩⟩ :=
      run_cases finished
    · obtain ⟨counted, -⟩ := settle_eq_ok report.symm
      rw [ran] at trail
      have counts : r.counts.ticks = 0 + ticks.sum := trail.ticks sound
      rw [counted, counts, Int.zero_add]
      exact due readings
    · cases failed
  · obtain ⟨r, journal, rfl, trail⟩ := run_trail finished
    have all : ((s.ticker.reset.dues start readings).sum : Int) = total := due readings
    refine ⟨fun nonneg unset => ?_, fun nonneg unset => ?_⟩
    · have kept := trail.timer .delay nonneg unset
      rw [← all]
      exact kept
    · have kept := trail.timer .sound nonneg unset
      rw [← all]
      exact kept

/-- A session on a stage whose clock jumps ahead by ten seconds at the second poll and back by five
at the third. The program jumps to its own beginning for ever, and the delay timer stands at 200. -/
def stalled : Session Stage where
  monitored := ⟨{ Machine.loaded [0x12, 0x00] with timers := ⟨200, 0⟩ }, false, .empty⟩
  ticker := ⟨60, 3000 * nanosPerMilli, 0⟩
  hertz := .ofInt 500
  period := 2000000
  beeping := false
  running := false
  world :=
    { Stage.make
        (.headless ⟨⟨none, FrameRecorder.standardZoom, 0, 0, none⟩, .make [] none, .silent⟩)
        .empty with
      stride := 25000000
      stalls := [(1, 10000000000), (2, -5000000000)] }

/-- Of the stalled session's time, 3.152 seconds count in four steps, which makes 189 ticks. In its
first two turns the clock is steady. -/
theorem ticks_are_counted_time_stalled :
    0 < stalled.ticker.hertz ∧
    (∀ x, .setDelay x ∉ stalled.obeyed Stage.world ⟨some 4, none⟩ 9) ∧
    (∃ stats s', stalled.run Stage.world ⟨some 4, none⟩ 9 = some (.ok stats, s') ∧
      stats.counts.ticks = 189 ∧ s'.machine.timers.delay = 11) ∧
    stalled.ticker.hertz * countedTime stalled.ticker.cap 0
      (stalled.course Stage.world ⟨some 4, none⟩ 2).readings / nanosPerSecond =
        stalled.ticker.hertz * (75000000 - 0) / nanosPerSecond := by
  have hertz : 0 < stalled.ticker.hertz := by decide
  have obeyed : stalled.obeyed Stage.world ⟨some 4, none⟩ 9 = List.replicate 4 (.jump 0x200) := by
    decide +kernel
  have unset : ∀ x, .setDelay x ∉ stalled.obeyed Stage.world ⟨some 4, none⟩ 9 := by
    rw [obeyed]
    decide
  have total : stalled.ticker.hertz * countedTime stalled.ticker.cap 0
      (stalled.course Stage.world ⟨some 4, none⟩ 9).readings / nanosPerSecond = 189 := by
    decide +kernel
  have ends : ((stalled.run Stage.world ⟨some 4, none⟩ 9).map fun result =>
      result.1.toOption.isSome) = some true := by decide +kernel
  obtain ⟨⟨answer, s'⟩, finished, reported⟩ := Option.map_eq_some_iff.mp ends
  obtain ⟨-, -, -, counted, kept⟩ :=
    ticks_are_counted_time Stage.world hertz ⟨some 4, none⟩ 9
  obtain ⟨delay, -⟩ := kept answer s' finished
  have first : (stalled.course Stage.world ⟨some 4, none⟩ 2).readings = [25000000, 75000000] := by
    decide +kernel
  obtain ⟨-, -, steady, -⟩ := ticks_are_counted_time Stage.world hertz ⟨some 4, none⟩ 2
  rw [first] at steady ⊢
  refine ⟨hertz, unset, ?_, steady (by decide)⟩
  cases answer with
  | error e => cases reported
  | ok stats =>
    refine ⟨stats, s', finished, (counted stats s' finished).trans total, ?_⟩
    have left := delay (by decide) unset
    rw [left]
    have full : stalled.machine.timers.delay = 200 := rfl
    have start : (Stage.world.readClock stalled.world).1 = 0 := rfl
    rw [full, start, total]
    rfl

end Session

end ChipEight
