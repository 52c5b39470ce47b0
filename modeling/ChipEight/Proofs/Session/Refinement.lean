import ChipEight.Proofs.Machine.WellFormed
import ChipEight.Proofs.Session.Entries
import ChipEight.Proofs.Session.Mirrors

/-!
# A run refines the plain loop

A run with a headless host leaves the machine that the plain loop leaves, but for the mark of the
screen, and fails where the plain loop fails, in the same way. `turn_mirrors` compares one turn with
one iteration, `loop_mirrors` follows the turns of a run, and `run_refines_plain_loop` is about
whole runs.
-/

namespace ChipEight

namespace Run

variable {σ : Type} {w : World σ} {host : σ → Host} {script : Array (List Int)}
  {ticker : TickAccumulator} {last : Int} {r : Run σ} {p : PlainLoop}

/-! ## A turn and an iteration -/

/-- A limit does not stop a run, it ends it for a reason of its own. -/
theorem limitReached_ne_stopped {bounds : Bounds} {now : Int} {reason : StopReason}
    (reached : limitReached bounds r now = some reason) : reason ≠ .stopped := by
  rcases limitReached_cases reached with rfl | rfl
  · decide
  · decide

/-- **A turn mirrors an iteration**, or it ends the run after its ticks, at a limit or because the
input asks to quit. -/
theorem turn_mirrors (hosts : w.Hosts host) (mirrors : Mirrors host script ticker last r p)
    (bounds : Bounds) {now : Int} (read : now = (w.readClock r.session.world).1) :
    (∃ reason r', (turn w bounds).run r = .ok (some reason) r' ∧ reason ≠ .stopped ∧
      r'.session.machine.shown =
        (p.machine.tick (ticker.advance (now - last)).1.toNat).shown ∧
      r'.counts.steps = p.steps) ∨
    Alike (· = none) (Mirrors host script (ticker.advance (now - last)).2 now)
      ((turn w bounds).run r)
      ((PlainLoop.iterate script (ticker.advance (now - last)).1.toNat
        (((r.entered w).polled w).service w now)).run p) := by
  obtain rfl : now = r.reading w := read
  have entered : Mirrors host script (ticker.advance (r.reading w - last)).2 (r.reading w)
      (r.entered w)
      { p with machine := p.machine.tick (ticker.advance (r.reading w - last)).1.toNat } :=
    mirrors.entered hosts
  obtain ⟨h, headless, -, -⟩ := entered.input
  rw [turn_run, worked_eq]
  cases limit : limitReached bounds (r.entered w) (r.reading w) with
  | some reason =>
    exact .inl ⟨reason, r.entered w, rfl, limitReached_ne_stopped limit, entered.machine,
      entered.steps⟩
  | none =>
    cases quits : h.input.isOver with
    | true =>
      obtain ⟨answer, kept⟩ := polled_over hosts headless quits
      rw [answer]
      refine .inl ⟨.quit, (r.entered w).polled w, rfl, by decide, ?_, entered.steps⟩
      rw [kept]
      exact entered.machine
    | false =>
      right
      have polled := entered.polled hosts headless quits
      have ticks := PlainLoop.iterate_run script
        (ticker.advance (r.reading w - last)).1.toNat
        (((r.entered w).polled w).service w (r.reading w)) p
      rw [ticks]
      rcases polled.cases with
        ⟨_, r', p', reached, plain, rfl, mirrors⟩ | ⟨e, r', p', failed, plain, mirrors⟩
      · obtain ⟨answer, rfl⟩ := ended_eq_ok_iff.mp reached
        have carried := mirrors.carryOut hosts (r.reading w)
        simp only [answer, plain]
        cases ran : (carryOut w).run ((r.entered w).polled w) with
        | error e r' =>
          rw [ran] at carried
          exact carried.value (f := fun _ => none) fun _ => Eq.refl none
        | ok _ r' =>
          rw [ran] at carried
          cases waited : (r'.pacing w (r.reading w)).answer <;>
            simp only [waited] at carried ⊢ <;>
            exact carried.value (f := fun _ => none) fun _ => Eq.refl none
      · obtain ⟨answer, rfl⟩ := ended_eq_error_iff.mp failed
        simp only [answer, plain]
        exact ⟨rfl, mirrors⟩

/-! ## A run and the loop -/

/-- The end of a run beside the end of the plain loop. A run that ends for a reason has made the
steps of the loop, and its machine has had the ticks of a last turn besides, if there was one. A run
that does not end has let the timers tick as often as the loop. -/
def Ends (left : List Nat) :
    EStateM.Result Fault (Run σ) (Option StopReason) → EStateM.Result Fault PlainLoop Unit → Prop
  | .ok none _, .ok _ _ => left = []
  | .ok (some reason) r, .ok _ p =>
    r.session.machine.shown = (left.foldl Machine.tick p.machine).shown ∧ r.counts.steps = p.steps ∧
      left.length = if reason = .stopped then 0 else 1
  | .error e r, .error e' p => e = e' ∧ r.session.machine.shown = p.machine.shown
  | _, _ => False

theorem Ends.of_none {left : List Nat} {plain : EStateM.Result Fault PlainLoop Unit}
    (h : Ends left (.ok none r) plain) : ∃ p, plain = .ok () p ∧ left = [] := by
  cases plain with
  | ok _ p => exact ⟨p, rfl, h⟩
  | error e p => exact h.elim

theorem Ends.of_reason {left : List Nat} {reason : StopReason}
    {plain : EStateM.Result Fault PlainLoop Unit} (h : Ends left (.ok (some reason) r) plain) :
    ∃ p, plain = .ok () p ∧
      r.session.machine.shown = (left.foldl Machine.tick p.machine).shown ∧
      r.counts.steps = p.steps ∧ left.length = if reason = .stopped then 0 else 1 := by
  cases plain with
  | ok _ p => exact ⟨p, rfl, h⟩
  | error e p => exact h.elim

theorem Ends.of_error {left : List Nat} {e : Fault}
    {plain : EStateM.Result Fault PlainLoop Unit} (h : Ends left (.error e r) plain) :
    ∃ p, plain = .error e p ∧ r.session.machine.shown = p.machine.shown := by
  cases plain with
  | ok _ p => exact h.elim
  | error e' p =>
    obtain ⟨rfl, machine⟩ := h
    exact ⟨p, rfl, machine⟩

/-- **The turns of a run mirror the iterations of the plain loop** over the course of the run. -/
theorem loop_mirrors (hosts : w.Hosts host) (bounds : Bounds) (turns : Nat)
    (mirrors : Mirrors host script ticker last r p) :
    Ends ((ticker.dues last (r.course w bounds turns).readings).drop
        (r.course w bounds turns).answers.length)
      ((loop w bounds turns).run r)
      ((PlainLoop.loop script ((ticker.dues last (r.course w bounds turns).readings).zip
        (r.course w bounds turns).answers)).run p) := by
  -- The accumulator and the last reading vary with the run, as each turn moves them on.
  induction turns generalizing r p ticker last with
  | zero => rfl
  | succ turns ih =>
    rw [loop_succ_run]
    unfold course
    cases running : r.session.running with
    | false => exact ⟨mirrors.machine, mirrors.steps, rfl⟩
    | true =>
      simp only [if_true]
      rcases turn_mirrors hosts mirrors bounds rfl with
        ⟨reason, r', ended, going, machine, steps⟩ | alike
      · rw [ended]
        refine ⟨?_, steps, (if_neg going).symm⟩
        exact machine
      · rcases alike.cases with
          ⟨_, r', p', going, plain, rfl, mirrors⟩ | ⟨e, r', p', failed, plain, mirrors⟩
        · rw [going]
          simp only [TickAccumulator.dues, List.zip_cons_cons, List.length_cons,
            List.drop_succ_cons, PlainLoop.loop_cons_run, plain]
          exact ih mirrors
        · rw [failed]
          simp only [TickAccumulator.dues, List.zip_cons_cons, List.zip_nil_left,
            PlainLoop.loop_cons_run, plain]
          exact ⟨rfl, mirrors.machine⟩

/-- Every turn of a run that does not end is answered. -/
theorem length_answers_of_none {bounds : Bounds} {turns : Nat} {r r' : Run σ}
    (unended : (loop w bounds turns).run r = .ok none r') :
    (r.course w bounds turns).answers.length = turns := by
  induction turns generalizing r with
  | zero => rfl
  | succ turns ih =>
    rw [loop_succ_run] at unended
    unfold course
    cases running : r.session.running with
    | false =>
      rw [running] at unended
      cases unended
    | true =>
      simp only [running, if_true] at unended ⊢
      cases ran : (turn w bounds).run r with
      | error e r' =>
        rw [ran] at unended
        cases unended
      | ok reason? r' =>
        rw [ran] at unended
        cases reason? with
        | some reason => cases unended
        | none => exact congrArg (· + 1) (ih unended)

/-- Fewer turns are answered than begin, or as many. -/
theorem length_answers_le (w : World σ) (bounds : Bounds) (turns : Nat) (r : Run σ) :
    (r.course w bounds turns).answers.length ≤ (r.course w bounds turns).readings.length := by
  induction turns generalizing r with
  | zero => exact Nat.le_refl 0
  | succ turns ih =>
    unfold course
    split
    · dsimp only
      split
      · exact Nat.zero_le _
      · exact Nat.succ_le_succ (ih _)
      · exact Nat.le_refl 1
    · exact Nat.le_refl 0

end Run

namespace Session

variable {σ : Type}

/-- The course of a run of a session. -/
def course (w : World σ) (bounds : Bounds) (turns : Nat) (s : Session σ) : Course :=
  (s.begun w).course w bounds turns

/-- The ticks that are due at the beginnings of the turns of a run. -/
def ticks (w : World σ) (bounds : Bounds) (turns : Nat) (s : Session σ) : List Nat :=
  s.ticker.reset.dues (w.readClock s.world).1 (s.course w bounds turns).readings

theorem length_answers_le_ticks (w : World σ) (bounds : Bounds) (turns : Nat) (s : Session σ) :
    (s.course w bounds turns).answers.length ≤ (s.ticks w bounds turns).length := by
  rw [ticks, TickAccumulator.length_dues]
  exact Run.length_answers_le w bounds turns _

/-- The turns of a run end beside the plain loop over its course. -/
theorem ends_begun {w : World σ} {host : σ → Host} (hosts : w.Hosts host) {s : Session σ}
    {h : Headless} (headless : host s.world = .headless h) (bounds : Bounds) (turns : Nat) :
    Run.Ends ((s.ticks w bounds turns).drop (s.course w bounds turns).answers.length)
      ((Run.loop w bounds turns).run (s.begun w))
      ((PlainLoop.loop h.input.script ((s.ticks w bounds turns).zip
        (s.course w bounds turns).answers)).run ⟨s.machine, h.input.polls, 0⟩) := by
  have mirrors : Run.Mirrors host h.input.script s.ticker.reset (w.readClock s.world).1
      (s.begun w) ⟨s.machine, h.input.polls, 0⟩ :=
    ⟨rfl, ⟨h, (hosts.readClock s.world).trans headless, rfl, rfl⟩, rfl, rfl, rfl⟩
  exact Run.loop_mirrors hosts bounds turns mirrors

/-- A run that finished was closed after its turns: one of them ended it for a reason, or failed. -/
theorem finished_cases {w : World σ} {bounds : Bounds} {turns : Nat} {s s' : Session σ}
    {answer : Except Fault RunStats} (finished : s.run w bounds turns = some (answer, s')) :
    (∃ reason r, (Run.loop w bounds turns).run (s.begun w) = .ok (some reason) r ∧
      (∃ elapsed, answer = (settle reason r.counts elapsed s').1) ∧
      s'.machine = r.session.machine) ∨
    ∃ e r, (Run.loop w bounds turns).run (s.begun w) = .error e r ∧ answer = .error e ∧
      s'.machine = r.session.machine := by
  obtain ⟨r, journal, rfl, ⟨reason, elapsed, ran, report⟩ | ⟨e, ran, failed⟩⟩ := run_cases finished
  · exact .inl ⟨reason, r, ran, ⟨elapsed, report⟩, rfl⟩
  · exact .inr ⟨e, r, ran, failed, rfl⟩

/-- **A run refines the plain loop.** Under a headless host, whatever the clock shows, the waits
take, and the display and the waits answer, a run leaves the machine that the plain loop leaves, but
for the mark of the screen. The loop is given the ticks that are due at the readings of the clock,
and makes one step for each step that the run reports; a run that was not stopped has let the timers
tick once more, in the turn that ended it. Where the loop fails, the run fails in the same way. The
count of instructions has grown by the number of steps that succeeded. A run that does not end within
a number of turns has made a step in each. -/
theorem run_refines_plain_loop {w : World σ} {host : σ → Host} (hosts : w.Hosts host)
    {s : Session σ} {h : Headless} (headless : host s.world = .headless h) (bounds : Bounds)
    (turns : Nat) :
    let ticks := s.ticks w bounds turns
    let answers := (s.course w bounds turns).answers
    let plain := (PlainLoop.loop h.input.script (ticks.zip answers)).run
      ⟨s.machine, h.input.polls, 0⟩
    (∀ answer s', s.run w bounds turns = some (answer, s') →
      match plain with
      | .ok _ p =>
        (∃ reason counts elapsed, answer = (settle reason counts elapsed s').1 ∧
          counts.steps = answers.length ∧
          ticks.length = answers.length + if reason = .stopped then 0 else 1) ∧
        s'.machine.shown = ((ticks.drop answers.length).foldl Machine.tick p.machine).shown ∧
        p.steps = answers.length ∧ s'.machine.executed = s.machine.executed + p.steps
      | .error e p =>
        answer = .error e ∧ s'.machine.shown = p.machine.shown ∧
          s'.machine.executed = s.machine.executed + p.steps) ∧
    (s.run w bounds turns = none →
      ticks.length = turns ∧ ∃ p, plain = .ok () p ∧ p.steps = turns) := by
  intro ticks answers plain
  have ends : Run.Ends (ticks.drop answers.length) ((Run.loop w bounds turns).run (s.begun w))
      plain := ends_begun hosts headless bounds turns
  have counted := PlainLoop.counted_loop s.machine.executed h.input.script (ticks.zip answers)
  have uncounted : PlainLoop.Counted s.machine.executed ⟨s.machine, h.input.polls, 0⟩ := rfl
  have lengths : answers.length ≤ ticks.length := s.length_answers_le_ticks w bounds turns
  have made (p : PlainLoop) (done : plain = .ok () p) : p.steps = answers.length := by
    rw [PlainLoop.steps_loop done, List.length_zip, Nat.min_eq_right lengths, Nat.zero_add]
  refine ⟨fun answer s' finished => ?_, fun going => ?_⟩
  · rcases finished_cases finished with ⟨reason, r, ran, ⟨elapsed, report⟩, kept⟩ |
      ⟨e, r, ran, rfl, kept⟩
    · rw [ran] at ends
      obtain ⟨p, done, machine, steps, left⟩ := ends.of_reason
      have same : s'.machine.shown =
          ((ticks.drop answers.length).foldl Machine.tick p.machine).shown := by
        rw [kept]
        exact machine
      have beats : ticks.length = answers.length + if reason = .stopped then 0 else 1 := by
        rw [List.length_drop] at left
        omega
      have executed : s'.machine.executed = s.machine.executed + p.steps := calc
        s'.machine.executed
          = ((ticks.drop answers.length).foldl Machine.tick p.machine).executed :=
            Machine.executed_congr same
        _ = p.machine.executed := PlainLoop.executed_ticks p.machine _
        _ = s.machine.executed + p.steps := counted.of_ok uncounted done
      rw [done]
      exact ⟨⟨reason, r.counts, elapsed, report, steps.trans (made p done), beats⟩, same,
        made p done, executed⟩
    · rw [ran] at ends
      obtain ⟨p, failed, machine⟩ := ends.of_error
      have same : s'.machine.shown = p.machine.shown := by
        rw [kept]
        exact machine
      have executed : s'.machine.executed = s.machine.executed + p.steps :=
        (Machine.executed_congr same).trans (counted.of_error uncounted failed)
      rw [failed]
      exact ⟨rfl, same, executed⟩
  · obtain ⟨r, ran⟩ := unfinished going
    rw [ran] at ends
    obtain ⟨p, done, none⟩ := ends.of_none
    have each : answers.length = turns := Run.length_answers_of_none ran
    have all := List.drop_eq_nil_iff.mp none
    exact ⟨by omega, p, done, (made p done).trans each⟩

/-- A headless host whose script presses key five, releases it, and asks for a key that there is
not. -/
def scriptedHost : Headless :=
  ⟨⟨none, FrameRecorder.standardZoom, 0, 0, none⟩, .make [[5], [], [], [16]] none, .silent⟩

/-- A session on a stage whose clock moves by 9 milliseconds at each reading. The program sets the
delay timer to five and looks for key five for ever. -/
def rehearsal : Session Stage where
  monitored :=
    ⟨.loaded [0x60, 0x05, 0xF0, 0x15, 0xE0, 0x9E, 0x12, 0x04], false, .empty⟩
  ticker := ⟨60, 3000 * nanosPerMilli, 0⟩
  hertz := .ofInt 100
  period := 10000000
  beeping := false
  running := false
  world := { Stage.make (.headless scriptedHost) .empty with stride := 9000000 }

/-- The rehearsal runs into the key that there is not, after three steps and two ticks of the delay
timer. -/
theorem run_refines_plain_loop_rehearsal :
    Stage.world.Hosts Stage.host ∧ Stage.host rehearsal.world = .headless scriptedHost ∧
    ∃ answer s', rehearsal.run Stage.world ⟨none, none⟩ 9 = some (answer, s') ∧
      answer = .error (.invalidKey 16 none) ∧ s'.machine.executed = 3 ∧
      s'.machine.timers.delay = 3 := by
  -- The number of turns is kept out of sight, or the run is evaluated where it is only compared.
  obtain ⟨turns, nine⟩ : ∃ turns, turns = 9 := ⟨9, rfl⟩
  have ends : (rehearsal.run Stage.world ⟨none, none⟩ turns).isSome := by
    rw [nine]
    decide +kernel
  obtain ⟨⟨answer, s'⟩, finished⟩ := Option.isSome_iff_exists.mp ends
  have headless : Stage.host rehearsal.world = .headless scriptedHost := rfl
  have spec :=
    (run_refines_plain_loop Stage.hosts headless ⟨none, none⟩ turns).1 answer s' finished
  have plain : (match (PlainLoop.loop scriptedHost.input.script
      ((rehearsal.ticks Stage.world ⟨none, none⟩ turns).zip
        (rehearsal.course Stage.world ⟨none, none⟩ turns).answers)).run
      ⟨rehearsal.machine, scriptedHost.input.polls, 0⟩ with
    | .ok _ _ => none
    | .error e p => some (e, p.steps, p.machine.timers.delay)) =
      some (.invalidKey 16 none, 3, 3) := by
    rw [nine]
    decide +kernel
  generalize (PlainLoop.loop scriptedHost.input.script _).run _ = ran at spec plain
  cases ran with
  | ok _ p => cases plain
  | error e p =>
    obtain ⟨rfl, machine, counted⟩ := spec
    obtain ⟨rfl, steps, delay⟩ : e = _ ∧ p.steps = 3 ∧ p.machine.timers.delay = 3 := by
      simpa using plain
    have timers := congrArg (fun m : Machine => m.timers.delay) machine
    rw [steps] at counted
    rw [nine] at finished
    exact ⟨Stage.hosts, headless, _, s', finished, rfl, counted, timers.trans delay⟩

end Session

end ChipEight
