import ChipEight.Proofs.Machine.Shown
import ChipEight.Proofs.Session.Headless
import ChipEight.Proofs.Session.PlainLoop

/-!
# A run beside the plain loop

What a run takes from outside is its `Course`: the readings of the clock at which its turns begin,
and what is answered to the steps of the turns that do not end the run, by the display and by the
wait. The plain loop is given the ticks that are due at the readings, and these answers; all else it
finds in its machine and in the script.

`Mirrors` relates a run with a headless host to the plain loop. Every part of a turn keeps the
relation: the ticks, the poll, the step and what is answered to it along with their counterpart in
the loop, and the beeper and the counts by themselves.
-/

namespace ChipEight

/-- What a run takes from outside: the readings of the clock at the beginning of its turns, and what
the display and the wait answer in the turns that do not end the run. -/
structure Course where
  readings : List Int
  answers : List (Except Fault Unit)

namespace Run

variable {σ : Type}

section Course

variable (w : World σ)

/-- What the display answers when a run that was polled shows the screen after its step. -/
def presentation (r : Run σ) : Except Fault Unit :=
  ((r.withMachine r.session.machine.next).presenting w).answer

/-- What the wait answers in a turn of a run that was polled. -/
def pause (r : Run σ) (began : Int) : Except Fault Unit :=
  (((r.stepped .empty).served w).pacing w began).answer

/-- What is answered to the step of a run that was polled: the display comes first, and then the
wait. -/
def service (r : Run σ) (began : Int) : Except Fault Unit := do
  r.presentation w
  r.pause w began

/-- The course of a run. -/
def course (bounds : Bounds) : Nat → Run σ → Course
  | 0, _ => ⟨[], []⟩
  | turns + 1, r =>
    if r.session.running then
      let now := (w.readClock r.session.world).1
      let answer := ((r.entered w).polled w).service w now
      match (turn w bounds).run r with
      | .ok (some _) _ => ⟨[now], []⟩
      | .ok none r =>
        let rest := course bounds turns r
        ⟨now :: rest.readings, answer :: rest.answers⟩
      | .error _ _ => ⟨[now], [answer]⟩
    else ⟨[], []⟩

end Course

/-! ## Mirrors -/

/-- Two actions end alike: both succeed, the first with a value as expected, or both fail in the
same way, and what they leave behind is related. -/
def Alike (value : ι → Prop) (R : α → β → Prop) :
    EStateM.Result Fault α ι → EStateM.Result Fault β Unit → Prop
  | .ok i a, .ok _ b => value i ∧ R a b
  | .error e a, .error e' b => e = e' ∧ R a b
  | _, _ => False

theorem Alike.cases {value : ι → Prop} {R : α → β → Prop} {x : EStateM.Result Fault α ι}
    {y : EStateM.Result Fault β Unit} (h : Alike value R x y) :
    (∃ i a b, x = .ok i a ∧ y = .ok () b ∧ value i ∧ R a b) ∨
      ∃ e a b, x = .error e a ∧ y = .error e b ∧ R a b := by
  cases x with
  | ok i a =>
    cases y with
    | ok _ b => exact .inl ⟨i, a, b, rfl, rfl, h⟩
    | error e b => exact h.elim
  | error e a =>
    cases y with
    | ok _ b => exact h.elim
    | error e' b =>
      obtain ⟨rfl, related⟩ := h
      exact .inr ⟨e, a, b, rfl, rfl, related⟩

/-- Actions that end alike do so whatever value the first has. -/
theorem Alike.value {value : ι → Prop} {value' : κ → Prop} {f : ι → κ} {R : α → β → Prop}
    {x : EStateM.Result Fault α ι} {y : EStateM.Result Fault β Unit} :
    Alike value R x y → (∀ i, value' (f i)) →
    Alike value' R
      (match x with
        | .ok i a => .ok (f i) a
        | .error e a => .error e a) y := by
  intro h expected
  rcases h.cases with ⟨i, a, b, rfl, rfl, -, related⟩ | ⟨e, a, b, rfl, rfl, related⟩
  · exact ⟨expected i, related⟩
  · exact ⟨rfl, related⟩

/-- **A run mirrors the plain loop**: their machines differ in the mark of the screen at most, the
input of the run has answered the polls of the loop, and as many steps were made. The accumulator
and the last reading of the clock, which the loop does not have, are given. -/
structure Mirrors (host : σ → Host) (script : Array (List Int)) (ticker : TickAccumulator)
    (last : Int) (r : Run σ) (p : PlainLoop) : Prop where
  machine : r.session.machine.shown = p.machine.shown
  input : ∃ h, host r.session.world = .headless h ∧
    h.input.script = script ∧ h.input.polls = p.polls
  steps : r.counts.steps = p.steps
  ticker : r.session.ticker = ticker
  last : r.last = last

variable {w : World σ} {host : σ → Host} {script : Array (List Int)} {ticker : TickAccumulator}
  {last : Int} {r : Run σ} {p : PlainLoop}

/-- The timers tick in both as they are due. -/
theorem Mirrors.entered (hosts : w.Hosts host) (h : Mirrors host script ticker last r p) :
    Mirrors host script (ticker.advance ((w.readClock r.session.world).1 - last)).2
      (w.readClock r.session.world).1 (r.entered w)
      { p with
        machine :=
          p.machine.tick (ticker.advance ((w.readClock r.session.world).1 - last)).1.toNat } := by
  obtain ⟨machine, input, steps, rfl, rfl⟩ := h
  refine ⟨?_, ?_, steps, rfl, rfl⟩
  · have ticked := congrArg (fun m : Machine => m.tick
      (r.session.ticker.advance ((w.readClock r.session.world).1 - r.last)).1.toNat) machine
    exact ticked
  · rw [← hosts.readClock] at input
    exact input

/-- Actions with the same answer end alike where the states behind them are related. -/
theorem alike_ended {value : ι → Prop} {R : α → β → Prop} {answer : Except Fault ι} {a : α} {b : β}
    (expected : ∀ i, answer = .ok i → value i) (related : R a b) :
    Alike value R (ended answer a) (ended (answer.map fun _ => ()) b) := by
  cases answer with
  | ok i => exact ⟨expected i rfl, related⟩
  | error e => exact ⟨rfl, related⟩

/-- A poll that asks to quit leaves the machine as it was. -/
theorem polled_over (hosts : w.Hosts host) {h : Headless}
    (headless : host r.session.world = .headless h) (quits : h.input.isOver) :
    (r.polling w).answer = .ok false ∧ (r.polled w).session.machine = r.session.machine := by
  obtain ⟨answer, keypad, -⟩ := polling_headless hosts headless
  rw [ScriptedInput.poll_of_isOver quits] at answer keypad
  have kept : ({ r.session.machine with keypad := (r.polling w).keypad } : Machine) =
      r.session.machine := by rw [keypad]
  exact ⟨answer, kept⟩

/-- The input of a headless host that does not ask to quit polls its script. -/
theorem poll_script {input : ScriptedInput} (goes : input.isOver = false)
    (polls : input.polls = p.polls) :
    (∀ i, (input.poll p.machine.keypad).answer = .ok i → i = true) ∧
    (input.poll p.machine.keypad).world.script = input.script ∧
    (PlainLoop.poll input.script).run p =
      ended ((input.poll p.machine.keypad).answer.map fun _ => ())
        { p with
          machine := { p.machine with keypad := (input.poll p.machine.keypad).keypad }
          polls := (input.poll p.machine.keypad).world.polls } := by
  obtain ⟨m, _, steps⟩ := p
  subst polls
  have entry : input.entry? = input.script[min input.polls (input.script.size - 1)]? := rfl
  simp only [PlainLoop.poll, ScriptedInput.poll, goes, entry, EStateM.run_bind, EStateM.run_get,
    Bool.false_eq_true, if_false]
  cases input.script[min input.polls (input.script.size - 1)]? with
  | none => exact ⟨fun i same => (Except.ok.inj same).symm, rfl, rfl⟩
  | some keys =>
    dsimp only
    cases (Keypad.update keys).run m.keypad with
    | ok _ keypad => exact ⟨fun i same => (Except.ok.inj same).symm, rfl, rfl⟩
    | error e keypad => exact ⟨fun i same => (by cases same), rfl, rfl⟩

/-- A poll that does not ask to quit puts the same keys on both keypads, or fails on both. -/
theorem Mirrors.polled (hosts : w.Hosts host) (mirrors : Mirrors host script ticker last r p)
    {h : Headless} (headless : host r.session.world = .headless h) (goes : h.input.isOver = false) :
    Alike (· = true) (Mirrors host script ticker last) (ended (r.polling w).answer (r.polled w))
      ((PlainLoop.poll script).run p) := by
  obtain ⟨h', same, rfl, polls⟩ := mirrors.input
  rw [headless] at same
  cases same
  obtain ⟨answer, keypad, world⟩ := polling_headless hosts headless
  rw [Machine.keypad_congr mirrors.machine] at answer keypad world
  obtain ⟨goesOn, script, plain⟩ := poll_script goes polls
  rw [plain, answer]
  refine alike_ended goesOn
    ⟨?_, ⟨_, world, script, rfl⟩, mirrors.steps, mirrors.ticker, mirrors.last⟩
  have set := Machine.shown_withKeypad mirrors.machine (h.input.poll p.machine.keypad).keypad
  rw [← keypad] at set ⊢
  exact set

/-- A count that is not of steps has no part in the mirror. -/
theorem Mirrors.counted (mirrors : Mirrors host script ticker last r p) {f : Counts → Counts}
    (kept : (f r.counts).steps = r.counts.steps) :
    Mirrors host script ticker last (r.counted f) p :=
  ⟨mirrors.machine, mirrors.input, kept.trans mirrors.steps, mirrors.ticker, mirrors.last⟩

/-- A presentation takes at most the mark off the screen. -/
theorem Mirrors.presented (hosts : w.Hosts host) (mirrors : Mirrors host script ticker last r p) :
    Mirrors host script ticker last (r.presented w) p := by
  obtain ⟨h, headless, same, polls⟩ := mirrors.input
  obtain ⟨files, -, screen, world⟩ := presenting_headless hosts headless
  refine ⟨?_, ⟨_, world, same, polls⟩, mirrors.steps, mirrors.ticker, mirrors.last⟩
  have raster : (r.presenting w).screen.raster = r.session.machine.screen.raster := by
    rw [screen]
    exact h.display.raster_present r.session.machine.screen files
  have kept : (r.presented w).session.machine.shown = r.session.machine.shown := by
    have shown := congrArg
      (fun raster => { r.session.machine with screen := ⟨raster, false⟩ }) raster
    exact shown
  exact kept.trans mirrors.machine

theorem Mirrors.beeped (hosts : w.Hosts host) (mirrors : Mirrors host script ticker last r p) :
    Mirrors host script ticker last (r.beeped w) p := by
  obtain ⟨h, headless, same, polls⟩ := mirrors.input
  obtain ⟨audio, beeped⟩ :=
    withBeeper_headless hosts headless r.session.machine.timers.beeping
  have machine : (r.beeped w).session.machine = r.session.machine := withBeeper_machine _ _
  have kept : (r.beeped w).session.ticker = r.session.ticker := by
    rw [Run.beeped, withBeeper_eq]
  exact ⟨(congrArg Machine.shown machine).trans mirrors.machine, ⟨_, beeped, same, polls⟩,
    mirrors.steps, kept.trans mirrors.ticker, mirrors.last⟩

theorem Mirrors.paced (hosts : w.Hosts host) (mirrors : Mirrors host script ticker last r p)
    (began : Int) : Mirrors host script ticker last (r.paced w began) p := by
  have input := mirrors.input
  rw [← paced_world r hosts.readClock hosts.sleep began] at input
  exact ⟨mirrors.machine, input, mirrors.steps, mirrors.ticker, mirrors.last⟩

/-- The journal has no part in the wait. -/
theorem pacing_served (w : World σ) (r : Run σ) (journal : Journal) (began : Int) :
    (((r.stepped journal).served w).pacing w began).answer = r.pause w began := by
  have world : ((r.stepped journal).served w).session.world =
      ((r.stepped .empty).served w).session.world := by
    have beeped (on : Bool) (s s' : Session σ) (beeping : s.beeping = s'.beeping)
        (world : s.world = s'.world) :
        (withBeeper w on s).world = (withBeeper w on s').world := by
      unfold withBeeper
      rw [beeping, world]
      split
      · exact world
      · rfl
    exact beeped _ _ _ rfl rfl
  have period (journal : Journal) :
      ((r.stepped journal).served w).session.period = r.session.period := by
    unfold served beeped counted
    rw [withBeeper_eq]
    rfl
  unfold pause pacing
  rw [world, period, period]

/-- The part of a turn after the poll mirrors the step of the plain loop and what is answered to
it. -/
theorem Mirrors.carryOut (hosts : w.Hosts host) (mirrors : Mirrors host script ticker last r p)
    (began : Int) :
    Alike (fun _ => True) (Mirrors host script ticker last)
      (match (carryOut w).run r with
        | .ok _ r' => ended (r'.pacing w began).answer (r'.paced w began)
        | .error e r' => .error e r')
      ((PlainLoop.step >>= fun _ => PlainLoop.present (r.service w began)).run p) := by
  have spec := carryOut_run w r
  -- The mark has no part in faults, so the two steps fail together.
  have met := Machine.fault?_congr mirrors.machine
  rw [EStateM.run_bind, PlainLoop.step_run, ← met]
  cases fault : r.session.machine.fault? with
  | some e =>
    rw [fault] at spec
    obtain ⟨journal, failed⟩ := spec
    rw [failed]
    exact ⟨rfl, mirrors.machine, mirrors.input, mirrors.steps, mirrors.ticker, mirrors.last⟩
  | none =>
    rw [fault] at spec
    obtain ⟨journal, done⟩ := spec
    have stepped : Mirrors host script ticker last (r.stepped journal)
        { p with machine := p.machine.next, steps := p.steps + 1 } :=
      ⟨Machine.shown_next_congr mirrors.machine, mirrors.input, congrArg (· + 1) mirrors.steps,
        mirrors.ticker, mirrors.last⟩
    have answer : ((r.stepped journal).presenting w).answer = r.presentation w := rfl
    have shown := stepped.presented hosts
    have framed := shown.counted (f := fun c => { c with frames := c.frames + 1 }) rfl
    have served : Mirrors host script ticker last ((r.stepped journal).served w)
        { p with machine := p.machine.next, steps := p.steps + 1 } :=
      (framed.beeped hosts).counted rfl
    rw [done, answer, service]
    cases r.presentation w with
    | error e => exact ⟨rfl, shown⟩
    | ok _ =>
      dsimp only
      rw [pacing_served]
      have waited := served.paced hosts began
      cases paused : r.pause w began with
      | error e => exact ⟨rfl, waited⟩
      | ok _ => exact ⟨trivial, waited⟩

end Run

end ChipEight
