import ChipEight.Proofs.Machine.Step
import ChipEight.Session.TickAccumulator

/-!
# The plain loop

The plain loop is what a session does to its machine and nothing else: without a clock, a display,
a beeper and limits. For each iteration it is told how many ticks are due and what the presentation
of the screen answers; it lets the timers tick, puts the next entry of a script on the keypad, and
makes one step.

`dues` gives the ticks that are due at each of a list of readings of a clock.
-/

namespace ChipEight

/-- The ticks that are due at each of a list of readings of a clock, after a last reading. -/
def TickAccumulator.dues (a : TickAccumulator) (last : Int) : List Int → List Nat
  | [] => []
  | now :: rest =>
    (a.advance (now - last)).1.toNat :: (a.advance (now - last)).2.dues now rest

theorem TickAccumulator.length_dues (a : TickAccumulator) (last : Int) (readings : List Int) :
    (a.dues last readings).length = readings.length := by
  induction readings generalizing a last with
  | nil => rfl
  | cons now rest ih => exact congrArg (· + 1) (ih _ now)

/-- A machine in the plain loop, the polls that were answered, and the steps that succeeded. -/
structure PlainLoop where
  machine : Machine
  polls : Nat
  steps : Nat

namespace PlainLoop

/-- A part of the plain loop that may end in a fault. -/
abbrev Action := EStateM Fault PlainLoop

/-- Lets the timers tick a number of times. -/
def tick (count : Nat) : Action Unit :=
  modify fun p => { p with machine := p.machine.tick count }

/-- Puts the next entry of a script on the keypad. The last entry is held, and an empty script has
none. -/
def poll (script : Array (List Int)) : Action Unit := do
  let p ← get
  match script[min p.polls (script.size - 1)]? with
  | none => set { p with polls := p.polls + 1 }
  | some keys =>
    match (Keypad.update keys).run p.machine.keypad with
    | .ok _ keypad =>
      set { p with machine := { p.machine with keypad := keypad }, polls := p.polls + 1 }
    | .error e keypad =>
      set { p with machine := { p.machine with keypad := keypad } }
      throw e

/-- Makes one step and counts it if it succeeds. -/
def step : Action Unit := do
  let p ← get
  match Machine.step.run p.machine with
  | .ok _ m => set { p with machine := m, steps := p.steps + 1 }
  | .error e m =>
    set { p with machine := m }
    throw e

/-- What the presentation of the screen answers. -/
def present : Except Fault Unit → Action Unit
  | .ok _ => return ()
  | .error e => throw e

/-- One iteration. -/
def iterate (script : Array (List Int)) (ticks : Nat) (answer : Except Fault Unit) :
    Action Unit := do
  tick ticks
  poll script
  step
  present answer

/-- One iteration after the other. -/
def loop (script : Array (List Int)) : List (Nat × Except Fault Unit) → Action Unit
  | [] => return ()
  | (ticks, answer) :: rest => do
    iterate script ticks answer
    loop script rest

/-- An iteration polls after its ticks, and makes a step if the poll succeeds. -/
theorem iterate_run (script : Array (List Int)) (ticks : Nat) (answer : Except Fault Unit)
    (p : PlainLoop) :
    (iterate script ticks answer).run p =
      match (poll script).run { p with machine := p.machine.tick ticks } with
      | .ok _ p => (step >>= fun _ => present answer).run p
      | .error e p => .error e p := by
  unfold iterate
  rw [EStateM.run_bind]
  change (poll script >>= _).run { p with machine := p.machine.tick ticks } = _
  rw [EStateM.run_bind]
  cases (poll script).run { p with machine := p.machine.tick ticks } <;> rfl

/-- The loop makes its first iteration, and goes on if that succeeds. -/
theorem loop_cons_run (script : Array (List Int)) (ticks : Nat) (answer : Except Fault Unit)
    (rest : List (Nat × Except Fault Unit)) (p : PlainLoop) :
    (loop script ((ticks, answer) :: rest)).run p =
      match (iterate script ticks answer).run p with
      | .ok _ p => (loop script rest).run p
      | .error e p => .error e p := by
  rw [loop, EStateM.run_bind]
  cases (iterate script ticks answer).run p <;> rfl

/-! ## The count of steps -/

theorem executed_ticks (m : Machine) (ticks : List Nat) :
    (ticks.foldl Machine.tick m).executed = m.executed := by
  induction ticks generalizing m with
  | nil => rfl
  | cons count rest ih => exact ih (m.tick count)

/-- An action keeps a property of the loop, whether it succeeds or fails. -/
def Keeps (P : PlainLoop → Prop) (action : Action α) : Prop :=
  ∀ p, P p → match action.run p with
    | .ok _ p' => P p'
    | .error _ p' => P p'

theorem Keeps.of_ok {P : PlainLoop → Prop} {action : Action α} (keeps : Keeps P action)
    {p p' : PlainLoop} {a : α} (holds : P p) (done : action.run p = .ok a p') : P p' := by
  have kept := keeps p holds
  rw [done] at kept
  exact kept

theorem Keeps.of_error {P : PlainLoop → Prop} {action : Action α} (keeps : Keeps P action)
    {p p' : PlainLoop} {e : Fault} (holds : P p) (failed : action.run p = .error e p') : P p' := by
  have kept := keeps p holds
  rw [failed] at kept
  exact kept

/-- What two actions keep, one after the other keeps. -/
theorem Keeps.bind {P : PlainLoop → Prop} {x : Action α} {f : α → Action β} (first : Keeps P x)
    (second : ∀ a, Keeps P (f a)) : Keeps P (x >>= f) := by
  intro p holds
  rw [EStateM.run_bind]
  cases ran : x.run p with
  | ok a p' => exact second a p' (first.of_ok holds ran)
  | error e p' => exact first.of_error holds ran

/-- A poll of the script keeps what does not speak of the keypad and of the polls. -/
theorem keeps_poll {P : PlainLoop → Prop} (script : Array (List Int))
    (blind : ∀ p keypad polls, P p →
      P { p with machine := { p.machine with keypad := keypad }, polls := polls }) :
    Keeps P (poll script) := by
  intro p holds
  unfold poll
  rw [EStateM.run_bind, EStateM.run_get]
  dsimp only
  cases script[min p.polls (script.size - 1)]? with
  | none => exact blind p p.machine.keypad (p.polls + 1) holds
  | some keys =>
    dsimp only
    cases (Keypad.update keys).run p.machine.keypad with
    | ok _ keypad => exact blind p keypad (p.polls + 1) holds
    | error e keypad => exact blind p keypad p.polls holds

theorem keeps_present (P : PlainLoop → Prop) (answer : Except Fault Unit) :
    Keeps P (present answer) := by
  intro p holds
  cases answer with
  | ok _ => exact holds
  | error e => exact holds

/-- A step of the loop is a step of its machine. -/
theorem step_run (p : PlainLoop) :
    step.run p = match p.machine.fault? with
      | some e => .error e p
      | none => .ok () { p with machine := p.machine.next, steps := p.steps + 1 } := by
  unfold step
  rw [EStateM.run_bind, EStateM.run_get]
  dsimp only
  rw [Machine.step_run]
  cases p.machine.fault? <;> rfl

/-- The steps that succeeded are the increase of the count of instructions. -/
def Counted (base : Nat) (p : PlainLoop) : Prop := p.machine.executed = base + p.steps

/-- A step is counted on both sides, or on neither. -/
theorem counted_step (base : Nat) : Keeps (Counted base) step := by
  intro p counted
  rw [step_run]
  cases met : p.machine.fault? with
  | some e => exact counted
  | none =>
    have more : p.machine.next.executed = base + (p.steps + 1) := by
      rw [Machine.executed_next met, counted, Nat.add_assoc]
    exact more

/-- **The increase of the count of instructions is the number of steps that succeeded**, however the
loop ends. -/
theorem counted_loop (base : Nat) (script : Array (List Int))
    (beats : List (Nat × Except Fault Unit)) : Keeps (Counted base) (loop script beats) := by
  induction beats with
  | nil => exact fun p counted => counted
  | cons beat rest ih =>
    have ticked : Keeps (Counted base) (tick beat.1) := fun p counted => counted
    have polled : Keeps (Counted base) (poll script) :=
      keeps_poll script fun p _ _ counted => counted
    exact (ticked.bind fun _ => polled.bind fun _ =>
      (counted_step base).bind fun _ => keeps_present _ beat.2).bind fun _ => ih

theorem run_bind_eq_ok {x : Action α} {f : α → Action β} {p p' : PlainLoop} {b : β}
    (done : (x >>= f).run p = .ok b p') : ∃ a q, x.run p = .ok a q ∧ (f a).run q = .ok b p' := by
  rw [EStateM.run_bind] at done
  cases ran : x.run p with
  | ok a q =>
    rw [ran] at done
    exact ⟨a, q, rfl, done⟩
  | error e q =>
    rw [ran] at done
    cases done

/-- An iteration that succeeds has made one step. -/
theorem steps_iterate {script : Array (List Int)} {ticks : Nat} {answer : Except Fault Unit}
    {p p' : PlainLoop} (done : (iterate script ticks answer).run p = .ok () p') :
    p'.steps = p.steps + 1 := by
  obtain ⟨_, p₁, ticked, done⟩ := run_bind_eq_ok done
  obtain ⟨_, p₂, polled, done⟩ := run_bind_eq_ok done
  obtain ⟨_, p₃, stepped, presented⟩ := run_bind_eq_ok done
  have same : p₁.steps = p.steps := by
    cases ticked
    rfl
  have polling : Keeps (fun q => q.steps = p.steps) (poll script) :=
    keeps_poll script fun _ _ _ kept => kept
  have after := polling.of_ok same polled
  have last := (keeps_present (fun q => q.steps = p₃.steps) answer).of_ok rfl presented
  rw [step_run] at stepped
  split at stepped
  · cases stepped
  · cases stepped
    rw [last, after]

/-- A loop that succeeds has made a step in each iteration. -/
theorem steps_loop {script : Array (List Int)} {beats : List (Nat × Except Fault Unit)}
    {p p' : PlainLoop} (done : (loop script beats).run p = .ok () p') :
    p'.steps = p.steps + beats.length := by
  induction beats generalizing p with
  | nil =>
    cases done
    rfl
  | cons beat rest ih =>
    obtain ⟨_, q, iterated, looped⟩ := run_bind_eq_ok done
    rw [ih looped, steps_iterate iterated, List.length_cons]
    omega

end PlainLoop

end ChipEight
