import ChipEight.Proofs.Session.Mirrors

/-!
# The trail of a run

What a run leaves behind it: the readings of the clock with which its turns begin, and the
instructions that are carried out in them (`Run.obeyed`). `Trail` relates both to the run that is
left, however it ends; `loop_trail` says that the turns of a run leave a trail. What every turn
keeps is proved for whole runs by an induction over trails.
-/

namespace ChipEight

namespace Run

variable {σ : Type}

/-- The run that an action leaves behind, whether it succeeds or fails. -/
def left : EStateM.Result Fault (Run σ) α → Run σ
  | .ok _ r => r
  | .error _ r => r

section

variable (w : World σ) (bounds : Bounds)

/-- The instruction that is carried out in a turn, if there is one. -/
def carried? (r : Run σ) : Option Instruction :=
  match limitReached bounds (r.entered w) (r.reading w), ((r.entered w).polling w).answer with
  | none, .ok true =>
    if (r.attended w).session.machine.fault?.isNone then (r.attended w).session.machine.instruction?
    else none
  | _, _ => none

/-- The instructions that a run carries out in its turns. -/
def obeyed : Nat → Run σ → List Instruction
  | 0, _ => []
  | turns + 1, r =>
    if r.session.running then
      (r.carried? w bounds).toList ++
        match (turn w bounds).run r with
        | .ok none r => obeyed turns r
        | _ => []
    else []

/-- **A trail**: the readings of the clock at the beginnings of turns, the instructions that are
carried out in them, and the run that they leave. -/
inductive Trail : Run σ → List Int → List Instruction → Run σ → Prop where
  | halt (r : Run σ) : Trail r [] [] r
  | turn {r r' : Run σ} {readings : List Int} {instructions : List Instruction}
      {result : EStateM.Result Fault (Run σ) (Option StopReason)}
      (turned : Turned w bounds r result)
      (rest : Trail (left result) readings instructions r') :
      Trail r (r.reading w :: readings) ((r.carried? w bounds).toList ++ instructions) r'

/-- **The turns of a run leave a trail.** -/
theorem loop_trail (turns : Nat) (r : Run σ) :
    Trail w bounds r (r.course w bounds turns).readings (r.obeyed w bounds turns)
      (left ((loop w bounds turns).run r)) := by
  induction turns generalizing r with
  | zero => exact .halt r
  | succ turns ih =>
    have turned := turned w bounds r
    rw [loop_succ_run]
    unfold course obeyed
    cases r.session.running with
    | false => exact .halt r
    | true =>
      simp only [if_true]
      cases ran : (Run.turn w bounds).run r with
      | error e r' =>
        rw [ran] at turned
        exact .turn turned (.halt r')
      | ok reason? r' =>
        rw [ran] at turned
        cases reason? with
        | some reason => exact .turn turned (.halt r')
        | none => exact .turn turned (ih r')

end

variable {w : World σ} {bounds : Bounds} {r : Run σ}
  {result : EStateM.Result Fault (Run σ) (Option StopReason)}

/-- What a turn leaves of the clock: its accumulator and its last reading are those of its
beginning. -/
theorem Turned.clock (turned : Turned w bounds r result) :
    (left result).session.ticker = (r.entered w).session.ticker ∧
      (left result).last = r.reading w ∧
      (left result).counts.ticks = (r.entered w).counts.ticks := by
  cases turned with
  | waitFailed _ _ _ journal | completed _ _ _ journal =>
    exact ⟨completed_ticker r journal, rfl, rfl⟩
  | _ => exact ⟨rfl, rfl, rfl⟩

/-- What no part of a turn changes in the world is the same after a turn, however it ends. -/
theorem Turned.kept {α : Type} {f : σ → α} (turned : Turned w bounds r result)
    (keeps : w.AtPolls f id) : f (left result).session.world = f r.session.world := by
  cases turned with
  | limit => exact keeps.readClock _
  | quit => exact keeps.attended r
  | pollFailed => exact keeps.attended r
  | stepFailed => exact keeps.attended r
  | presentFailed => exact (keeps.present _ _).trans (keeps.attended r)
  | waitFailed _ _ _ journal | completed _ _ _ journal => exact keeps.completed r journal

/-- A turn that meets nothing in its way carries out the instruction at the program counter. -/
theorem carried?_of_clear (within : limitReached bounds (r.entered w) (r.reading w) = none)
    (goes : ((r.entered w).polling w).answer = .ok true)
    (clear : (r.attended w).session.machine.fault? = none) :
    ∃ i, r.carried? w bounds = some i ∧
      (r.attended w).session.machine.instruction? = some i ∧
      (r.attended w).session.machine.next =
        { (r.attended w).session.machine.change i with
          executed := (r.attended w).session.machine.executed + 1 } := by
  obtain ⟨i, here, -, changed⟩ := Machine.instruction_of_fault? clear
  have carried : r.carried? w bounds = (r.attended w).session.machine.instruction? := by
    rw [carried?, within, goes, clear]
    rfl
  exact ⟨i, carried.trans here, here, changed⟩

/-- What a turn leaves of the timers: they have ticked, and the instruction that was carried out may
have set one. -/
theorem Turned.timers (turned : Turned w bounds r result) :
    (left result).session.machine.timers =
      match r.carried? w bounds with
      | some i => (r.attended w).session.machine.timersAfter i
      | none => (r.entered w).session.machine.timers := by
  cases turned with
  | limit reached => rw [carried?, reached]; rfl
  | quit within quits => rw [carried?, within, quits]; rfl
  | pollFailed within failed => rw [carried?, within, failed]; rfl
  | stepFailed within goes met => rw [carried?, within, goes, met]; rfl
  | presentFailed within goes clear journal failed =>
    obtain ⟨i, carried, -, changed⟩ := carried?_of_clear within goes clear
    have kept : (((r.attended w).stepped journal).presented w).session.machine.timers =
        (r.attended w).session.machine.next.timers := rfl
    rw [carried, left, kept, changed, Machine.change_eq]
  | waitFailed within goes clear journal | completed within goes clear journal =>
    obtain ⟨i, carried, -, changed⟩ := carried?_of_clear within goes clear
    have whole : (((r.attended w).stepped journal).served w).paced w (r.reading w) =
        r.completed w journal := rfl
    rw [carried, left, whole, completed_machine, changed, Machine.change_eq]

end Run

namespace Session

variable {σ : Type}

def obeyed (w : World σ) (bounds : Bounds) (turns : Nat) (s : Session σ) : List Instruction :=
  (s.begun w).obeyed w bounds turns

/-- A run that finished left a trail, and was closed after it. -/
theorem run_trail {w : World σ} {bounds : Bounds} {turns : Nat} {s s' : Session σ}
    {answer : Except Fault RunStats} (finished : s.run w bounds turns = some (answer, s')) :
    ∃ r journal, s' = (r.session.closed w).withJournal journal ∧
      Run.Trail w bounds (s.begun w) ((s.begun w).course w bounds turns).readings
        (s.obeyed w bounds turns) r := by
  have trail := Run.loop_trail w bounds turns (s.begun w)
  obtain ⟨r, journal, closed, ⟨reason, elapsed, ran, -⟩ | ⟨e, ran, -⟩⟩ := run_cases finished
  · rw [ran] at trail
    exact ⟨r, journal, closed, trail⟩
  · rw [ran] at trail
    exact ⟨r, journal, closed, trail⟩

end Session

end ChipEight
