import ChipEight.Proofs.Session.Reasons
import ChipEight.Proofs.Session.Scene
import ChipEight.Proofs.Session.Trail
import Mathlib.Algebra.Order.Ring.Nat

/-!
# Unseen timers

A session makes a number of steps in several runs, cut wherever one likes, at any frequency and with
any clock. What there is to see of it is a scene, and its turns play that scene: what the clock does
to the timers is all that the scene leaves open. So two sessions that show the same scene and make
the same number of steps show the same scene in the end, or meet the same fault on the way, unless
the program reads the delay timer (`timers_stay_unseen`).

A run may be broken off in a wait, which is a matter of the clock alone: the time that is left of a
period may be no binary number of seconds, and the system may refuse the wait. Such a run has made
fewer steps than it was given (`series_broken_by_clock`), and the rest of them are made in a further
one.
-/

namespace ChipEight

section

variable {σ : Type} {w : World σ} {host : σ → Host} {calm : σ → Prop} {p : Scene}

/-- **A session shows a scene** on its headless host. Its audio is not part of the scene. -/
structure Session.Shows (host : σ → Host) (s : Session σ) (p : Scene) : Prop where
  machine : s.machine.untimed = p.machine
  headless : ∃ audio, host s.world = .headless ⟨p.display, p.input, audio⟩

/-- What changes the timers at most shows the same scene. -/
theorem Session.Shows.of_same {s s' : Session σ} (shows : s.Shows host p)
    (machine : s'.machine.untimed = s.machine.untimed) (world : host s'.world = host s.world) :
    s'.Shows host p where
  machine := machine.trans shows.machine
  headless := shows.headless.imp fun _ => world.trans

theorem Session.Shows.keypad {s : Session σ} (shows : s.Shows host p) :
    s.machine.keypad = p.machine.keypad := by
  rw [← shows.machine]
  rfl

namespace Run

variable {r r' : Run σ} {n m : Nat}

/-- The poll of a turn is the poll of the scene. -/
theorem shows_attended (hosts : w.Hosts host) (shows : r.session.Shows host p) :
    ((r.entered w).polling w).answer = p.polling.answer ∧
      (r.attended w).session.Shows host p.polled := by
  have same := shows.keypad
  obtain ⟨machine, audio, headless⟩ := shows
  obtain ⟨answer, keypad, world⟩ := entered_polling_headless hosts headless
  rw [same] at answer keypad world
  have attended : (r.attended w).session.machine.untimed =
      { r.session.machine.untimed with keypad := ((r.entered w).polling w).keypad } := rfl
  refine ⟨answer, ?_, audio, world⟩
  rw [attended, keypad, machine]
  rfl

/-- A turn that is completed plays the scene, with the timers as its step finds them. -/
theorem shows_completed (hosts : w.Hosts host) (shows : r.session.Shows host p) (plain : p.Plain)
    (journal : Journal) :
    (((r.attended w).stepped journal).presenting w).answer = .ok () ∧
      (r.completed w journal).session.Shows host
        (p.next (r.attended w).session.machine.timers) := by
  obtain ⟨-, attended, -⟩ := shows_attended hosts shows
  have same := shows.keypad
  obtain ⟨-, audio, headless⟩ := shows
  obtain ⟨files, audio, answer, shown, left⟩ := completed_headless hosts headless journal
  obtain ⟨done, screen, display, -⟩ :=
    FrameRecorder.present_of_bare plain.bare (r.attended w).session.machine.next.screen files
  have stepped : p.stepped (r.attended w).session.machine.timers =
      (r.attended w).session.machine.next := by
    rw [Scene.stepped, ← attended]
    rfl
  refine ⟨answer.trans done, ?_, audio, ?_⟩
  · rw [completed_machine, shown, screen, Scene.next, stepped]
  · rw [left, display, Scene.next, stepped, same]
    rfl

/-- Is a run broken off in the wait of one of its turns? -/
def breaksOff (w : World σ) (bounds : Bounds) : Nat → Run σ → Bool
  | 0, _ => false
  | turns + 1, r =>
    if r.session.running then
      match r.worked w bounds with
      | .ok none r' =>
        match (r'.pacing w (r.reading w)).answer with
        | .ok _ => breaksOff w bounds turns (r'.paced w (r.reading w))
        | .error _ => true
      | _ => false
    else false

theorem limitReached_steps (now : Int) :
    limitReached ⟨some (n : Int), none⟩ r now =
      if n ≤ r.counts.steps then some .maxSteps else none := by
  simp [limitReached]

/-- **What the work of a turn plays**, with `m` steps ahead of the limit. It rests if there are none;
otherwise it plays a turn of the scene, which the wait after it leaves alone, or it fails as the
scene does. -/
theorem shows_worked (hosts : w.Hosts host) (shows : r.session.Shows host p) (plain : p.Plain)
    (ahead : r.counts.steps + m = n) :
    match r.worked w ⟨some (n : Int), none⟩ with
    | .ok (some _) r' =>
      m = 0 ∧ r.carried? w ⟨some (n : Int), none⟩ = none ∧ r'.session.Shows host p
    | .ok none r' =>
      p.fault? = none ∧ ∃ i timers, p.instruction? = some i ∧
        r.carried? w ⟨some (n : Int), none⟩ = some i ∧
        (r'.paced w (r.reading w)).session.Shows host (p.next timers) ∧
        (r'.paced w (r.reading w)).session.running = (r.session.running && !r.asks w) ∧
        ∃ rest, m = rest + 1 ∧ r'.counts.steps + rest = n
    | .error e r' =>
      p.fault? = some e ∧ 0 < m ∧ r.carried? w ⟨some (n : Int), none⟩ = none ∧
        r'.session.Shows host p.polled := by
  obtain ⟨answer, attended⟩ := shows_attended hosts shows
  have fault : p.polled.machine.fault? = (r.attended w).session.machine.fault? := by
    rw [← attended.machine, Machine.fault?_untimed]
  have limit : limitReached ⟨some (n : Int), none⟩ (r.entered w) (r.reading w) =
      if m = 0 then some .maxSteps else none := by
    have steps : (r.entered w).counts.steps = r.counts.steps := rfl
    rw [limitReached_steps, steps]
    exact if_congr (by omega) rfl rfl
  have more (within : limitReached ⟨some (n : Int), none⟩ (r.entered w) (r.reading w) = none) :
      0 < m := by
    by_cases zero : m = 0
    · rw [limit, if_pos zero] at within
      cases within
    · exact Nat.pos_of_ne_zero zero
  have whole := worked_attempted w ⟨some (n : Int), none⟩ r
  generalize r.worked w ⟨some (n : Int), none⟩ = result at whole
  cases whole with
  | limit reached =>
    refine ⟨?_, by rw [carried?, reached], shows.of_same rfl (hosts.readClock _)⟩
    by_cases zero : m = 0
    · exact zero
    · rw [limit, if_neg zero] at reached
      cases reached
  | quit _ quits =>
    -- The script has no end, so the input never asks to quit.
    exact absurd (answer.symm.trans quits) (ScriptedInput.poll_of_endless plain.endless _).1
  | pollFailed within failed =>
    refine ⟨?_, more within, by rw [carried?, within, failed], attended⟩
    rw [Scene.fault?, ← answer, failed]
  | stepFailed within goes met journal =>
    refine ⟨?_, more within, ?_, attended.of_same rfl rfl⟩
    · rw [Scene.fault?, ← answer, goes]
      exact fault.trans met
    · rw [carried?, within, goes, met]
      rfl
  | presentFailed _ _ _ journal failed =>
    -- A display without a directory does not fail.
    obtain ⟨shown, -⟩ := shows_completed hosts shows plain journal
    cases shown.symm.trans failed
  | waitFailed _ _ _ _ _ failed => cases failed
  | completed within goes clear journal shown =>
    obtain ⟨i, carried, here, -⟩ := carried?_of_clear within goes clear
    obtain ⟨-, completed⟩ := shows_completed hosts shows plain journal
    obtain ⟨rest, rfl⟩ : ∃ rest, m = rest + 1 := Nat.exists_eq_add_one.mpr (more within)
    refine ⟨?_, i, _, ?_, carried, completed, completed_running r journal, rest, rfl, ?_⟩
    · rw [Scene.fault?, ← answer, goes]
      exact fault.trans clear
    · rw [Scene.instruction?, ← attended.machine, Machine.instruction?_untimed]
      exact here
    · have counted : (((r.attended w).stepped journal).served w).counts.steps =
          r.counts.steps + 1 := rfl
      rw [counted]
      omega

end Run

/-- **A session has enacted a scene**: so many turns of it were played, or fewer before a fault, and
the session shows what they come to. -/
def Session.Enacted (host : σ → Host) (calm : σ → Prop) (p : Scene) (n : Nat)
    (instructions : List Instruction) (fault : Option Fault) (s : Session σ) : Prop :=
  ∃ q, p.Plays instructions fault q ∧ Scene.Complete n instructions fault ∧ q.Plain ∧
    s.Shows host q ∧ calm s.world

theorem Session.Enacted.turn {n : Nat} {i : Instruction} {instructions : List Instruction}
    {fault : Option Fault} {s : Session σ} {timers : Timers} (clear : p.fault? = none)
    (reads : p.instruction? = some i)
    (enacted : s.Enacted host calm (p.next timers) n instructions fault) :
    s.Enacted host calm p (n + 1) (i :: instructions) fault := by
  obtain ⟨q, plays, complete, shown⟩ := enacted
  exact ⟨q, .turn timers clear reads plays, Scene.complete_cons.mpr complete, shown⟩

/-- **What a run with a limit of steps enacts**: so many turns, or fewer before a fault. If it is
broken off in a wait, it enacts the turns up to that one. -/
def Session.EnactedUpTo (host : σ → Host) (calm : σ → Prop) (p : Scene) (n : Nat)
    (instructions : List Instruction) (fault : Option Fault) (s : Session σ) : Bool → Prop
  | false => s.Enacted host calm p n instructions fault
  | true => 0 < instructions.length ∧ instructions.length ≤ n ∧
    s.Enacted host calm p instructions.length instructions none

theorem Session.EnactedUpTo.length_le {n : Nat} {instructions : List Instruction}
    {fault : Option Fault} {s : Session σ} {broken : Bool}
    (enacted : s.EnactedUpTo host calm p n instructions fault broken) : instructions.length ≤ n := by
  cases broken with
  | true =>
    obtain ⟨-, few, -⟩ := enacted
    exact few
  | false =>
    obtain ⟨-, -, complete, -⟩ := enacted
    cases fault with
    | none => exact Nat.le_of_eq complete
    | some e => exact Nat.le_of_lt complete

theorem Session.EnactedUpTo.turn {n : Nat} {i : Instruction} {instructions : List Instruction}
    {fault : Option Fault} {s : Session σ} {timers : Timers} {broken : Bool}
    (enacted : s.EnactedUpTo host calm (p.next timers) n instructions fault broken)
    (clear : p.fault? = none) (reads : p.instruction? = some i) :
    s.EnactedUpTo host calm p (n + 1) (i :: instructions) fault broken := by
  cases broken with
  | false => exact Session.Enacted.turn clear reads enacted
  | true =>
    obtain ⟨-, few, enacted⟩ := enacted
    exact ⟨Nat.succ_pos _, Nat.succ_le_succ few, .turn clear reads enacted⟩

/-- The turns of a run with a limit of steps enact the scene that the run shows. -/
theorem Run.loop_enacted (hosts : w.Hosts host) (quiet : w.Calm calm) {n m : Nat} (turns : Nat)
    {r : Run σ} (shows : r.session.Shows host p) (plain : p.Plain) (here : calm r.session.world)
    (running : r.session.running = true) (ahead : r.counts.steps + m = n) :
    let instructions := r.obeyed w ⟨some (n : Int), none⟩ turns
    let broken := r.breaksOff w ⟨some (n : Int), none⟩ turns
    match (loop w ⟨some (n : Int), none⟩ turns).run r with
    | .ok none _ => True
    | .ok (some _) r' => r'.session.EnactedUpTo host calm p m instructions none broken
    | .error e r' => r'.session.EnactedUpTo host calm p m instructions (some e) broken := by
  -- A turn that is completed leaves one step less ahead, and the run at the scene's next turn.
  induction turns generalizing r p m with
  | zero => trivial
  | succ turns ih =>
    have kept := (turned w ⟨some (n : Int), none⟩ r).kept quiet.keeps
    have played := shows_worked hosts shows plain ahead
    rw [loop_succ_run, obeyed, breaksOff, running]
    rw [turn_run] at kept ⊢
    simp only [if_true]
    cases worked : r.worked w ⟨some (n : Int), none⟩ with
    | error e r' =>
      rw [worked] at played kept
      obtain ⟨met, more, carried, shows⟩ := played
      rw [carried]
      exact ⟨p.polled, .fails met, more, plain.polled, shows, kept.mpr here⟩
    | ok reason? r' =>
      rw [worked] at played kept
      cases reason? with
      | some reason =>
        obtain ⟨rfl, carried, shows⟩ := played
        rw [carried]
        exact ⟨p, .rest p, rfl, plain, shows, kept.mpr here⟩
      | none =>
        obtain ⟨clear, i, timers, reads, carried, shows, goes, m, rfl, further⟩ := played
        rw [running, quiet.asks here] at goes
        rw [carried]
        cases waited : (r'.pacing w (r.reading w)).answer with
        | error e =>
          simp only [waited, Except.map, ended, left] at kept ⊢
          exact ⟨Nat.succ_pos _, Nat.succ_le_succ (Nat.zero_le m),
            .turn clear reads ⟨_, .rest _, rfl, plain.next timers, shows, kept.mpr here⟩⟩
        | ok _ =>
          simp only [waited, Except.map, ended, left] at kept ⊢
          have rest := ih shows (plain.next timers) (kept.mpr here) goes further
          cases looped : (loop w ⟨some (n : Int), none⟩ turns).run (r'.paced w (r.reading w)) with
          | error e r'' =>
            rw [looped] at rest
            exact rest.turn clear reads
          | ok reason? r'' =>
            rw [looped] at rest
            cases reason? with
            | none => trivial
            | some reason => exact rest.turn clear reads

namespace Session

variable {s s' : Session σ} {answer : Except Fault RunStats} {turns n : Nat}

/-- Is a run of a session broken off in a wait? -/
def breaksOff (w : World σ) (bounds : Bounds) (turns : Nat) (s : Session σ) : Bool :=
  (s.begun w).breaksOff w bounds turns

/-- **What a run with a limit of steps leaves of a scene.** If the scene met a fault, the run answers
with it. -/
theorem enacted_of_run (hosts : w.Hosts host) (quiet : w.Calm calm) (shows : s.Shows host p)
    (plain : p.Plain) (here : calm s.world)
    (finished : s.runFor w (some (n : Int)) none turns = some (answer, s')) :
    ∃ fault, s'.EnactedUpTo host calm p n (s.obeyed w ⟨some (n : Int), none⟩ turns) fault
        (s.breaksOff w ⟨some (n : Int), none⟩ turns) ∧
      ∀ e, fault = some e → answer = .error e := by
  have begun : (s.begun w).session.Shows host p := shows.of_same rfl (hosts.readClock _)
  have calmly : calm (s.begun w).session.world := (quiet.keeps.readClock _).mpr here
  have whole := Run.loop_enacted hosts quiet turns begun plain calmly rfl (Nat.zero_add n)
  have finished : s.run w ⟨some (n : Int), none⟩ turns = some (answer, s') := finished
  obtain ⟨r, journal, rfl, ran⟩ := run_cases finished
  have closed {fault : Option Fault} {instructions : List Instruction} {m : Nat}
      (enacted : r.session.Enacted host calm p m instructions fault) :
      ((r.session.closed w).withJournal journal).Enacted host calm p m instructions fault := by
    obtain ⟨q, plays, complete, plain, ⟨machine, audio, headless⟩, still⟩ := enacted
    obtain ⟨audio, hushed⟩ := closed_headless hosts headless
    exact ⟨q, plays, complete, plain, ⟨machine, audio, hushed⟩,
      (quiet.keeps.closed r.session).mpr still⟩
  have closedUpTo {fault : Option Fault} {instructions : List Instruction} {broken : Bool}
      (enacted : r.session.EnactedUpTo host calm p n instructions fault broken) :
      ((r.session.closed w).withJournal journal).EnactedUpTo host calm p n instructions fault
        broken := by
    cases broken with
    | false => exact closed enacted
    | true =>
      obtain ⟨some, few, enacted⟩ := enacted
      exact ⟨some, few, closed enacted⟩
  rcases ran with ⟨reason, elapsed, ran, -⟩ | ⟨e, ran, failed⟩
  · rw [ran] at whole
    exact ⟨none, closedUpTo whole, nofun⟩
  · rw [ran] at whole
    exact ⟨some e, closedUpTo whole, fun e' same => by rw [failed, Option.some.inj same]⟩

/-- **A session makes steps in several runs**, one for each number of a list, up to the first that
fails before it has made its steps. The instructions that are carried out are listed, and the fault
is given if there is one.

A run that made its steps counts as made whatever it answers: its report may fail after them, if the
clock shows a time that is no binary number of seconds. A run that is broken off in a wait counts
for the steps that it made, and the others are made in a further run. -/
inductive Series (w : World σ) :
    List Nat → Session σ → List Instruction → Option Fault → Session σ → Prop where
  | done (s : Session σ) : Series w [] s [] none s
  | went {n : Nat} {rest : List Nat} {s s' s'' : Session σ} {turns : Nat}
      {answer : Except Fault RunStats} {instructions : List Instruction} {fault : Option Fault}
      (finished : s.runFor w (some (n : Int)) none turns = some (answer, s'))
      (made : (s.obeyed w ⟨some (n : Int), none⟩ turns).length = n)
      (later : Series w rest s' instructions fault s'') :
      Series w (n :: rest) s (s.obeyed w ⟨some (n : Int), none⟩ turns ++ instructions) fault s''
  | brokenOff {n m : Nat} {rest : List Nat} {s s' s'' : Session σ} {turns : Nat}
      {answer : Except Fault RunStats} {instructions : List Instruction} {fault : Option Fault}
      (finished : s.runFor w (some (n : Int)) none turns = some (answer, s'))
      (broken : s.breaksOff w ⟨some (n : Int), none⟩ turns = true)
      (fewer : (s.obeyed w ⟨some (n : Int), none⟩ turns).length + m = n) (more : 0 < m)
      (later : Series w (m :: rest) s' instructions fault s'') :
      Series w (n :: rest) s (s.obeyed w ⟨some (n : Int), none⟩ turns ++ instructions) fault s''
  | failed {n : Nat} {rest : List Nat} {s s' : Session σ} {turns : Nat} {e : Fault}
      (finished : s.runFor w (some (n : Int)) none turns = some (.error e, s'))
      (unbroken : s.breaksOff w ⟨some (n : Int), none⟩ turns = false)
      (short : (s.obeyed w ⟨some (n : Int), none⟩ turns).length < n) :
      Series w (n :: rest) s (s.obeyed w ⟨some (n : Int), none⟩ turns) (some e) s'

/-- A scene that was enacted without a fault is enacted further from where it rests. -/
theorem Enacted.append {n m : Nat} {instructions instructions' : List Instruction}
    {fault : Option Fault} (first : s.Enacted host calm p n instructions none)
    (second : ∀ {q : Scene}, s.Shows host q → q.Plain → calm s.world →
      s'.Enacted host calm q m instructions' fault) :
    s'.Enacted host calm p (n + m) (instructions ++ instructions') fault := by
  obtain ⟨q, plays, made, plain, shows, here⟩ := first
  obtain ⟨q', plays', complete, shown⟩ := second shows plain here
  have made : instructions.length = n := made
  refine ⟨q', plays.append plays', ?_, shown⟩
  cases fault with
  | none =>
    have total : instructions'.length = m := complete
    rw [Scene.Complete, List.length_append, made, total]
  | some e =>
    have total : instructions'.length < m := complete
    rw [Scene.Complete, List.length_append, made]
    exact Nat.add_lt_add_left total n

/-- A run that carried out as many instructions as it was given has enacted them without a fault. -/
theorem EnactedUpTo.enacted_of_length {instructions : List Instruction} {fault : Option Fault}
    {broken : Bool} (enacted : s.EnactedUpTo host calm p n instructions fault broken)
    (made : instructions.length = n) : s.Enacted host calm p n instructions none := by
  cases broken with
  | true =>
    obtain ⟨-, -, enacted⟩ := enacted
    exact made ▸ enacted
  | false =>
    cases fault with
    | none => exact enacted
    | some e =>
      obtain ⟨-, -, complete, -⟩ := enacted
      exact absurd made (Nat.ne_of_lt complete)

/-- Several runs enact the scene that the session shows, as one run for all their steps would. -/
theorem Series.enacted {splits : List Nat} {instructions : List Instruction} {fault : Option Fault}
    (series : Series w splits s instructions fault s') (hosts : w.Hosts host) (quiet : w.Calm calm)
    (shows : s.Shows host p) (plain : p.Plain) (here : calm s.world) :
    s'.Enacted host calm p splits.sum instructions fault := by
  induction series generalizing p with
  | done s => exact ⟨p, .rest p, rfl, plain, shows, here⟩
  | went finished made _ ih =>
    obtain ⟨_, enacted, -⟩ := enacted_of_run hosts quiet shows plain here finished
    rw [List.sum_cons]
    exact (enacted.enacted_of_length made).append ih
  | brokenOff finished broken fewer _ _ ih =>
    obtain ⟨_, enacted, -⟩ := enacted_of_run hosts quiet shows plain here finished
    rw [broken] at enacted
    obtain ⟨-, -, enacted⟩ := enacted
    have whole := enacted.append ih
    rw [List.sum_cons, ← Nat.add_assoc, fewer] at whole
    rwa [List.sum_cons]
  | @failed n rest s s' turns e finished unbroken short =>
    obtain ⟨fault', enacted, answered⟩ := enacted_of_run hosts quiet shows plain here finished
    rw [unbroken] at enacted
    obtain ⟨q, plays, complete, shown⟩ := enacted
    cases fault' with
    | none => exact absurd complete (Nat.ne_of_lt short)
    | some e' =>
      cases answered e' rfl
      refine ⟨q, plays, ?_, shown⟩
      rw [Scene.Complete, List.sum_cons]
      exact Nat.lt_of_lt_of_le short (Nat.le_add_right n rest.sum)

/-- A session makes its steps in whatever runs they are cut. -/
theorem exists_series (hosts : w.Hosts host) (quiet : w.Calm calm) (splits : List Nat)
    (shows : s.Shows host p) (plain : p.Plain) (here : calm s.world) :
    ∃ instructions fault s', Series w splits s instructions fault s' := by
  induction splits generalizing s p with
  | nil => exact ⟨[], none, s, .done s⟩
  | cons n rest later =>
    -- A run that is broken off has made a step, so that fewer are left for the further run.
    induction n using Nat.strong_induction_on generalizing s p with
    | _ n further =>
    have ends : (s.runFor w (some (n : Int)) none (n + 1)).isSome :=
      isSome_run_of_steps rfl (by rw [Int.toNat_natCast]; exact Nat.lt_succ_self n)
    obtain ⟨⟨answer, s'⟩, finished⟩ := Option.isSome_iff_exists.mp ends
    obtain ⟨fault, enacted, answered⟩ := enacted_of_run hosts quiet shows plain here finished
    rcases Nat.lt_trichotomy (s.obeyed w ⟨some (n : Int), none⟩ (n + 1)).length n with
      short | made | beyond
    · cases broken : s.breaksOff w ⟨some (n : Int), none⟩ (n + 1) with
      | true =>
        rw [broken] at enacted
        obtain ⟨some, -, q, -, -, plain, shows, here⟩ := enacted
        obtain ⟨m, fewer⟩ := Nat.exists_eq_add_of_lt short
        obtain ⟨instructions, fault, s'', series⟩ :=
          further (m + 1) (by omega) shows plain here
        exact ⟨_, fault, s'', .brokenOff finished broken fewer.symm (Nat.succ_pos m) series⟩
      | false =>
        rw [broken] at enacted
        obtain ⟨-, -, complete, -⟩ := enacted
        cases fault with
        | none => exact absurd complete (Nat.ne_of_lt short)
        | some e =>
          cases answered e rfl
          exact ⟨_, some e, s', .failed finished broken short⟩
    · obtain ⟨q, -, -, plain, shows, here⟩ := enacted.enacted_of_length made
      obtain ⟨instructions, fault, s'', series⟩ := later shows plain here
      exact ⟨_, fault, s'', .went finished made series⟩
    · exact absurd beyond (Nat.not_lt.mpr enacted.length_le)

end Session

end

namespace Session

/-- **The timers are seen through the delay register alone.** Two sessions show the same scene, that
is, their machines differ in the timers at most, and their displays and inputs are the same. They
make the same number of steps, each at its own frequency, with its own clock, and in runs cut as it
likes. Both come to an end of that. Unless one of them has read the delay timer, they have carried
out the same instructions and show the same scene again, after all the steps or after the same fault
in the same step. -/
theorem timers_stay_unseen {σ τ : Type} {w : World σ} {w' : World τ} {host : σ → Host}
    {host' : τ → Host} {calm : σ → Prop} {calm' : τ → Prop} (hosts : w.Hosts host)
    (hosts' : w'.Hosts host') (quiet : w.Calm calm) (quiet' : w'.Calm calm') {s : Session σ}
    {s' : Session τ} (here : calm s.world) (here' : calm' s'.world) {p : Scene} (plain : p.Plain)
    (shows : s.Shows host p) (shows' : s'.Shows host' p) {splits splits' : List Nat}
    (total : splits.sum = splits'.sum) :
    (∃ instructions fault left, Series w splits s instructions fault left) ∧
    (∃ instructions fault left, Series w' splits' s' instructions fault left) ∧
    ∀ instructions fault left instructions' fault' left',
      Series w splits s instructions fault left →
      Series w' splits' s' instructions' fault' left' →
      (∀ x, .readDelay x ∉ instructions) →
      instructions = instructions' ∧ fault = fault' ∧
        (fault = none → instructions.length = splits.sum) ∧
        ∃ q, left.Shows host q ∧ left'.Shows host' q := by
  refine ⟨exists_series hosts quiet splits shows plain here,
    exists_series hosts' quiet' splits' shows' plain here', ?_⟩
  intro instructions fault left instructions' fault' left' series series' unread
  obtain ⟨q, plays, complete, -, shown, -⟩ := series.enacted hosts quiet shows plain here
  obtain ⟨q', plays', complete', -, shown', -⟩ :=
    series'.enacted hosts' quiet' shows' plain here'
  rw [← total] at complete'
  obtain ⟨rfl, rfl, rfl⟩ := plays.unique plays' complete complete' unread
  refine ⟨rfl, rfl, ?_, q, shown, shown'⟩
  rintro rfl
  exact complete

/-- A session on a stage. Its program sets the delay timer to random numbers for ever. -/
def brisk : Session Stage :=
  { brief with
    monitored :=
      ⟨{ Machine.loaded [0xC0, 0xFF, 0xF0, 0x15, 0x12, 0x00] with random := .cycling #[7, 100] },
        false, .empty⟩
    world := Stage.make (.headless { briefHost with input := .make [[3]] none }) .empty }

/-- The brisk session at twenty steps a second, with both timers running from the beginning, on a
stage whose clock moves by itself and jumps at the first poll. -/
def languid : Session Stage :=
  { brisk with
    monitored := ⟨{ brisk.machine with timers := ⟨200, 9⟩ }, false, .empty⟩
    ticker := ⟨30, 1000 * nanosPerMilli, 0⟩
    hertz := .ofInt 20
    period := 50000000
    world := { brisk.world with stride := 40000000, stalls := [(0, 700000000)] } }

/-- The brisk session makes three steps in one run, and the languid one makes them in two. They show
the same in the end, while their timers differ. -/
theorem timers_stay_unseen_languid :
    Stage.world.Hosts Stage.host ∧ Stage.world.Calm (fun x => x.stopAt = none) ∧
    ∃ p left left' instructions, p.Plain ∧ brisk.Shows Stage.host p ∧ languid.Shows Stage.host p ∧
      Series Stage.world [3] brisk instructions none left ∧
      Series Stage.world [1, 2] languid instructions none left' ∧
      left.machine.untimed = left'.machine.untimed ∧
      left.machine.timers ≠ left'.machine.timers := by
  let p : Scene :=
    ⟨brisk.machine.untimed, ⟨none, FrameRecorder.standardZoom, 0, 0, none⟩, .make [[3]] none⟩
  have plain : p.Plain := ⟨rfl, rfl⟩
  have shows : brisk.Shows Stage.host p := ⟨rfl, .silent, rfl⟩
  have shows' : languid.Shows Stage.host p := ⟨rfl, .silent, rfl⟩
  -- The number of turns is kept out of sight, or the runs are evaluated where they are compared.
  obtain ⟨turns, four⟩ : ∃ turns, turns = 4 := ⟨4, rfl⟩
  have whole : ((brisk.runFor Stage.world (some 3) none turns).map fun x =>
      (brisk.obeyed Stage.world ⟨some 3, none⟩ turns, x.2.machine.timers)) =
      some ([.random 0 0xFF, .setDelay 0, .jump 0x200], ⟨7, 0⟩) := by
    rw [four]
    decide +kernel
  have halves : ((languid.runFor Stage.world (some 1) none turns).bind fun x =>
      (x.2.runFor Stage.world (some 2) none turns).map fun y =>
        ((languid.obeyed Stage.world ⟨some 1, none⟩ turns).length,
          (x.2.obeyed Stage.world ⟨some 2, none⟩ turns).length, y.2.machine.timers)) =
      some (1, 2, ⟨2, 0⟩) := by
    rw [four]
    decide +kernel
  obtain ⟨⟨_, left⟩, finished, course⟩ := Option.map_eq_some_iff.mp whole
  obtain ⟨⟨_, between⟩, first, halves⟩ := Option.bind_eq_some_iff.mp halves
  obtain ⟨⟨_, left'⟩, second, course'⟩ := Option.map_eq_some_iff.mp halves
  simp only [Prod.mk.injEq] at course course'
  obtain ⟨obeyed, timers⟩ := course
  obtain ⟨one, two, timers'⟩ := course'
  have series : Series Stage.world [3] brisk
      (brisk.obeyed Stage.world ⟨some 3, none⟩ turns ++ []) none left :=
    .went finished (congrArg List.length obeyed) (.done left)
  have series' : Series Stage.world [1, 2] languid
      (languid.obeyed Stage.world ⟨some 1, none⟩ turns ++
        (between.obeyed Stage.world ⟨some 2, none⟩ turns ++ [])) none left' :=
    .went first one (.went second two (.done left'))
  have unread : ∀ x, .readDelay x ∉ brisk.obeyed Stage.world ⟨some 3, none⟩ turns ++ [] := by
    rw [obeyed]
    decide
  have total : [3].sum = [1, 2].sum := rfl
  have still : brisk.world.stopAt = none := rfl
  have still' : languid.world.stopAt = none := rfl
  obtain ⟨-, -, agree⟩ := timers_stay_unseen Stage.hosts Stage.hosts Stage.calm Stage.calm still
    still' plain shows shows' total
  obtain ⟨same, -, -, q, shown, shown'⟩ := agree _ _ _ _ _ _ series series' unread
  refine ⟨Stage.hosts, Stage.calm, p, left, left', _, plain, shows, shows', series,
    same ▸ series', shown.machine.trans shown'.machine.symm, ?_⟩
  rw [timers, timers']
  decide

/-- The brisk session on a stage whose clock jumps back at the first poll, so far that the time that
is left of the period is no binary number of seconds. -/
def jolted : Session Stage :=
  { brisk with world := { brisk.world with stalls := [(0, -10 ^ 320)] } }

/-- A run that is broken off in a wait falls short of its steps, where another run that shows the
same scene makes them all. -/
theorem series_broken_by_clock :
    ∃ p stats left left', p.Plain ∧ brisk.Shows Stage.host p ∧ jolted.Shows Stage.host p ∧
      brisk.runFor Stage.world (some 2) none 3 = some (.ok stats, left) ∧
      brisk.obeyed Stage.world ⟨some 2, none⟩ 3 = [.random 0 0xFF, .setDelay 0] ∧
      jolted.runFor Stage.world (some 2) none 3 = some (.error (.number .outOfRange), left') ∧
      jolted.obeyed Stage.world ⟨some 2, none⟩ 3 = [.random 0 0xFF] ∧
      left.machine.registers.pc ≠ left'.machine.registers.pc := by
  let p : Scene :=
    ⟨brisk.machine.untimed, ⟨none, FrameRecorder.standardZoom, 0, 0, none⟩, .make [[3]] none⟩
  have shows : brisk.Shows Stage.host p := ⟨rfl, .silent, rfl⟩
  have shows' : jolted.Shows Stage.host p := ⟨rfl, .silent, rfl⟩
  have whole : ((brisk.runFor Stage.world (some 2) none 3).map fun x =>
      (x.1.isOk, x.2.machine.registers.pc)) = some (true, 0x204) := by
    decide +kernel
  have broken : ((jolted.runFor Stage.world (some 2) none 3).map fun x =>
      (x.1.map fun _ => (), x.2.machine.registers.pc)) =
      some (.error (.number .outOfRange), 0x202) := by
    decide +kernel
  obtain ⟨⟨answer, left⟩, finished, course⟩ := Option.map_eq_some_iff.mp whole
  obtain ⟨⟨answer', left'⟩, finished', course'⟩ := Option.map_eq_some_iff.mp broken
  simp only [Prod.mk.injEq] at course course'
  obtain ⟨well, pc⟩ := course
  obtain ⟨ill, pc'⟩ := course'
  cases answer with
  | error e => cases well
  | ok stats =>
  cases answer' with
  | ok _ => cases ill
  | error e =>
  cases ill
  refine ⟨p, stats, left, left', ⟨rfl, rfl⟩, shows, shows', finished, by decide +kernel, finished',
    by decide +kernel, ?_⟩
  rw [pc, pc']
  decide

end Session

end ChipEight
