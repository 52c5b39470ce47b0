import ChipEight.Proofs.Machine.Untimed
import ChipEight.Proofs.Session.Headless

/-!
# Scenes

A scene is what there is to see of a session with a headless host: its machine without the timers,
the display and the input. A scene goes on in turns as a session does, but without a clock. The
timers come in at one place only: a turn begins with the timers at some value, whatever that is
(`Scene.next`). `Plays` leaves the value open in every turn.

`Plays.unique` says that it makes no difference for a program that does not read the delay timer.
-/

namespace ChipEight

/-- A machine with its timers at zero, a display and an input. -/
structure Scene where
  machine : Machine
  display : FrameRecorder
  input : ScriptedInput

/-- A display without a directory shows every screen, and the files do not matter to it. -/
theorem FrameRecorder.present_of_bare {d : FrameRecorder} (bare : d.directory = none)
    (screen : Screen) (files : FileTree) :
    (d.present screen files).answer = .ok () ∧
      (d.present screen files).screen = (d.present screen .empty).screen ∧
      (d.present screen files).world.1 = (d.present screen .empty).world.1 ∧
      (d.present screen files).world.1.directory = none := by
  unfold FrameRecorder.present
  simp only [bare]
  split
  · exact ⟨rfl, rfl, rfl, rfl⟩
  · exact ⟨rfl, rfl, rfl, rfl⟩

/-- An input that never asks to quit does not come to ask it. -/
theorem ScriptedInput.poll_of_endless {input : ScriptedInput} (endless : input.quitAfter = none)
    (keypad : Keypad) :
    (input.poll keypad).answer ≠ .ok false ∧ (input.poll keypad).world.quitAfter = none := by
  have going : input.isOver = false := by
    rw [isOver, endless]
    rfl
  have counted := input.poll_cases keypad
  rw [going] at counted
  cases said : (input.poll keypad).answer with
  | error e =>
    rw [said] at counted
    obtain ⟨-, world⟩ := counted
    rw [world]
    exact ⟨by simp, endless⟩
  | ok goesOn =>
    rw [said] at counted
    obtain ⟨past, world⟩ := counted
    cases goesOn with
    | false => cases past
    | true =>
      rw [world]
      exact ⟨by simp, endless⟩

namespace Scene

/-- **A scene is plain** when it writes no pictures and its script does not end. -/
structure Plain (p : Scene) : Prop where
  bare : p.display.directory = none
  endless : p.input.quitAfter = none

def polling (p : Scene) : Polled ScriptedInput := p.input.poll p.machine.keypad

def polled (p : Scene) : Scene :=
  ⟨{ p.machine with keypad := p.polling.keypad }, p.display, p.polling.world⟩

/-- The fault that a turn meets, in its poll or its step. -/
def fault? (p : Scene) : Option Fault :=
  match p.polling.answer with
  | .error e => some e
  | .ok _ => p.polled.machine.fault?

def instruction? (p : Scene) : Option Instruction := p.polled.machine.instruction?

/-- The machine after the step of a turn that finds the timers at some value. -/
def stepped (p : Scene) (timers : Timers) : Machine :=
  ({ p.polled.machine with timers := timers } : Machine).next

/-- The scene after a turn that finds the timers at some value. -/
def next (p : Scene) (timers : Timers) : Scene where
  machine :=
    ({ p.stepped timers with
      screen := (p.display.present (p.stepped timers).screen .empty).screen } : Machine).untimed
  display := (p.display.present (p.stepped timers).screen .empty).world.1
  input := p.polling.world

theorem Plain.polled {p : Scene} (plain : p.Plain) : p.polled.Plain where
  bare := plain.bare
  endless := (ScriptedInput.poll_of_endless plain.endless p.machine.keypad).2

theorem Plain.next {p : Scene} (plain : p.Plain) (timers : Timers) : (p.next timers).Plain where
  bare := (FrameRecorder.present_of_bare plain.bare _ .empty).2.2.2
  endless := plain.polled.endless

/-- A turn comes to the same scene whatever the timers are, unless it reads the delay timer. -/
theorem next_eq {p : Scene} (unread : ∀ x, p.instruction? ≠ some (.readDelay x))
    (timers timers' : Timers) : p.next timers = p.next timers' := by
  have same : (p.stepped timers).untimed = (p.stepped timers').untimed :=
    Machine.untimed_next_congr rfl unread
  have screen : (p.stepped timers).screen = (p.stepped timers').screen := by
    have same := congrArg Machine.screen same
    exact same
  unfold next
  rw [screen]
  have machine := congrArg (fun m : Machine => { m with
    screen := (p.display.present (p.stepped timers').screen .empty).screen }) same
  exact congrArg (Scene.mk · _ _) machine

/-- **A scene is played**: so many turns are made, their instructions are carried out, and then it
rests or fails. The timers may be at any value in any turn. -/
inductive Plays : Scene → List Instruction → Option Fault → Scene → Prop where
  | rest (p : Scene) : Plays p [] none p
  | fails {p : Scene} {e : Fault} (met : p.fault? = some e) : Plays p [] (some e) p.polled
  | turn {p q : Scene} {i : Instruction} {instructions : List Instruction} {fault : Option Fault}
      (timers : Timers) (clear : p.fault? = none) (here : p.instruction? = some i)
      (later : Plays (p.next timers) instructions fault q) : Plays p (i :: instructions) fault q

/-- A number of turns was made, or fewer before a fault. -/
def Complete (n : Nat) (instructions : List Instruction) : Option Fault → Prop
  | none => instructions.length = n
  | some _ => instructions.length < n

theorem Complete.pos {n : Nat} {instructions : List Instruction} {fault : Option Fault}
    (complete : Complete n instructions fault) (more : instructions ≠ [] ∨ fault ≠ none) :
    0 < n := by
  cases fault with
  | none =>
    have made := List.length_pos_iff.mpr (more.resolve_right (· rfl))
    exact Nat.lt_of_lt_of_eq made complete
  | some e => exact Nat.lt_of_le_of_lt (Nat.zero_le _) complete

theorem complete_cons {n : Nat} {i : Instruction} {instructions : List Instruction}
    {fault : Option Fault} :
    Complete (n + 1) (i :: instructions) fault ↔ Complete n instructions fault := by
  cases fault with
  | none => exact Nat.succ_inj
  | some e => exact Nat.succ_lt_succ_iff

namespace Plays

variable {p q q' : Scene} {instructions instructions' : List Instruction}
  {fault fault' : Option Fault}

/-- A play that rests goes on with a play from there. -/
theorem append (first : Plays p instructions none q) (second : Plays q instructions' fault q') :
    Plays p (instructions ++ instructions') fault q' := by
  generalize rests : (none : Option Fault) = none' at first
  induction first with
  | rest => exact second
  | fails => cases rests
  | turn timers clear here _ ih => exact .turn timers clear here (ih second rests)

/-- **A play is determined by its scene and the number of its turns**, unless it reads the delay
timer. -/
theorem unique {n : Nat} (first : Plays p instructions fault q)
    (second : Plays p instructions' fault' q') (complete : Complete n instructions fault)
    (complete' : Complete n instructions' fault') (unread : ∀ x, .readDelay x ∉ instructions) :
    instructions = instructions' ∧ fault = fault' ∧ q = q' := by
  -- Both plays are taken apart together. Where the first makes a turn the second has to make one:
  -- it cannot rest with turns ahead, nor fail in a scene that is clear.
  induction first generalizing n instructions' with
  | rest p =>
    have zero : n = 0 := complete.symm
    subst zero
    cases second with
    | rest => exact ⟨rfl, rfl, rfl⟩
    | fails => exact absurd (complete'.pos (.inr nofun)) (Nat.lt_irrefl 0)
    | turn => exact absurd (complete'.pos (.inl nofun)) (Nat.lt_irrefl 0)
  | @fails p e met =>
    cases second with
    | rest =>
      have zero : n = 0 := complete'.symm
      exact absurd (complete.pos (.inr nofun)) (by omega)
    | fails met' => exact ⟨rfl, met.symm.trans met', rfl⟩
    | turn _ clear => cases met.symm.trans clear
  | @turn p q i instructions fault timers clear here _ ih =>
    obtain ⟨m, rfl⟩ : ∃ m, n = m + 1 := Nat.exists_eq_add_one.mpr (complete.pos (.inl nofun))
    cases second with
    | rest => cases complete'
    | fails met => cases met.symm.trans clear
    | turn timers' _ here' later =>
      cases here.symm.trans here'
      have other (x : Fin 16) : p.instruction? ≠ some (.readDelay x) := fun reads => by
        cases here.symm.trans reads
        exact unread x List.mem_cons_self
      rw [next_eq other timers' timers] at later
      obtain ⟨rfl, rfl, rfl⟩ := ih later (complete_cons.mp complete) (complete_cons.mp complete')
        fun x found => unread x (List.mem_cons_of_mem _ found)
      exact ⟨rfl, rfl, rfl⟩

end Plays

end Scene

end ChipEight
