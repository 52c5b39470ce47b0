import ChipEight.Host.Headless
import ChipEight.Proofs.Machine.Keys

/-!
# The replay of a script

A scripted input puts one entry of its script on the keypad at every poll, holds the last entry, and
asks to quit after a number of polls. Between two polls the keypad may be changed in any way, so
that every poll finds a keypad of its own; its answer does not depend on it
(`ScriptedInput.poll_answer`).

Only a poll that goes on is counted. The others leave the input as it was, and every poll after them
answers the same (`ScriptedInput.answers_of_settled`): an input that asks to quit keeps asking, and
an entry with an invalid key is not passed over. `ScriptedInput.Replays` says what a poll does after
so many polls that went on, and `script_is_replayed` that it does, whatever happened before.
-/

namespace ChipEight

namespace ScriptedInput

variable {input : ScriptedInput}

/-! ## One poll -/

theorem isOver_iff :
    input.isOver = true ↔ ∃ limit ∈ input.quitAfter, limit ≤ (input.polls : Int) := by
  unfold isOver
  cases input.quitAfter <;> simp

theorem poll_of_isOver (past : input.isOver = true) (keypad : Keypad) :
    input.poll keypad = ⟨.ok false, keypad, false, input⟩ := by
  unfold poll
  exact if_pos past

/-- A poll that goes on is counted, and no other is. -/
theorem poll_cases (input : ScriptedInput) (keypad : Keypad) :
    match (input.poll keypad).answer with
    | .ok goesOn =>
      input.isOver = !goesOn ∧
        (input.poll keypad).world =
          if goesOn then { input with polls := input.polls + 1 } else input
    | .error _ => input.isOver = false ∧ (input.poll keypad).world = input := by
  cases past : input.isOver with
  | true =>
    rw [poll_of_isOver past]
    exact ⟨rfl, rfl⟩
  | false =>
    unfold poll
    rw [if_neg (by rw [past]; decide)]
    cases input.entry? with
    | none => exact ⟨rfl, rfl⟩
    | some keys =>
      dsimp only
      cases (Keypad.update keys).run keypad with
      | ok _ keypad => exact ⟨rfl, rfl⟩
      | error e keypad => exact ⟨rfl, rfl⟩

/-- What a poll answers: that of pressing the keys of its entry, unless it asks to quit. -/
def answer (input : ScriptedInput) : Except Fault Bool :=
  if input.isOver then .ok false
  else (Keypad.answerTo (Option.getD input.entry? [])).map fun _ => true

/-- A poll puts the keys of its entry on the keypad. -/
theorem poll_of_entry {keys : List Int} (going : input.isOver = false)
    (entry : input.entry? = some keys) (keypad : Keypad) :
    ∃ k', k'.Holds (keys.takeWhile fun key => Keypad.IsKey key).toFinset ∧
      (input.poll keypad).keypad = k' ∧
      (input.poll keypad).answer = (Keypad.answerTo keys).map fun _ => true := by
  obtain ⟨k', answered, held⟩ := keypad.update_run keys
  refine ⟨k', held, ?_⟩
  unfold poll
  rw [going, if_neg Bool.false_ne_true, entry]
  dsimp only
  cases updated : (Keypad.update keys).run keypad with
  | ok _ _ | error _ _ =>
    rw [updated] at answered
    obtain ⟨answered, pressed⟩ := Prod.mk.inj answered
    rw [← answered, ← pressed]
    exact ⟨rfl, rfl⟩

/-- A poll without an entry leaves the keypad alone. -/
theorem poll_of_no_entry (going : input.isOver = false) (entry : input.entry? = none)
    (keypad : Keypad) :
    (input.poll keypad).keypad = keypad ∧ (input.poll keypad).answer = .ok true := by
  unfold poll
  rw [going, if_neg Bool.false_ne_true, entry]
  exact ⟨rfl, rfl⟩

/-- The keypad has no say in what a poll answers. -/
theorem poll_answer (input : ScriptedInput) (keypad : Keypad) :
    (input.poll keypad).answer = input.answer := by
  unfold answer
  cases past : input.isOver with
  | true => rw [poll_of_isOver past, if_pos rfl]
  | false =>
    rw [if_neg Bool.false_ne_true]
    cases entry : input.entry? with
    | none => exact (poll_of_no_entry past entry keypad).2
    | some keys =>
      obtain ⟨_, -, -, answered⟩ := poll_of_entry past entry keypad
      exact answered

/-- When a poll asks to quit. -/
theorem answer_eq_quit_iff :
    input.answer = .ok false ↔ ∃ limit ∈ input.quitAfter, limit ≤ (input.polls : Int) := by
  rw [← isOver_iff, answer]
  cases input.isOver with
  | true => simp
  | false =>
    rw [if_neg Bool.false_ne_true]
    cases Keypad.answerTo (Option.getD input.entry? []) with
    | ok _ | error _ => exact iff_of_false nofun Bool.false_ne_true

/-- When a poll fails. -/
theorem answer_eq_error_iff {e : Fault} :
    input.answer = .error e ↔
      (∀ limit ∈ input.quitAfter, (input.polls : Int) < limit) ∧
        ∃ keys, input.entry? = some keys ∧ Keypad.answerTo keys = .error e := by
  have going : (∀ limit ∈ input.quitAfter, (input.polls : Int) < limit) ↔ input.isOver = false := by
    rw [← Bool.not_eq_true, isOver_iff]
    simp
  rw [going, answer]
  cases input.isOver with
  | true => exact iff_of_false nofun fun h => Bool.noConfusion h.1
  | false =>
    rw [if_neg Bool.false_ne_true]
    cases input.entry? with
    | none => exact iff_of_false nofun nofun
    | some keys =>
      simp only [Option.getD_some, Option.some.injEq, exists_eq_left', true_and]
      cases Keypad.answerTo keys with
      | ok _ => exact iff_of_false nofun nofun
      | error e' => simp [Except.map]

/-- A poll that goes on leaves exactly the keys of its entry pressed, if there is an entry. -/
theorem poll_keypad (goesOn : input.answer = .ok true) (keypad : Keypad) :
    input.entry? = none ∧ (input.poll keypad).keypad = keypad ∨
      ∃ keys, input.entry? = some keys ∧ (∀ key ∈ keys, Keypad.IsKey key) ∧
        (input.poll keypad).keypad.Holds keys.toFinset := by
  have going : input.isOver = false := by
    rw [← Bool.not_eq_true, isOver_iff, ← answer_eq_quit_iff, goesOn]
    simp
  cases entry : input.entry? with
  | none => exact .inl ⟨rfl, (poll_of_no_entry going entry keypad).1⟩
  | some keys =>
    obtain ⟨_, held, rfl, answered⟩ := poll_of_entry going entry keypad
    rw [poll_answer, goesOn] at answered
    have valid : ∀ key ∈ keys, Keypad.IsKey key := by
      rw [← Keypad.answerTo_eq_ok_iff]
      cases accepted : Keypad.answerTo keys with
      | ok _ => rfl
      | error e =>
        rw [accepted] at answered
        cases answered
    rw [List.takeWhile_eq_self_iff.mpr (by simpa using valid)] at held
    exact .inr ⟨keys, rfl, valid, held⟩

/-! ## Polls one after the other -/

/-- The input after polls that each found a keypad of its own. -/
def after (input : ScriptedInput) (keypads : List Keypad) : ScriptedInput :=
  keypads.foldl (fun input keypad => (input.poll keypad).world) input

/-- The answers to such polls. -/
def answers (input : ScriptedInput) : List Keypad → List (Except Fault Bool)
  | [] => []
  | keypad :: rest => (input.poll keypad).answer :: answers (input.poll keypad).world rest

/-- A poll leaves the script and the limit alone, and counts if it goes on. -/
theorem poll_world (input : ScriptedInput) (keypad : Keypad) :
    (input.poll keypad).world =
      if input.answer = .ok true then { input with polls := input.polls + 1 } else input := by
  have counted := input.poll_cases keypad
  rw [← input.poll_answer keypad]
  cases said : (input.poll keypad).answer with
  | error e =>
    rw [said] at counted
    exact counted.2
  | ok goesOn =>
    rw [said] at counted
    rw [counted.2]
    cases goesOn <;> rfl

/-- **An input that does not go on has come to rest**: all further polls answer the same. -/
theorem answers_of_settled (settled : input.answer ≠ .ok true) (keypads : List Keypad) :
    input.answers keypads = keypads.map fun _ => input.answer := by
  induction keypads with
  | nil => rfl
  | cons keypad rest ih =>
    rw [answers, poll_world, if_neg settled, ih, poll_answer, List.map_cons]

/-- **The polls that went on are counted**, and nothing else changes. -/
theorem after_eq (input : ScriptedInput) (keypads : List Keypad) :
    input.after keypads =
      { input with polls := input.polls + (input.answers keypads).count (.ok true) } := by
  induction keypads generalizing input with
  | nil => rfl
  | cons keypad rest ih =>
    have step : input.after (keypad :: rest) = (input.poll keypad).world.after rest := rfl
    rw [step, ih, answers, List.count_cons, poll_answer, poll_world]
    by_cases goesOn : input.answer = .ok true
    · simp only [goesOn, if_true, beq_self_eq_true, mk.injEq, true_and]
      omega
    · simp only [goesOn, if_false, beq_iff_eq, Nat.add_zero]

/-- **What a poll of a replayed script does** after so many polls that went on. -/
structure Replays (script : List (List Int)) (quitAfter : Option Int) (answered : Nat)
    (keypad : Keypad) (polled : Polled ScriptedInput) : Prop where
  /-- A poll that goes on is counted, and exactly the keys of its entry are pressed after it. The
  last entry is held; without a script the keypad is left alone. -/
  goesOn : polled.answer = .ok true → polled.world.polls = answered + 1 ∧
    (script = [] ∧ polled.keypad = keypad ∨
      ∃ keys, script[min answered (script.length - 1)]? = some keys ∧
        (∀ key ∈ keys, Keypad.IsKey key) ∧ polled.keypad.Holds keys.toFinset)
  /-- When the input asks to quit. -/
  quits : polled.answer = .ok false ↔ ∃ limit ∈ quitAfter, limit ≤ (answered : Int)
  /-- It changes nothing then, and keeps asking. -/
  quitting : polled.answer = .ok false → polled.keypad = keypad ∧ polled.world.polls = answered ∧
    ∀ later, polled.world.answers later = later.map fun _ => .ok false
  /-- When a poll fails: at an entry with an invalid key, of which the first is the fault. -/
  fails : ∀ e, polled.answer = .error e ↔
    (∀ limit ∈ quitAfter, (answered : Int) < limit) ∧
      ∃ keys, script[min answered (script.length - 1)]? = some keys ∧
        ∃ key, (keys.find? fun key => ¬Keypad.IsKey key) = some key ∧ e = .invalidKey key none
  /-- The entry is not passed over, so that all further polls fail alike. -/
  failing : ∀ e, polled.answer = .error e → polled.world.polls = answered ∧
    ∀ later, polled.world.answers later = later.map fun _ => .error e

/-- A poll does what a replay does after as many polls as were counted. -/
theorem replays_poll (input : ScriptedInput) (keypad : Keypad) :
    Replays input.script.toList input.quitAfter input.polls keypad (input.poll keypad) := by
  have entry : input.script.toList[min input.polls (input.script.toList.length - 1)]? =
      input.entry? := by
    unfold entry?
    rw [Array.length_toList, Array.getElem?_toList]
  have settled {answer : Except Fault Bool} (said : (input.poll keypad).answer = answer)
      (other : answer ≠ .ok true) : (input.poll keypad).world = input ∧
        ∀ later, input.answers later = later.map fun _ => answer := by
    rw [poll_answer] at said
    subst said
    exact ⟨by rw [poll_world, if_neg other], answers_of_settled other⟩
  constructor
  case goesOn =>
    intro said
    rw [poll_answer] at said
    rw [poll_world, if_pos said]
    refine ⟨rfl, ?_⟩
    rcases poll_keypad said keypad with ⟨none, kept⟩ | ⟨keys, found, pressed⟩
    · rw [← entry, List.getElem?_eq_none_iff] at none
      exact .inl ⟨List.length_eq_zero_iff.mp (by omega), kept⟩
    · exact .inr ⟨keys, entry.trans found, pressed⟩
  case quits => rw [poll_answer, answer_eq_quit_iff]
  case quitting =>
    intro said
    obtain ⟨world, later⟩ := settled said (by simp)
    rw [poll_answer, answer_eq_quit_iff, ← isOver_iff] at said
    exact ⟨by rw [poll_of_isOver said], by rw [world], by rwa [world]⟩
  case fails =>
    intro e
    simp only [poll_answer, answer_eq_error_iff, entry, Keypad.answerTo_eq_error_iff]
  case failing =>
    intro e said
    obtain ⟨world, later⟩ := settled said nofun
    exact ⟨by rw [world], by rwa [world]⟩

/-- **A script is replayed.** Whatever keypads the polls before found, the next poll does what a
replay does after those of them that went on. -/
theorem script_is_replayed (script : List (List Int)) (quitAfter : Option Int)
    (before : List Keypad) (keypad : Keypad) :
    Replays script quitAfter ((answers (make script quitAfter) before).count (.ok true)) keypad
      (((make script quitAfter).after before).poll keypad) := by
  have replayed := replays_poll ((make script quitAfter).after before) keypad
  rw [after_eq] at replayed ⊢
  have none : (make script quitAfter).polls = 0 := rfl
  rw [none, Nat.zero_add] at replayed ⊢
  exact replayed

/-- Key 3 is pressed, then an entry with an invalid key is met twice. -/
theorem script_is_replayed_stuck :
    let input := make [[3], [7, 20], [4]] (some 9)
    let before := [Keypad.released.withKey 5 true, .released]
    (answers input before).count (.ok true) = 1 ∧
      (answers input before).getLast? = some (.error (.invalidKey 20 none)) ∧
      ∀ later, ((input.after before).poll .released).world.answers later =
        later.map fun _ => .error (.invalidKey 20 none) := by
  intro input before
  have said : ((input.after before).poll .released).answer = .error (.invalidKey 20 none) := by
    decide
  exact ⟨by decide, by decide,
    ((script_is_replayed [[3], [7, 20], [4]] (some 9) before .released).failing _ said).2⟩

end ScriptedInput

end ChipEight
