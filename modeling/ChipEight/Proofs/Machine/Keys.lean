import ChipEight.Datum
import ChipEight.Proofs.Machine.Access
import Mathlib.Data.Finset.Basic
import Mathlib.Data.Finset.Lattice.Lemmas
import Mathlib.Data.List.TakeWhile
import Mathlib.Order.Bounds.Basic

/-!
# The keypad as a set of keys

A keypad is a set of numbers below sixteen: the keys that are pressed. Keys are pressed, released
and assigned, one by one or many at once, and any integer may be given for a key. `Change.onSet`
says what a change does to the set, and `Change.answer` whether it succeeds, which does not depend
on the set. A key that the keypad does not have is a fault. It changes nothing, but an update has
released all keys by then and pressed those that stand before the invalid one.

`keypad_is_key_set` says that the keypad and the set go together through any list of changes, and
that all questions about the keypad are answered from the set.
-/

namespace ChipEight

namespace Keypad

/-! ## Changes of a set of keys -/

/-- The numbers that name a key. -/
def IsKey (key : Int) : Prop := 0 ≤ key ∧ key < 16

instance (key : Int) : Decidable (IsKey key) := inferInstanceAs (Decidable (_ ∧ _))

/-- What is done to a keypad. -/
inductive Change where
  | press (key : Int)
  | release (key : Int)
  /-- A key is set by a value, which is taken for a condition. -/
  | assign (key : Int) (value : Datum)
  | releaseAll
  | update (keys : List Int)

/-- The answer to a list of keys: the first invalid one is a fault. -/
def answerTo (keys : List Int) : Except Fault Unit :=
  match keys.find? fun key => ¬IsKey key with
  | none => .ok ()
  | some key => .error (.invalidKey key none)

namespace Change

/-- What a change answers. -/
def answer : Change → Except Fault Unit
  | .press key | .release key | .assign key _ => answerTo [key]
  | .releaseAll => .ok ()
  | .update keys => answerTo keys

/-- The set of keys after a change. -/
def onSet (s : Finset Int) : Change → Finset Int
  | .press key => if IsKey key then insert key s else s
  | .release key => if IsKey key then s.erase key else s
  | .assign key value =>
    if IsKey key then if value.isTruthy then insert key s else s.erase key else s
  | .releaseAll => ∅
  | .update keys => (keys.takeWhile fun key => IsKey key).toFinset

/-- The end of a change that leaves the keypad alone if it fails. -/
def settle (k : Keypad) : Except Fault Keypad → Except Fault Unit × Keypad
  | .ok k => (.ok (), k)
  | .error e => (.error e, k)

/-- What an update answers, and the keypad that it leaves behind. -/
def ofResult : EStateM.Result Fault Keypad Unit → Except Fault Unit × Keypad
  | .ok _ k => (.ok (), k)
  | .error e k => (.error e, k)

/-- What a change of a keypad answers, and the keypad that it leaves behind. -/
def run (k : Keypad) : Change → Except Fault Unit × Keypad
  | .press key => settle k (k.press key)
  | .release key => settle k (k.release key)
  | .assign key value => settle k (k.set key value.isTruthy)
  | .releaseAll => (.ok (), .released)
  | .update keys => ofResult ((Keypad.update keys).run k)

end Change

/-- The keypad after a list of changes. -/
def after (k : Keypad) (changes : List Change) : Keypad :=
  changes.foldl (fun k (change : Change) => (change.run k).2) k

/-- The set of keys after a list of changes. -/
def keysAfter (s : Finset Int) (changes : List Change) : Finset Int :=
  changes.foldl Change.onSet s

/-- A keypad holds down the keys of a set. -/
def Holds (k : Keypad) (s : Finset Int) : Prop := ∀ key, key ∈ s ↔ k.isDown key = true

variable {k : Keypad} {s : Finset Int} {key : Int}

/-! ## One key -/

theorem exists_key? (valid : IsKey key) : ∃ i : Fin 16, key? key = some i ∧ key = i.val :=
  ⟨_, dif_pos valid, by simpa using valid.1⟩

theorem key?_eq_none (invalid : ¬IsKey key) : key? key = none := dif_neg invalid

theorem key?_val (i : Fin 16) : key? i.val = some i := by
  have valid : 0 ≤ (i.val : Int) ∧ (i.val : Int) < 16 := by omega
  rw [key?, dif_pos valid]
  rfl

theorem isDown_val (k : Keypad) (i : Fin 16) : k.isDown i.val = k.keys.get i := by
  rw [isDown, key?_val, Option.any_some]

theorem isKey_of_isDown (down : k.isDown key = true) : IsKey key := by
  by_contra invalid
  rw [isDown, key?_eq_none invalid] at down
  cases down

theorem isDown_withKey (k : Keypad) (i : Fin 16) (pressed : Bool) (key : Int) :
    (k.withKey i pressed).isDown key = if key = i.val then pressed else k.isDown key := by
  by_cases valid : IsKey key
  · obtain ⟨j, -, rfl⟩ := exists_key? valid
    have set : (k.keys.set i.val pressed (digit_lt i)).get j =
        if i.val = j.val then pressed else k.keys.get j :=
      Vector.getElem_set (digit_lt i) (digit_lt j)
    rw [isDown_val, isDown_val, withKey, set]
    exact if_congr (by omega) rfl rfl
  · have other : key ≠ i.val := by
      rintro rfl
      exact valid (by unfold IsKey; omega)
    rw [if_neg other, isDown, isDown, key?_eq_none valid]
    rfl

/-- Setting a key that the keypad has. -/
theorem Holds.set (holds : k.Holds s) (valid : IsKey key) (pressed : Bool) :
    ∃ k', k.set key pressed = .ok k' ∧
      k'.Holds (if pressed then insert key s else s.erase key) := by
  obtain ⟨i, found, rfl⟩ := exists_key? valid
  refine ⟨k.withKey i pressed, by rw [Keypad.set, found], fun other => ?_⟩
  rw [isDown_withKey]
  by_cases same : other = i.val
  · cases pressed <;> simp [same]
  · cases pressed <;> simp [same, holds other]

/-- A key that the keypad does not have cannot be set. -/
theorem set_of_invalid (k : Keypad) (invalid : ¬IsKey key) (pressed : Bool) :
    k.set key pressed = .error (.invalidKey key none) := by
  rw [Keypad.set, key?_eq_none invalid]

theorem answerTo_singleton (key : Int) :
    answerTo [key] = if IsKey key then .ok () else .error (.invalidKey key none) := by
  by_cases valid : IsKey key <;> simp [answerTo, valid]

/-- Setting a key does to the keypad what it does to the set, and fails if there is no such key. -/
theorem Holds.settle_set (holds : k.Holds s) (key : Int) (pressed : Bool) :
    ∃ k', Change.settle k (k.set key pressed) = (answerTo [key], k') ∧
      k'.Holds (if IsKey key then if pressed then insert key s else s.erase key else s) := by
  rw [answerTo_singleton]
  by_cases valid : IsKey key
  · obtain ⟨k', done, holds'⟩ := holds.set valid pressed
    rw [done, if_pos valid, if_pos valid]
    exact ⟨k', rfl, holds'⟩
  · rw [k.set_of_invalid valid, if_neg valid, if_neg valid]
    exact ⟨k, rfl, holds⟩

/-! ## Many keys -/

theorem holds_released : released.Holds ∅ := by
  intro key
  by_cases valid : IsKey key
  · obtain ⟨i, -, rfl⟩ := exists_key? valid
    have up : released.keys.get i = false := Vector.getElem_replicate (digit_lt i)
    rw [isDown_val, up]
    simp
  · rw [isDown, key?_eq_none valid]
    simp

theorem pressAll_cons_run (k : Keypad) (key : Int) (rest : List Int) :
    (pressAll (key :: rest)).run k =
      match k.press key with
      | .ok k' => (pressAll rest).run k'
      | .error e => .error e k := by
  rw [pressAll, EStateM.run_bind, EStateM.run_get]
  dsimp only
  cases k.press key <;> rfl

/-- **Pressing keys one after the other** adds those before the first invalid one to the set. -/
theorem Holds.pressAll (holds : k.Holds s) (keys : List Int) :
    ∃ k', Change.ofResult ((Keypad.pressAll keys).run k) = (answerTo keys, k') ∧
      k'.Holds (s ∪ (keys.takeWhile fun key => IsKey key).toFinset) := by
  induction keys generalizing k s with
  | nil => exact ⟨k, rfl, by simpa using holds⟩
  | cons key rest ih =>
    rw [pressAll_cons_run]
    by_cases valid : IsKey key
    · obtain ⟨k', pressed, held⟩ := holds.set valid true
      obtain ⟨k'', answered, held'⟩ := ih held
      have answer : answerTo (key :: rest) = answerTo rest := by
        simp only [answerTo, List.find?_cons, valid, not_true, decide_false]
      have keys : s ∪ ((key :: rest).takeWhile fun key => IsKey key).toFinset =
          insert key s ∪ (rest.takeWhile fun key => IsKey key).toFinset := by
        simp only [List.takeWhile_cons, valid, decide_true, if_true, List.toFinset_cons,
          Finset.union_insert, Finset.insert_union]
      rw [press, pressed, answer, keys]
      exact ⟨k'', answered, held'⟩
    · have answer : answerTo (key :: rest) = .error (.invalidKey key none) := by
        simp only [answerTo, List.find?_cons, valid, not_false_eq_true, decide_true]
      have keys : ((key :: rest).takeWhile fun key => IsKey key) = [] := by
        simp only [List.takeWhile_cons, valid, decide_false, Bool.false_eq_true, if_false]
      rw [press, k.set_of_invalid valid, answer, keys, List.toFinset_nil, Finset.union_empty]
      exact ⟨k, rfl, holds⟩

/-- An update puts the keys before the first invalid one on the keypad, whatever was pressed. -/
theorem update_run (k : Keypad) (keys : List Int) :
    ∃ k', Change.ofResult ((update keys).run k) = (answerTo keys, k') ∧
      k'.Holds (keys.takeWhile fun key => IsKey key).toFinset := by
  obtain ⟨k', answered, held⟩ := holds_released.pressAll keys
  rw [Finset.empty_union] at held
  exact ⟨k', answered, held⟩

/-- Keys among which one is invalid: the first of these is the fault. -/
theorem answerTo_eq_error_iff {keys : List Int} {e : Fault} :
    answerTo keys = .error e ↔
      ∃ key, (keys.find? fun key => ¬IsKey key) = some key ∧ e = .invalidKey key none := by
  unfold answerTo
  cases keys.find? fun key => ¬IsKey key with
  | none => simp
  | some key => simp [eq_comm]

theorem answerTo_eq_ok_iff {keys : List Int} :
    answerTo keys = .ok () ↔ ∀ key ∈ keys, IsKey key := by
  unfold answerTo
  cases found : keys.find? fun key => ¬IsKey key with
  | none => simpa using found
  | some key =>
    refine iff_of_false nofun fun valid => ?_
    have invalid := List.find?_some found
    rw [decide_eq_true_iff] at invalid
    exact invalid (valid key (List.mem_of_find?_eq_some found))

/-- **Every change does to the keypad what it does to the set**, and answers alike. -/
theorem Holds.run (holds : k.Holds s) (change : Change) :
    (change.run k).1 = change.answer ∧ (change.run k).2.Holds (change.onSet s) := by
  cases change with
  | press key =>
    obtain ⟨k', settled, held⟩ := holds.settle_set key true
    rw [Change.run, press, settled]
    exact ⟨rfl, held⟩
  | release key =>
    obtain ⟨k', settled, held⟩ := holds.settle_set key false
    rw [Change.run, release, settled]
    exact ⟨rfl, held⟩
  | assign key value =>
    obtain ⟨k', settled, held⟩ := holds.settle_set key value.isTruthy
    rw [Change.run, settled]
    exact ⟨rfl, held⟩
  | releaseAll => exact ⟨rfl, holds_released⟩
  | update keys =>
    obtain ⟨k', answered, held⟩ := k.update_run keys
    rw [Change.run, answered]
    exact ⟨rfl, held⟩

theorem Holds.after (holds : k.Holds s) (changes : List Change) :
    (k.after changes).Holds (keysAfter s changes) := by
  induction changes generalizing k s with
  | nil => exact holds
  | cons change rest ih => exact ih (holds.run change).2

/-! ## Questions -/

/-- What a keypad answers, told from the set of keys that it holds down. -/
structure Tells (k : Keypad) (s : Finset Int) : Prop where
  isKey : ∀ key ∈ s, IsKey key
  increasing : (k.pressed.map fun i => (i.val : Int)).Pairwise (· < ·)
  pressed : ∀ key, key ∈ (k.pressed.map fun i => (i.val : Int)) ↔ key ∈ s
  isPressed : ∀ key pc, k.isPressed key pc =
    if IsKey key then .ok (decide (key ∈ s)) else .error (.invalidKey key pc)
  firstPressed : ∀ key, (k.firstPressed.map fun i => (i.val : Int)) = some key ↔
    IsLeast (s : Set Int) key
  noPressed : k.firstPressed = none ↔ s = ∅

theorem firstPressed_eq_head? (k : Keypad) : k.firstPressed = k.pressed.head? :=
  List.head?_filter.symm

/-- The pressed keys stand in increasing order. -/
theorem pairwise_pressed (k : Keypad) : k.pressed.Pairwise (· < ·) :=
  (List.pairwise_lt_finRange 16).filter _

/-- The key that is found first is the smallest of those that are pressed. -/
theorem exists_firstPressed {k : Keypad} (held : k.pressed ≠ []) :
    ∃ key ∈ k.pressed, (∀ other ∈ k.pressed, key ≤ other) ∧ k.firstPressed = some key := by
  have increasing := k.pairwise_pressed
  rw [firstPressed_eq_head?]
  cases pressed : k.pressed with
  | nil => exact absurd pressed held
  | cons key rest =>
    rw [pressed] at increasing
    refine ⟨key, List.mem_cons_self, fun other among => ?_, rfl⟩
    rcases List.mem_cons.mp among with rfl | later
    · exact Fin.le_refl _
    · exact Fin.le_of_lt (List.rel_of_pairwise_cons increasing later)

theorem Holds.mem_pressed (holds : k.Holds s) (key : Int) :
    key ∈ (k.pressed.map fun i => (i.val : Int)) ↔ key ∈ s := by
  rw [holds key, List.mem_map]
  constructor
  · rintro ⟨i, among, rfl⟩
    rw [isDown_val]
    exact (List.mem_filter.mp among).2
  · intro down
    obtain ⟨i, -, rfl⟩ := exists_key? (isKey_of_isDown down)
    rw [isDown_val] at down
    exact ⟨i, List.mem_filter.mpr ⟨List.mem_finRange i, down⟩, rfl⟩

/-- The first key is the least one, if there is any. -/
theorem Holds.first (holds : k.Holds s) :
    k.firstPressed = none ∧ s = ∅ ∨
      ∃ i, k.firstPressed = some i ∧ IsLeast (s : Set Int) i.val := by
  by_cases held : k.pressed = []
  · refine .inl ⟨by rw [firstPressed_eq_head?, held, List.head?_nil], ?_⟩
    refine Finset.eq_empty_of_forall_notMem fun key among => ?_
    have pressed := (holds.mem_pressed key).mpr among
    rw [held] at pressed
    cases pressed
  · obtain ⟨i, among, least, found⟩ := exists_firstPressed held
    have member : (i.val : Int) ∈ s := (holds.mem_pressed _).mp (List.mem_map_of_mem among)
    refine .inr ⟨i, found, member, fun key other => ?_⟩
    obtain ⟨j, pressed, rfl⟩ := List.mem_map.mp ((holds.mem_pressed key).mpr other)
    exact Int.ofNat_le.mpr (least j pressed)

theorem Holds.tells (holds : k.Holds s) : k.Tells s where
  isKey key among := isKey_of_isDown ((holds key).mp among)
  increasing := k.pairwise_pressed.map _ fun _ _ less => Int.ofNat_lt.mpr less
  pressed := holds.mem_pressed
  isPressed key pc := by
    rw [isPressed_eq_raiseOr, keyFault?]
    by_cases valid : IsKey key
    · obtain ⟨i, found, -⟩ := exists_key? valid
      have down : decide (key ∈ s) = k.isDown key := by
        rw [Bool.eq_iff_iff, decide_eq_true_iff, holds key]
      rw [found, if_pos valid, down]
      rfl
    · rw [key?_eq_none valid, if_neg valid]
      rfl
  firstPressed key := by
    rcases holds.first with ⟨none, rfl⟩ | ⟨i, found, least⟩
    · rw [none]
      exact iff_of_false (by simp) fun least => absurd least.1 (by simp)
    · rw [found, Option.map_some, Option.some.injEq]
      exact ⟨fun same => same ▸ least, fun other => least.unique other⟩
  noPressed := by
    rcases holds.first with ⟨none, rfl⟩ | ⟨i, found, least⟩
    · exact iff_of_true none rfl
    · refine iff_of_false (by simp [found]) fun empty => ?_
      rw [empty] at least
      exact absurd least.1 (by simp)

/-- **A keypad is a set of keys.** After any changes of a new keypad, all its answers come from the
set that the same changes make of the empty set; the next change answers what it answers for any
set, and leaves the keypad of the changed set behind. An update by valid keys makes the set of just
these keys, whatever their order, how often they stand there, and what was pressed before. -/
theorem keypad_is_key_set (changes : List Change) :
    (released.after changes).Tells (keysAfter ∅ changes) ∧
      (∀ change : Change, (change.run (released.after changes)).1 = change.answer ∧
        (change.run (released.after changes)).2.Tells (keysAfter ∅ (changes ++ [change]))) ∧
      ∀ keys : List Int, (∀ key ∈ keys, IsKey key) →
        (Change.update keys).answer = .ok () ∧
          keysAfter ∅ (changes ++ [.update keys]) = keys.toFinset := by
  have holds := holds_released.after changes
  have next (change : Change) :
      keysAfter ∅ (changes ++ [change]) = change.onSet (keysAfter ∅ changes) := by
    rw [keysAfter, List.foldl_append]
    rfl
  refine ⟨holds.tells, fun change => ?_, fun keys valid => ⟨?_, ?_⟩⟩
  · obtain ⟨answered, held⟩ := holds.run change
    exact ⟨answered, (next change).symm ▸ held.tells⟩
  · have none : keys.find? (fun key => ¬IsKey key) = none := by simpa using valid
    rw [Change.answer, answerTo, none]
  · rw [next, Change.onSet, List.takeWhile_eq_self_iff.mpr (by simpa using valid)]

/-- Keys are pressed, among them one that does not exist, a key is set by an empty text, and an
update stops at an invalid key. Then the keys 4 and 9 are given, one of them twice. -/
theorem keypad_is_key_set_updated :
    let changes : List Change :=
      [.press 3, .press (-1), .release 16, .assign 3 (.text ""), .update [7, 2, 16, 5]]
    (∀ key ∈ ([9, 4, 9] : List Int), IsKey key) ∧ keysAfter ∅ changes = {2, 7} ∧
      (released.after changes).isPressed 7 none = .ok true ∧
      (released.after changes).isPressed 5 none = .ok false ∧
      keysAfter ∅ (changes ++ [.update [9, 4, 9]]) = {4, 9} := by
  intro changes
  have valid : ∀ key ∈ ([9, 4, 9] : List Int), IsKey key := by decide
  have keys : keysAfter ∅ changes = {2, 7} := by decide
  obtain ⟨tells, -, updated⟩ := keypad_is_key_set changes
  rw [keys] at tells
  exact ⟨valid, keys, tells.isPressed 7 none, tells.isPressed 5 none, (updated [9, 4, 9] valid).2⟩

end Keypad

end ChipEight
