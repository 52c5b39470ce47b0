import ChipEight.Host.Window
import ChipEight.Proofs.Machine.Keys

/-!
# The keyboard of a window

Each key of the keypad has one place on the keyboard. A window is polled for what happened at the
keyboard since the last poll, in batches of events as they happen to come in.

The last event at the place of a key decides whether the key is pressed, and it makes no difference
how the events fell into batches (`keys_follow_last_events`). An event that asks to quit ends its
batch: those before it are taken in, and those after it are lost.
-/

namespace ChipEight

namespace WindowEvent

/-- **An event that asks to quit**: the window is closed, or the key that quits is pressed. -/
def Quits : WindowEvent → Prop
  | .quit => True
  | .keyDown code => code = Window.escapeCode
  | _ => False

instance (event : WindowEvent) : Decidable event.Quits :=
  match event with
  | .quit => .isTrue trivial
  | .keyDown code => inferInstanceAs (Decidable (code = _))
  | .keyUp _ | .other => .isFalse id

/-- Whether an event presses or releases a key of the keyboard. -/
def change? (code : Int) : WindowEvent → Option Bool
  | .keyDown place => if place = code then some true else none
  | .keyUp place => if place = code then some false else none
  | _ => none

/-- Whether the last event of a key of the keyboard pressed or released it. -/
def lastChange? (code : Int) (events : List WindowEvent) : Option Bool :=
  events.reverse.findSome? (change? code)

/-- Is an event one of a key of the keyboard that stands for a key of the keypad? -/
def isMapped : WindowEvent → Bool
  | .keyDown code | .keyUp code => (Window.keypadKey? code).isSome
  | _ => false

theorem lastChange?_concat (code : Int) (events : List WindowEvent) (event : WindowEvent) :
    lastChange? code (events ++ [event]) = (event.change? code).or (lastChange? code events) := by
  simp only [lastChange?, List.reverse_append, List.reverse_singleton, List.findSome?_append,
    List.findSome?_singleton]

end WindowEvent

namespace Window

variable {keypad : Keypad} {code key : Int} {events : List WindowEvent} {event : WindowEvent}

/-! ## The places of the keys -/

/-- Keys at different places are different, and different keys are at different places. -/
theorem keyMap_apart : ∀ entry ∈ keyMap, ∀ other ∈ keyMap,
    (entry.1 = other.1 ↔ entry.2 = other.2) := by
  decide

theorem keypadKey?_eq_some_iff : keypadKey? code = some key ↔ (code, key) ∈ keyMap := by
  have listed : ∀ entry ∈ keyMap, keypadKey? entry.1 = some entry.2 := by decide
  constructor
  · intro found
    obtain ⟨entry, first, rfl⟩ := Option.map_eq_some_iff.mp found
    obtain rfl : entry.1 = code := by simpa using List.find?_some first
    exact List.mem_of_find?_eq_some first
  · exact listed (code, key)

/-- **Each key of the keypad has one place on the keyboard.** -/
theorem existsUnique_code (valid : Keypad.IsKey key) : ∃! code, (code, key) ∈ keyMap := by
  have placed : ∀ i : Fin 16, ∃ entry ∈ keyMap, entry.2 = (i.val : Int) := by decide
  obtain ⟨i, -, rfl⟩ := Keypad.exists_key? valid
  obtain ⟨entry, among, same⟩ := placed i
  have here : (entry.1, (i.val : Int)) ∈ keyMap := same ▸ among
  exact ⟨entry.1, here, fun other there => (keyMap_apart _ there _ here).mpr rfl⟩

/-- Setting the key at a place sets that key only. -/
theorem isDown_setKey (among : (code, key) ∈ keyMap) (keypad : Keypad) (place : Int)
    (pressed : Bool) :
    (setKey keypad place pressed).isDown key =
      if place = code then pressed else keypad.isDown key := by
  unfold setKey
  cases found : keypadKey? place with
  | none =>
    have apart : place ≠ code := by
      rintro rfl
      cases found.symm.trans (keypadKey?_eq_some_iff.mpr among)
    rw [if_neg apart]
  | some other =>
    have there := keypadKey?_eq_some_iff.mp found
    have valid : ∀ entry ∈ keyMap, Keypad.IsKey entry.2 := by decide
    obtain ⟨i, numbered, rfl⟩ := Keypad.exists_key? (valid _ there)
    simp only [Keypad.set, numbered]
    rw [Keypad.isDown_withKey]
    exact if_congr (eq_comm.trans (keyMap_apart _ there _ among).symm) rfl rfl

/-! ## Events -/

/-- The keypad after an event that does not ask to quit. -/
def takeEvent (keypad : Keypad) : WindowEvent → Keypad
  | .keyDown code => setKey keypad code true
  | .keyUp code => setKey keypad code false
  | .quit | .other => keypad

/-- The keypad after events of which none asks to quit. -/
def keypadAfter (keypad : Keypad) (events : List WindowEvent) : Keypad :=
  events.foldl takeEvent keypad

theorem keypadAfter_append (keypad : Keypad) (first second : List WindowEvent) :
    keypadAfter keypad (first ++ second) = keypadAfter (keypadAfter keypad first) second :=
  List.foldl_append

/-- An event changes the key at its place, if there is one. -/
theorem isDown_takeEvent (among : (code, key) ∈ keyMap) (keypad : Keypad) (event : WindowEvent) :
    (takeEvent keypad event).isDown key = (event.change? code).getD (keypad.isDown key) := by
  cases event with
  | keyDown place | keyUp place =>
    rw [takeEvent, isDown_setKey among, WindowEvent.change?]
    split <;> rfl
  | quit | other => rfl

theorem takeEvent_of_not_isMapped (unmapped : event.isMapped = false) (keypad : Keypad) :
    takeEvent keypad event = keypad := by
  cases event with
  | keyDown place | keyUp place =>
    have none : keypadKey? place = none := by simpa [WindowEvent.isMapped] using unmapped
    rw [takeEvent, setKey, none]
  | quit | other => rfl

/-- **The last event at the place of a key decides**, and without one the key stays as it was. -/
theorem isDown_keypadAfter (among : (code, key) ∈ keyMap) (keypad : Keypad)
    (events : List WindowEvent) :
    (keypadAfter keypad events).isDown key =
      (WindowEvent.lastChange? code events).getD (keypad.isDown key) := by
  induction events using List.reverseRecOn with
  | nil => rfl
  | append_singleton events event ih =>
    have last : (keypadAfter keypad (events ++ [event])).isDown key =
        (event.change? code).getD ((keypadAfter keypad events).isDown key) := by
      rw [keypadAfter_append]
      exact isDown_takeEvent among _ event
    rw [last, WindowEvent.lastChange?_concat, ih]
    cases event.change? code <;> rfl

/-- Other events than those of the keys make no difference. -/
theorem keypadAfter_filter (keypad : Keypad) (events : List WindowEvent) :
    keypadAfter keypad (events.filter WindowEvent.isMapped) = keypadAfter keypad events := by
  induction events generalizing keypad with
  | nil => rfl
  | cons event rest ih =>
    cases mapped : event.isMapped with
    | true =>
      rw [List.filter_cons_of_pos mapped]
      exact ih (takeEvent keypad event)
    | false =>
      rw [List.filter_cons_of_neg (by simp [mapped]), ih]
      exact congrArg (keypadAfter · rest) (takeEvent_of_not_isMapped mapped keypad).symm

/-! ## Batches -/

theorem takeEvents_cons (stays : ¬event.Quits) (keypad : Keypad) (rest : List WindowEvent) :
    takeEvents keypad (event :: rest) = takeEvents (takeEvent keypad event) rest := by
  cases event with
  | keyDown code => exact if_neg stays
  | quit => exact absurd trivial stays
  | keyUp _ | other => rfl

/-- Events of which none asks to quit are taken in before those after them. -/
theorem takeEvents_append (stay : ∀ event ∈ events, ¬event.Quits) (keypad : Keypad)
    (rest : List WindowEvent) :
    takeEvents keypad (events ++ rest) = takeEvents (keypadAfter keypad events) rest := by
  induction events generalizing keypad with
  | nil => rfl
  | cons event events ih =>
    rw [List.cons_append, takeEvents_cons (stay event List.mem_cons_self)]
    exact ih (fun later among => stay later (List.mem_cons_of_mem _ among)) (takeEvent keypad event)

theorem takeEvents_eq (stay : ∀ event ∈ events, ¬event.Quits) (keypad : Keypad) :
    takeEvents keypad events = (true, keypadAfter keypad events) := by
  rw [← List.append_nil events, takeEvents_append stay, List.append_nil]
  rfl

/-- An event that asks to quit ends its batch. -/
theorem takeEvents_of_quits (quits : event.Quits) (keypad : Keypad) (rest : List WindowEvent) :
    takeEvents keypad (event :: rest) = (false, keypad) := by
  cases event with
  | quit => rfl
  | keyDown code => exact if_pos quits
  | keyUp _ | other => exact quits.elim

/-- Polls the window for one batch of events after the other: the answers, and the keypad that is
left in the end. -/
def pollAll (w : Window) (keypad : Keypad) :
    List (List WindowEvent) → Except Fault (List Bool × Keypad)
  | [] => .ok ([], keypad)
  | events :: rest => do
    let (goesOn, keypad) ← w.poll events keypad
    let (answers, keypad) ← w.pollAll keypad rest
    return (goesOn :: answers, keypad)

theorem poll_eq {w : Window} (opened : w.desktop.displayOpen = true) (events : List WindowEvent)
    (keypad : Keypad) : w.poll events keypad = .ok (takeEvents keypad events) :=
  if_pos opened

/-- **Batches are taken in as if they were one**, if no event in them asks to quit. -/
theorem pollAll_eq {w : Window} (opened : w.desktop.displayOpen = true)
    {batches : List (List WindowEvent)} (stay : ∀ event ∈ batches.flatten, ¬event.Quits)
    (keypad : Keypad) :
    w.pollAll keypad batches =
      .ok (batches.map fun _ => true, keypadAfter keypad batches.flatten) := by
  induction batches generalizing keypad with
  | nil => rfl
  | cons events rest ih =>
    rw [List.flatten_cons] at stay
    have first :=
      takeEvents_eq (fun event among => stay event (List.mem_append_left _ among)) keypad
    have later := ih (fun event among => stay event (List.mem_append_right _ among))
      (keypadAfter keypad events)
    rw [List.flatten_cons, keypadAfter_append]
    simp only [pollAll, poll_eq opened, first, bind, Except.bind, later]
    rfl

/-- **Keys follow the last events at their places.** Each key of the keypad has one place on the
keyboard. If no event asks to quit, then however the events fall into batches, every poll goes on,
and in the end a key is pressed exactly if the last event at its place pressed it, or if there is
none and it was pressed before; the other events make no difference. A batch in which an event asks
to quit ends there, with the events before it taken in. -/
theorem keys_follow_last_events {w : Window} (opened : w.desktop.displayOpen = true) :
    (∀ key, Keypad.IsKey key → ∃! code, (code, key) ∈ keyMap) ∧
    (∀ (keypad : Keypad) (events : List WindowEvent), (∀ event ∈ events, ¬event.Quits) →
      ∃ after : Keypad,
        (∀ batches : List (List WindowEvent), batches.flatten = events →
          w.pollAll keypad batches = .ok (batches.map fun _ => true, after)) ∧
        w.poll (events.filter WindowEvent.isMapped) keypad = .ok (true, after) ∧
        ∀ code key, (code, key) ∈ keyMap →
          after.isDown key =
            (WindowEvent.lastChange? code events).getD (keypad.isDown key)) ∧
    ∀ (keypad : Keypad) (before : List WindowEvent) (event : WindowEvent)
      (later : List WindowEvent), (∀ event ∈ before, ¬event.Quits) → event.Quits →
      ∃ after, w.poll before keypad = .ok (true, after) ∧
        w.poll (before ++ event :: later) keypad = .ok (false, after) := by
  refine ⟨fun key => existsUnique_code, fun keypad events stay => ?_, ?_⟩
  · refine ⟨keypadAfter keypad events, ?_, ?_, fun code key among =>
      isDown_keypadAfter among keypad events⟩
    · rintro batches rfl
      exact pollAll_eq opened stay keypad
    · have kept : takeEvents keypad (events.filter WindowEvent.isMapped) =
          (true, keypadAfter keypad (events.filter WindowEvent.isMapped)) :=
        takeEvents_eq (fun event among => stay event (List.mem_filter.mp among).1) keypad
      rw [poll_eq opened, kept, keypadAfter_filter]
  · intro keypad before event later stay quits
    refine ⟨keypadAfter keypad before, ?_, ?_⟩
    · rw [poll_eq opened, takeEvents_eq stay]
    · rw [poll_eq opened, takeEvents_append stay, takeEvents_of_quits quits]

/-- The key 5 is pressed in one batch and released in another, and the key 7 stays pressed; the
release of the key that quits is nothing. When that key is pressed, the release of the key 7 behind
it is lost. -/
theorem keys_follow_last_events_escape :
    let w : Window := {
      desktop := { Desktop.standard with displayOpen := true }
      width := 640
      height := 320
      drawn := none
      limiter := ⟨.zero false, none⟩
      audio := ⟨⟨100, 1⟩, false⟩ }
    w.desktop.displayOpen = true ∧
      (∃ after : Keypad,
        w.pollAll .released [[.keyDown 119, .other], [], [.keyDown 97, .keyUp 119, .keyUp 27]] =
          .ok ([true, true, true], after) ∧
        after.isDown 0x5 = false ∧ after.isDown 0x7 = true) ∧
      ∃ after, w.poll [.keyDown 97] .released = .ok (true, after) ∧
        w.poll [.keyDown 97, .keyDown 27, .keyUp 97] .released = .ok (false, after) := by
  intro w
  have opened : w.desktop.displayOpen = true := rfl
  obtain ⟨-, batched, ended⟩ := keys_follow_last_events opened
  obtain ⟨after, taken, -, keys⟩ := batched .released
    [.keyDown 119, .other, .keyDown 97, .keyUp 119, .keyUp 27] (by decide)
  have inBatches :=
    taken [[.keyDown 119, .other], [], [.keyDown 97, .keyUp 119, .keyUp 27]] rfl
  exact ⟨opened, ⟨after, inBatches, keys 119 0x5 (by decide), keys 97 0x7 (by decide)⟩,
    ended .released [.keyDown 97] (.keyDown 27) [.keyUp 97] (by decide) rfl⟩

end Window

end ChipEight
