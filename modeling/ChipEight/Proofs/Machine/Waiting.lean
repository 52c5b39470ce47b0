import ChipEight.Proofs.Machine.Control
import ChipEight.Proofs.Machine.Faults
import ChipEight.Proofs.Machine.Keys
import ChipEight.Proofs.Machine.Operation
import ChipEight.Proofs.Machine.Untimed

/-!
# Waiting for a key

A machine that is about to wait for a key carries the same instruction out in every step that finds
no key pressed. Meanwhile the host ticks the timers and sets keys, as often as it likes. `waited` is
all that becomes of the machine: the keypad is what the host made of it, the timers count down, and
the steps are counted. No key is kept in mind. A key that was pressed and released between two steps
leaves no trace, and the first step that finds keys pressed takes the smallest of them.
-/

namespace ChipEight

/-! ## Idle operations -/

theorem Timers.ticks_ticks (t : Timers) (first second : Nat) :
    (t.ticks first).ticks second = t.ticks (first + second) := by
  induction first generalizing t with
  | zero => rw [Nat.zero_add, Timers.ticks]
  | succ first ih => rw [Nat.add_right_comm, Timers.ticks, Timers.ticks, ih]

/-- Does an operation go on while a machine waits? A step does, a tick, and one on the keys. -/
def Operation.isIdle : Operation → Bool
  | .step | .tick => true
  | operation => operation.setsKeys

namespace Machine

variable {m : Machine} {x : Fin 16}

/-- The machine after a wait: it has other keys, and ticks and steps were counted. -/
def waited (m : Machine) (keypad : Keypad) (ticks steps : Nat) : Machine :=
  { m with keypad := keypad, timers := m.timers.ticks ticks, executed := m.executed + steps }

/-- One wait after another is a wait. -/
theorem waited_waited (m : Machine) (keypad keypad' : Keypad) (ticks ticks' steps steps' : Nat) :
    (m.waited keypad ticks steps).waited keypad' ticks' steps' =
      m.waited keypad' (ticks + ticks') (steps + steps') := by
  simp only [waited, Timers.ticks_ticks, Nat.add_assoc]

/-- After a wait the machine is about to carry out the instruction that it was about to before. -/
theorem AboutTo.waited {i : Instruction} (about : m.AboutTo i) (keypad : Keypad)
    (ticks steps : Nat) : (m.waited keypad ticks steps).AboutTo i := by
  obtain ⟨w, fetched, spells⟩ := about
  have read : m.fetchFault? = none ∧ m.word = w := fetch_eq_ok_iff.mp fetched
  exact ⟨w, fetch_eq_ok_iff.mpr read, spells⟩

/-- A step that finds no key pressed is counted and does nothing else. -/
theorem AboutTo.apply_step (about : m.AboutTo (.waitForKey x))
    (unpressed : m.keypad.pressed = []) :
    (Operation.step.apply m).2 = m.waited m.keypad 0 1 := by
  have unfound : m.keypad.firstPressed = none := by
    rw [Keypad.firstPressed_eq_head?, unpressed, List.head?_nil]
  have stepped := about.step rfl
  simp only [change, unfound] at stepped
  rw [Operation.apply, stepped]
  rfl

/-- **What an idle operation does to a machine that waits**: unless it is a step that finds a key
pressed, it is a wait. -/
theorem AboutTo.apply_idle (about : m.AboutTo (.waitForKey x)) {operation : Operation}
    (idle : operation.isIdle) (unpressed : operation = .step → m.keypad.pressed = []) :
    (operation.apply m).2 = m.waited (operation.apply m).2.keypad ([operation].count .tick)
      ([operation].count .step) := by
  cases operation with
  | step =>
    rw [about.apply_step (unpressed rfl)]
    rfl
  | tick => rfl
  | press key | release key | update keys | releaseAll => exact Operation.apply_of_setsKeys m idle
  | _ => cases idle

/-- **A wait of any length.** A machine that is about to wait for a key, and finds none pressed in
any of the steps, is left with other keys, counted ticks and counted steps. -/
theorem AboutTo.after_idle (about : m.AboutTo (.waitForKey x)) {operations : List Operation}
    (idle : ∀ operation ∈ operations, operation.isIdle)
    (unpressed : ∀ k, operations[k]? = some .step →
      (m.after (operations.take k)).keypad.pressed = []) :
    m.after operations = m.waited (m.after operations).keypad (operations.count .tick)
      (operations.count .step) := by
  induction operations generalizing m with
  | nil => rfl
  | cons operation rest ih =>
    have first := about.apply_idle (idle operation List.mem_cons_self) fun here =>
      unpressed 0 (congrArg some here)
    have still : (operation.apply m).2.AboutTo (.waitForKey x) := by
      rw [first]
      exact about.waited _ _ _
    have later := ih still (fun other among => idle other (List.mem_cons_of_mem _ among))
      fun k here => unpressed (k + 1) here
    have count (o : Operation) :
        (operation :: rest).count o = [operation].count o + rest.count o := by
      change ([operation] ++ rest).count o = _
      exact List.count_append
    rw [after_cons, count, count, ← waited_waited m (operation.apply m).2.keypad, ← first, ← later]

/-- A step that finds keys pressed takes the smallest one. -/
theorem AboutTo.step_held (about : m.AboutTo (.waitForKey x)) (size : m.memory.size = memorySize)
    (held : m.keypad.pressed ≠ []) :
    ∃ key ∈ m.keypad.pressed, (∀ other ∈ m.keypad.pressed, key ≤ other) ∧
      Machine.step.run m = .ok ()
        { (m.withV x (UInt8.ofNat key.val)).withPc (m.registers.pc + 2) with
          executed := m.executed + 1 } := by
  obtain ⟨key, among, least, found⟩ := Keypad.exists_firstPressed held
  have stepped := about.step rfl
  obtain ⟨low, high⟩ := pc_of_fault? size (step_eq_ok_iff.mp stepped).1
  have moved : (m.withV x (UInt8.ofNat key.val)).advance 1 =
      (m.withV x (UInt8.ofNat key.val)).withPc (m.registers.pc + 2) :=
    advance_eq low high (by decide) (by decide)
  simp only [change, found, moved] at stepped
  exact ⟨key, among, least, stepped⟩

/-- **Waiting for a key.** A well-formed machine is about to wait for a key, and steps, ticks and
operations on the keys follow in any order, no key being pressed at any of the steps. Then all that
is different is the keypad, the timers, each of which has counted down to zero at most, and the
count, which has grown by the number of steps. If keys are pressed then, the next step writes the
number of the smallest one to Vx and goes on to the next word, and does nothing else but count. -/
theorem waits_for_key {m : Machine} (wf : m.WellFormed) {x : Fin 16}
    (about : m.AboutTo (.waitForKey x)) {operations : List Operation}
    (idle : ∀ operation ∈ operations, operation.isIdle)
    (unpressed : ∀ k, operations[k]? = some .step →
      (m.after (operations.take k)).keypad.pressed = []) :
    (m.after operations =
        { m with
          keypad := (m.after operations).keypad
          timers := (m.after operations).timers
          executed := m.executed + operations.count .step }) ∧
      (∀ timer : Timer, 0 ≤ timer.value m.timers →
        timer.value (m.after operations).timers =
          max 0 (timer.value m.timers - operations.count .tick)) ∧
      ((m.after operations).keypad.pressed ≠ [] →
        ∃ key ∈ (m.after operations).keypad.pressed,
          (∀ other ∈ (m.after operations).keypad.pressed, key ≤ other) ∧
          step.run (m.after operations) = .ok ()
            { ((m.after operations).withV x (UInt8.ofNat key.val)).withPc (m.registers.pc + 2) with
              executed := (m.after operations).executed + 1 }) := by
  have whole := about.after_idle idle unpressed
  have ticked : (m.after operations).timers = m.timers.ticks (operations.count .tick) := by
    rw [whole]
    rfl
  refine ⟨?_, fun timer nonneg => ?_, fun held => ?_⟩
  · rw [ticked]
    exact whole
  · rw [ticked]
    exact timer.value_ticks nonneg _
  · have waiting : (m.after operations).AboutTo (.waitForKey x) := by
      rw [whole]
      exact about.waited _ _ _
    have size : (m.after operations).memory.size = memorySize := by
      rw [whole]
      exact wf.size
    have pc : (m.after operations).registers.pc = m.registers.pc := by
      rw [whole]
      rfl
    rw [← pc]
    exact waiting.step_held size held

/-- A key is pressed and released between two steps, and another press fails. The step that finds
keys pressed after that takes the smaller of the two, and not the one from before. -/
theorem waits_for_key_released :
    let m := { loaded [0xF3, 0x0A] with timers := ⟨1, 9⟩ }
    let operations : List Operation :=
      [.step, .tick, .press 2, .tick, .release 2, .press 16, .step, .update [9, 4]]
    m.WellFormed ∧ m.AboutTo (.waitForKey 3) ∧ (∀ operation ∈ operations, operation.isIdle) ∧
      (∀ k, operations[k]? = some .step → (m.after (operations.take k)).keypad.pressed = []) ∧
      (m.after operations).timers.delay = 0 ∧ (m.after operations).timers.sound = 7 ∧
      (m.after operations).executed = 2 ∧
      step.run (m.after operations) = .ok ()
        { ((m.after operations).withV 3 4).withPc 0x202 with executed := 3 } := by
  intro m operations
  have wf : m.WellFormed := { loaded_wellFormed [0xF3, 0x0A] with }
  have read : m.fetchFault? = none ∧ m.word = 0xF30A := by decide +kernel
  have about : m.AboutTo (.waitForKey 3) := ⟨0xF30A, fetch_eq_ok_iff.mpr read, rfl, rfl, rfl⟩
  have idle : ∀ operation ∈ operations, operation.isIdle := by decide
  have early : ∀ k < 8, operations[k]? = some .step →
      (m.after (operations.take k)).keypad.pressed = [] := by
    decide +kernel
  have unpressed (k : Nat) (here : operations[k]? = some .step) :
      (m.after (operations.take k)).keypad.pressed = [] :=
    early k (List.getElem?_eq_some_iff.mp here).1 here
  obtain ⟨whole, timers, taken⟩ := waits_for_key wf about idle unpressed
  have executed := congrArg Machine.executed whole
  have pressed : (m.after operations).keypad.pressed = [4, 9] := by decide +kernel
  obtain ⟨key, among, least, stepped⟩ := taken (by rw [pressed]; exact List.cons_ne_nil _ _)
  have smallest : key = 4 := by
    have unique : ∀ key ∈ ([4, 9] : List (Fin 16)), key ≤ 4 → key = 4 := by decide
    rw [pressed] at among least
    exact unique key among (least 4 List.mem_cons_self)
  subst smallest
  rw [executed] at stepped
  exact ⟨wf, about, idle, unpressed, timers .delay (by decide), timers .sound (by decide), executed,
    stepped⟩

end Machine

end ChipEight
