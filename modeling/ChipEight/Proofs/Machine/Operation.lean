import ChipEight.Proofs.Machine.Step

/-!
# Operations on a machine

A host steps a machine, ticks its timers, loads programs, sets its keys, draws on its screen and
resets it, in any order. `Operation` lists what a host does and `apply` carries it out: what an
operation answers, and the machine that it leaves behind whether it succeeds or fails. `after` is
the machine at the end of a list of operations.

A failing operation leaves the machine as it was, with one exception: an update of the keypad with
an invalid key leaves the keys before it pressed.
-/

namespace ChipEight

/-- What a host does with a machine. -/
inductive Operation where
  | step
  | tick
  | load (image : List UInt8)
  | press (key : Int)
  | release (key : Int)
  | update (keys : List Int)
  | releaseAll
  | draw (x y : Int) (rows : List UInt8)
  | clear
  | reset
deriving DecidableEq, Repr

/-- What an operation that succeeds answers. -/
inductive Reply where
  | done
  | loaded (size : Nat)
  | drawn (collision : Bool)
deriving DecidableEq, Repr

namespace Operation

/-- The answer of an operation that sets a key. -/
def keySet (m : Machine) : Except Fault Keypad → Except Fault Reply × Machine
  | .ok keypad => (.ok .done, { m with keypad := keypad })
  | .error e => (.error e, m)

/-- What an operation answers and the machine that it leaves behind. -/
def apply (m : Machine) : Operation → Except Fault Reply × Machine
  | .step =>
    match Machine.step.run m with
    | .ok _ m => (.ok .done, m)
    | .error e m => (.error e, m)
  | .tick => (.ok .done, m.tick 1)
  | .load image =>
    match m.load image with
    | .ok (m, size) => (.ok (.loaded size), m)
    | .error e => (.error e, m)
  | .press key => keySet m (m.keypad.press key)
  | .release key => keySet m (m.keypad.release key)
  | .update keys =>
    match (Keypad.update keys).run m.keypad with
    | .ok _ keypad => (.ok .done, { m with keypad := keypad })
    | .error e keypad => (.error e, { m with keypad := keypad })
  | .releaseAll => (.ok .done, { m with keypad := .released })
  | .draw x y rows =>
    match m.screen.draw x y rows with
    | .ok (screen, collision) => (.ok (.drawn collision), { m with screen := screen })
    | .error e => (.error e, m)
  | .clear => (.ok .done, { m with screen := m.screen.clear })
  | .reset => (.ok .done, m.reset)

theorem apply_step (m : Machine) :
    apply m .step = match m.fault? with
      | some e => (.error e, m)
      | none => (.ok .done, m.next) := by
  simp only [apply, Machine.step_run]
  cases m.fault? <;> rfl

theorem apply_load (m : Machine) (image : List UInt8) :
    apply m (.load image) = match m.memory.writeFault? programStart image.length with
      | some e => (.error e, m)
      | none =>
        (.ok (.loaded image.length),
          { m with memory := m.memory.withBlock programStart image }) := by
  simp only [apply, Machine.load, Memory.load, Memory.writeBytes_eq_raiseOr]
  cases m.memory.writeFault? programStart image.length <;> rfl

theorem apply_draw (m : Machine) (x y : Int) (rows : List UInt8) :
    apply m (.draw x y rows) = match m.screen.drawFault? rows with
      | some e => (.error e, m)
      | none =>
        (.ok (.drawn (m.screen.raster.draw x y rows).2),
          { m with screen := m.screen.drawn x y rows }) := by
  simp only [apply, Screen.draw_eq_raiseOr]
  cases m.screen.drawFault? rows <;> rfl

/-- Is an operation on the keys alone? -/
def setsKeys : Operation → Bool
  | .press _ | .release _ | .update _ | .releaseAll => true
  | _ => false

/-- An operation on the keys changes the keypad only, also when it fails. -/
theorem apply_of_setsKeys (m : Machine) {operation : Operation} (h : operation.setsKeys) :
    (apply m operation).2 = { m with keypad := (apply m operation).2.keypad } := by
  cases operation with
  | press key =>
    simp only [apply]
    cases m.keypad.press key <;> rfl
  | release key =>
    simp only [apply]
    cases m.keypad.release key <;> rfl
  | update keys =>
    simp only [apply]
    cases (Keypad.update keys).run m.keypad <;> rfl
  | releaseAll => rfl
  | _ => cases h

/-- Is an operation on the screen, the keys and the timers alone? -/
def isPeripheral : Operation → Bool
  | .step | .load _ | .reset => false
  | _ => true

/-- An operation on the peripherals leaves the rest of the machine alone, also when it fails. -/
theorem apply_of_isPeripheral (m : Machine) {operation : Operation} (h : operation.isPeripheral) :
    (apply m operation).2 =
      { m with
        screen := (apply m operation).2.screen
        keypad := (apply m operation).2.keypad
        timers := (apply m operation).2.timers } := by
  cases operation with
  | step | load _ | reset => cases h
  | tick | clear => rfl
  | draw x y rows =>
    rw [apply_draw]
    cases m.screen.drawFault? rows <;> rfl
  | _ => rw [apply_of_setsKeys m rfl]

end Operation

namespace Machine

/-- The machine after a list of operations. -/
def after (m : Machine) (operations : List Operation) : Machine :=
  operations.foldl (fun m (operation : Operation) => (operation.apply m).2) m

@[simp] theorem after_nil (m : Machine) : m.after [] = m := rfl

@[simp] theorem after_cons (m : Machine) (operation : Operation) (rest : List Operation) :
    m.after (operation :: rest) = (operation.apply m).2.after rest := rfl

@[simp] theorem after_append (m : Machine) (first second : List Operation) :
    m.after (first ++ second) = (m.after first).after second :=
  List.foldl_append

/-- **Induction over operations**: what every operation keeps, every list of operations keeps. -/
theorem after_induction {P : Machine → Prop} {m : Machine} (start : P m)
    (kept : ∀ (m : Machine) (operation : Operation), P m → P (operation.apply m).2)
    (operations : List Operation) :
    P (m.after operations) := by
  induction operations generalizing m with
  | nil => exact start
  | cons operation rest ih => exact ih (kept m operation start)

end Machine

end ChipEight
