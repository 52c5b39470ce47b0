import ChipEight.Proofs.Machine.Step

/-!
# The mark of the screen

A screen is marked when it changes, and a display takes the mark off when it shows the screen. No
instruction looks at the mark: two machines that differ in it alone meet the same faults and go on
to machines that differ in it alone. `shown` takes the mark off, so that `m.shown = m'.shown` says
that two machines differ in it at most.
-/

namespace ChipEight

namespace Machine

/-- The machine without the mark on its screen. -/
def shown (m : Machine) : Machine := { m with screen := { m.screen with dirty := false } }

theorem fault?_shown (m : Machine) : m.shown.fault? = m.fault? := rfl

theorem aside_shown : Aside shown where
  registers _ := rfl
  withV _ _ _ := rfl

/-- An instruction changes a machine without regard to the mark. -/
theorem shown_change (m : Machine) (i : Instruction) :
    (m.shown.change i).shown = (m.change i).shown := by
  cases i with
  | arithmetic operation x y =>
    rw [change, aside_shown.compute]
    rfl
  | loadRegisters x =>
    rw [change, aside_shown.withLowRegisters]
    rfl
  | waitForKey x =>
    simp only [change, shown]
    cases m.keypad.firstPressed <;> rfl
  | _ => rfl

theorem shown_next (m : Machine) : m.shown.next.shown = m.next.shown := by
  have same : m.shown.instruction? = m.instruction? := rfl
  unfold next
  rw [same]
  cases m.instruction? with
  | none => rfl
  | some i =>
    have changed := congrArg (fun m' : Machine => { m' with executed := m.executed + 1 })
      (m.shown_change i)
    exact changed

theorem fault?_congr {m m' : Machine} (h : m.shown = m'.shown) : m.fault? = m'.fault? := by
  rw [← fault?_shown, h, fault?_shown]

/-- Machines that differ in the mark at most go on to such machines. -/
theorem shown_next_congr {m m' : Machine} (h : m.shown = m'.shown) :
    m.next.shown = m'.next.shown := by
  rw [← shown_next, h, shown_next]

theorem shown_withKeypad {m m' : Machine} (h : m.shown = m'.shown) (keypad : Keypad) :
    ({ m with keypad := keypad } : Machine).shown =
      ({ m' with keypad := keypad } : Machine).shown :=
  congrArg (fun m : Machine => { m with keypad := keypad }) h

theorem keypad_congr {m m' : Machine} (h : m.shown = m'.shown) : m.keypad = m'.keypad := by
  have same := congrArg (fun m : Machine => m.keypad) h
  exact same

theorem executed_congr {m m' : Machine} (h : m.shown = m'.shown) : m.executed = m'.executed := by
  have same := congrArg (fun m : Machine => m.executed) h
  exact same

end Machine

end ChipEight
