import ChipEight.Proofs.Machine.Step

/-!
# The timers of a machine

A timer counts down to zero under the ticks and stays there, and only one instruction sets it.

The timers are seen by one instruction only, the one that reads the delay timer. All others meet the
same faults whatever the timers are, and go on to machines that differ in the timers at most.
`untimed` puts the timers to zero, so that `m.untimed = m'.untimed` says that two machines differ in
them at most.
-/

namespace ChipEight

/-! ## One timer -/

/-- One of the two timers. -/
inductive Timer where
  | delay
  | sound
deriving DecidableEq, Repr

namespace Timer

def value : Timer → Timers → Int
  | .delay, t => t.delay
  | .sound, t => t.sound

/-- The instruction that sets a timer from a register. -/
def setter : Timer → Fin 16 → Instruction
  | .delay => .setDelay
  | .sound => .setSound

/-- A timer counts down to zero and stays there. -/
theorem value_ticks (timer : Timer) {t : Timers} (nonneg : 0 ≤ timer.value t) (count : Nat) :
    timer.value (t.ticks count) = max 0 (timer.value t - count) := by
  induction count generalizing t with
  | zero =>
    have same : timer.value (t.ticks 0) = timer.value t := rfl
    rw [same]
    omega
  | succ count ih =>
    have once : timer.value t.tick = Timers.countDown (timer.value t) := by
      cases timer <;> rfl
    have next : 0 ≤ timer.value t.tick := by
      rw [once, Timers.countDown]
      split <;> omega
    have more : timer.value (t.ticks (count + 1)) = timer.value (t.tick.ticks count) := rfl
    rw [more, ih next, once, Timers.countDown, Int.natCast_add]
    split <;> omega

/-- Only its setter touches a timer. -/
theorem value_timersAfter (timer : Timer) (m : Machine) {i : Instruction}
    (other : ∀ x, i ≠ timer.setter x) : timer.value (m.timersAfter i) = timer.value m.timers := by
  cases i with
  | setDelay x =>
    cases timer with
    | delay => exact absurd rfl (other x)
    | sound => rfl
  | setSound x =>
    cases timer with
    | delay => rfl
    | sound => exact absurd rfl (other x)
  | _ => rfl

end Timer

/-! ## Machines without their timers -/

namespace Machine

/-- The machine with its timers at zero. -/
def untimed (m : Machine) : Machine := { m with timers := .initial }

theorem fault?_untimed (m : Machine) : m.untimed.fault? = m.fault? := rfl

theorem instruction?_untimed (m : Machine) : m.untimed.instruction? = m.instruction? := rfl

theorem aside_untimed : Aside untimed where
  registers _ := rfl
  withV _ _ _ := rfl

/-- An instruction that does not read the delay timer changes a machine without regard to the
timers. -/
theorem untimed_change (m : Machine) {i : Instruction} (unread : ∀ x, i ≠ .readDelay x) :
    (m.untimed.change i).untimed = (m.change i).untimed := by
  cases i with
  | readDelay x => exact absurd rfl (unread x)
  | arithmetic operation x y =>
    rw [change, aside_untimed.compute]
    rfl
  | loadRegisters x =>
    rw [change, aside_untimed.withLowRegisters]
    rfl
  | waitForKey x =>
    simp only [change, untimed]
    cases m.keypad.firstPressed <;> rfl
  | _ => rfl

theorem untimed_next (m : Machine) (unread : ∀ x, m.instruction? ≠ some (.readDelay x)) :
    m.untimed.next.untimed = m.next.untimed := by
  unfold next
  rw [instruction?_untimed]
  cases here : m.instruction? with
  | none => rfl
  | some i =>
    have other (x : Fin 16) : i ≠ .readDelay x := fun same => unread x (here.trans (same ▸ rfl))
    have changed := congrArg (fun m' : Machine => { m' with executed := m.executed + 1 })
      (m.untimed_change other)
    exact changed

/-- **Machines that differ in the timers at most go on to such machines**, unless they read the
delay timer. -/
theorem untimed_next_congr {m m' : Machine} (h : m.untimed = m'.untimed)
    (unread : ∀ x, m.instruction? ≠ some (.readDelay x)) : m.next.untimed = m'.next.untimed := by
  have same : m'.instruction? = m.instruction? := by
    rw [← instruction?_untimed, ← h, instruction?_untimed]
  have unread' (x : Fin 16) : m'.instruction? ≠ some (.readDelay x) := by
    rw [same]
    exact unread x
  rw [← untimed_next m unread, h, untimed_next m' unread']

end Machine

end ChipEight
