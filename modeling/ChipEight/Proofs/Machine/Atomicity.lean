import ChipEight.Proofs.Machine.Monitored
import ChipEight.Proofs.Machine.WellFormed

/-!
# A fault changes nothing

A step that ends in a fault leaves the machine exactly as it was: registers, stack, timers, memory,
screen with its mark, keypad, random source and count. So the step can be tried again, and it meets
the same fault. A run of steps that ends in a fault leaves the machine of the last step that
succeeded.

The same holds of a monitored machine. Its journal may have grown by the line for the word that was
read, and by nothing else.
-/

namespace ChipEight

/-! ## Runs of steps -/

namespace Machine

/-- A number of steps, up to the first that fails. -/
def steps : Nat → Action Unit
  | 0 => pure ()
  | n + 1 => do
    step
    steps n

/-- A run of at least one step begins with a step. -/
theorem steps_succ_run (n : Nat) (m : Machine) :
    (steps (n + 1)).run m = match m.fault? with
      | some e => .error e m
      | none => (steps n).run m.next := by
  rw [steps, EStateM.run_bind, step_run]
  cases m.fault? <;> rfl

/-- A run that fails does so in a step on a machine that some number of steps before it had
reached, and it leaves that machine behind. -/
theorem steps_eq_error {n : Nat} {m m' : Machine} {e : Fault}
    (h : (steps n).run m = .error e m') :
    ∃ k < n, (steps k).run m = .ok () m' ∧ m'.fault? = some e := by
  induction n generalizing m with
  | zero => cases h
  | succ n ih =>
    rw [steps_succ_run] at h
    cases met : m.fault? with
    | some e' =>
      rw [met] at h
      cases h
      exact ⟨0, Nat.succ_pos n, rfl, met⟩
    | none =>
      rw [met] at h
      obtain ⟨k, below, reached, fault⟩ := ih h
      refine ⟨k + 1, Nat.succ_lt_succ below, ?_, fault⟩
      rw [steps_succ_run, met]
      exact reached

end Machine

/-! ## Faults -/

namespace Machine

/-- **A fault changes nothing.** A step that fails leaves the machine as it was, and fails again in
the same way when it is tried again, whether the machine is traced or not. A run that fails leaves
the machine that the steps before the fault had reached, and the step that failed fails again. -/
theorem fault_changes_nothing :
    (∀ (m m' : Machine) (e : Fault), step.run m = .error e m' →
      m' = m ∧ step.run m' = .error e m') ∧
    (∀ (n : Nat) (m m' : Machine) (e : Fault), (steps n).run m = .error e m' →
      (∃ k < n, (steps k).run m = .ok () m') ∧ step.run m' = .error e m') ∧
    (∀ (t t' : Monitored) (e : Fault), Monitored.step.run t = .error e t' →
      t'.machine = t.machine ∧
        ∃ t'', Monitored.step.run t' = .error e t'' ∧ t''.machine = t.machine) := by
  refine ⟨?_, ?_, ?_⟩
  · intro m m' e h
    obtain ⟨met, rfl⟩ := step_eq_error_iff.mp h
    exact ⟨rfl, h⟩
  · intro n m m' e h
    obtain ⟨k, below, reached, met⟩ := steps_eq_error h
    exact ⟨⟨k, below, reached⟩, step_eq_error_iff.mpr ⟨met, rfl⟩⟩
  · intro t t' e h
    obtain ⟨met, kept, -⟩ := Monitored.step_eq_error h
    rw [← kept] at met
    obtain ⟨t'', again, same⟩ := Monitored.exists_step_eq_error met
    exact ⟨kept, t'', again, same.trans kept⟩

/-- A program asks for key 255 in its second step. The run fails there, and so does that step when
it is tried alone, tried again, or traced. -/
theorem fault_changes_nothing_key :
    let m := loaded [0x60, 0xFF, 0xE0, 0x9E]
    let e := Fault.invalidKey 255 (some 0x202)
    (steps 2).run m = .error e m.next ∧
      (∃ k < 2, (steps k).run m = .ok () m.next) ∧ step.run m.next = .error e m.next ∧
      ∃ t, Monitored.step.run ⟨m.next, true, .empty⟩ = .error e t ∧ t.machine = m.next ∧
        ∃ t', Monitored.step.run t = .error e t' ∧ t'.machine = m.next := by
  intro m e
  have first : m.fault? = none := by decide +kernel
  have second : m.next.fault? = some e := by decide +kernel
  have failed : (steps 2).run m = .error e m.next := by
    rw [steps_succ_run, first]
    dsimp only
    rw [steps_succ_run, second]
  obtain ⟨reached, again⟩ := fault_changes_nothing.2.1 2 m m.next e failed
  have alone := fault_changes_nothing.1 m.next m.next e again
  obtain ⟨t, traced, -⟩ := Monitored.exists_step_eq_error (t := ⟨m.next, true, .empty⟩) second
  exact ⟨failed, reached, alone.2, t, traced, fault_changes_nothing.2.2 _ t e traced⟩

end Machine

end ChipEight
