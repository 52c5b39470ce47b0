import ChipEight.Proofs.Machine.Range

/-!
# Histories of a machine

A machine is reachable when some operations lead to it from a machine that was built. Whatever holds
of every machine in range holds of every reachable machine, and an operation on a reachable machine
leaves a reachable machine behind.

The frame rules say what operations leave alone. The registers and the call stack change in a step
or a reset only. The memory changes when a program is loaded and in the two instructions that store,
so that `obeyed`, the instructions that some operations carried out, tells whether it is as it was.
-/

namespace ChipEight

/-! ## Frame rules -/

namespace Operation

/-- The registers and the call stack are the machine's own: besides a step, only a reset sets them. -/
theorem processor_apply (m : Machine) {operation : Operation} (unstepped : operation ≠ .step)
    (unreset : operation ≠ .reset) :
    (operation.apply m).2.registers = m.registers ∧ (operation.apply m).2.stack = m.stack := by
  cases operation with
  | step => exact absurd rfl unstepped
  | reset => exact absurd rfl unreset
  | load image =>
    rw [apply_load]
    cases m.memory.writeFault? programStart image.length <;> exact ⟨rfl, rfl⟩
  | _ =>
    rw [apply_of_isPeripheral m rfl]
    exact ⟨rfl, rfl⟩

end Operation

namespace Machine

/-- Between two steps and without a reset, the registers and the call stack stay as they are. -/
theorem processor_after (m : Machine) {operations : List Operation}
    (quiet : ∀ operation ∈ operations, operation ≠ .step ∧ operation ≠ .reset) :
    (m.after operations).registers = m.registers ∧ (m.after operations).stack = m.stack := by
  induction operations generalizing m with
  | nil => exact ⟨rfl, rfl⟩
  | cons operation rest ih =>
    obtain ⟨unstepped, unreset⟩ := quiet operation List.mem_cons_self
    obtain ⟨registers, stack⟩ := operation.processor_apply m unstepped unreset
    obtain ⟨registers', stack'⟩ :=
      ih (operation.apply m).2 fun other among => quiet other (List.mem_cons_of_mem _ among)
    exact ⟨registers'.trans registers, stack'.trans stack⟩

/-- The instruction that an operation carries out, if it is a step that succeeds. -/
def obeyed? (m : Machine) : Operation → Option Instruction
  | .step =>
    match step.run m with
    | .ok _ _ => m.instruction?
    | .error _ _ => none
  | _ => none

theorem obeyed?_step {m : Machine} {i : Instruction} (met : m.fault? = none)
    (read : m.instruction? = some i) : m.obeyed? .step = some i := by
  rw [obeyed?, step_eq_ok_iff.mpr ⟨met, rfl⟩, read]

/-- A step fails and leaves the machine as it is, or it carries out an instruction. -/
theorem apply_step_cases (m : Machine) : (Operation.step.apply m).2 = m ∨
    ∃ i, m.obeyed? .step = some i ∧
      (Operation.step.apply m).2 = { m.change i with executed := m.executed + 1 } := by
  rw [Operation.apply_step]
  cases met : m.fault? with
  | some e => exact .inl rfl
  | none =>
    obtain ⟨i, read, -, changed⟩ := instruction_of_fault? met
    exact .inr ⟨i, obeyed?_step met read, changed⟩

/-- The instructions that a list of operations carries out. -/
def obeyed (m : Machine) : List Operation → List Instruction
  | [] => []
  | operation :: rest => (m.obeyed? operation).toList ++ (operation.apply m).2.obeyed rest

/-- **What every allowed operation keeps, a list of them keeps**, if the instructions that are
carried out are harmless. -/
theorem kept_after {f : Machine → α} (allowed : Operation → Prop) (harmless : Instruction → Prop)
    (kept : ∀ (m : Machine) (operation : Operation), allowed operation →
      (∀ i ∈ m.obeyed? operation, harmless i) → f (operation.apply m).2 = f m)
    (m : Machine) {operations : List Operation}
    (all : ∀ operation ∈ operations, allowed operation)
    (carried : ∀ i ∈ m.obeyed operations, harmless i) :
    f (m.after operations) = f m := by
  induction operations generalizing m with
  | nil => rfl
  | cons operation rest ih =>
    have first : f (operation.apply m).2 = f m :=
      kept m operation (all operation List.mem_cons_self) fun i obeyed =>
        carried i (List.mem_append_left _ (Option.mem_toList.mpr obeyed))
    have others : f ((operation.apply m).2.after rest) = f (operation.apply m).2 :=
      ih (operation.apply m).2 (fun other among => all other (List.mem_cons_of_mem _ among))
        fun i obeyed => carried i (List.mem_append_right _ obeyed)
    exact others.trans first

/-- An operation that loads no program and carries out no store leaves the memory as it is. -/
theorem memory_apply (m : Machine) {operation : Operation}
    (unloaded : ∀ image, operation ≠ .load image)
    (unstored : ∀ x, m.obeyed? operation ≠ some (.storeDecimal x) ∧
      m.obeyed? operation ≠ some (.storeRegisters x)) :
    (operation.apply m).2.memory = m.memory := by
  cases operation with
  | step =>
    rcases m.apply_step_cases with same | ⟨i, carried, changed⟩
    · rw [same]
    · rw [changed, change_eq]
      cases i with
      | storeDecimal x => exact absurd carried (unstored x).1
      | storeRegisters x => exact absurd carried (unstored x).2
      | _ => rfl
  | load image => exact absurd rfl (unloaded image)
  | reset => rfl
  | _ => rw [Operation.apply_of_isPeripheral m rfl]

/-- **The memory stays as it is** for as long as no program is loaded and no store is carried
out. -/
theorem memory_after (m : Machine) {operations : List Operation}
    (unloaded : ∀ image, .load image ∉ operations)
    (unstored : ∀ x, .storeDecimal x ∉ m.obeyed operations ∧
      .storeRegisters x ∉ m.obeyed operations) :
    (m.after operations).memory = m.memory := by
  refine kept_after (fun operation => ∀ image, operation ≠ .load image)
    (fun i => ∀ x, i ≠ .storeDecimal x ∧ i ≠ .storeRegisters x)
    (fun m operation unloaded unstored => ?_) m ?_ ?_
  · exact m.memory_apply unloaded fun x =>
      ⟨fun obeyed => (unstored _ obeyed x).1 rfl, fun obeyed => (unstored _ obeyed x).2 rfl⟩
  · rintro operation among image rfl
    exact unloaded image among
  · intro i carried x
    exact ⟨fun same => (unstored x).1 (same ▸ carried), fun same => (unstored x).2 (same ▸ carried)⟩

/-- An operation that asks for no random number leaves the random source as it is. -/
theorem random_apply (m : Machine) (operation : Operation)
    (unasked : ∀ x mask, m.obeyed? operation ≠ some (.random x mask)) :
    (operation.apply m).2.random = m.random := by
  cases operation with
  | step =>
    rcases m.apply_step_cases with same | ⟨i, carried, changed⟩
    · rw [same]
    · rw [changed, change_eq]
      cases i with
      | random x mask => exact absurd carried (unasked x mask)
      | _ => rfl
  | load image =>
    rw [Operation.apply_load]
    cases m.memory.writeFault? programStart image.length <;> rfl
  | reset => rfl
  | _ => rw [Operation.apply_of_isPeripheral m rfl]

/-- **The random source stays as it is** for as long as no random number is asked for. -/
theorem random_after (m : Machine) {operations : List Operation}
    (unasked : ∀ x mask, .random x mask ∉ m.obeyed operations) :
    (m.after operations).random = m.random :=
  kept_after (fun _ => True) (fun i => ∀ x mask, i ≠ .random x mask)
    (fun m operation _ unasked => m.random_apply operation fun x mask obeyed =>
      unasked _ obeyed x mask rfl)
    m (fun _ _ => trivial) fun _ carried x mask same => unasked x mask (same ▸ carried)

/-! ## Reachable machines -/

/-- A machine that operations lead to from one that was built. -/
def Reachable (m : Machine) : Prop :=
  ∃ limit random start operations,
    standard limit random = .ok start ∧ start.after operations = m

/-- A machine that was built has a positive limit, or none. -/
theorem limit_of_standard {limit : Option Int} {random : RandomSource} {start : Machine}
    (built : standard limit random = .ok start) : ∀ l ∈ limit, 1 ≤ l := by
  rintro l rfl
  by_cases refused : l < 1
  · simp only [standard, CallStack.make, if_pos refused] at built
    cases built
  · omega

/-- What the construction of a machine answers is the machine at power-on. -/
theorem eq_powerOn_of_standard {limit : Option Int} {random : RandomSource} {start : Machine}
    (built : standard limit random = .ok start) :
    start = powerOn (limit.map Int.toNat) random := by
  rw [standard_eq (limit_of_standard built) random] at built
  exact (Except.ok.inj built).symm

theorem Reachable.inRange {m : Machine} (reached : m.Reachable) : ∃ limit, m.InRange limit := by
  obtain ⟨limit, random, start, operations, built, rfl⟩ := reached
  rw [eq_powerOn_of_standard built]
  exact ⟨_, (powerOn_inRange _ random).after operations⟩

theorem Reachable.wellFormed {m : Machine} (reached : m.Reachable) : m.WellFormed := by
  obtain ⟨limit, inRange⟩ := reached.inRange
  exact {
    size := inRange.size
    width := inRange.width
    height := inRange.height
    index := inRange.control.index.1
    pc := inRange.control.pc.1 }

theorem Reachable.after {m : Machine} (reached : m.Reachable) (operations : List Operation) :
    (m.after operations).Reachable := by
  obtain ⟨limit, random, start, earlier, built, rfl⟩ := reached
  exact ⟨limit, random, start, earlier ++ operations, built, after_append _ _ _⟩

theorem Reachable.step {m m' : Machine} (reached : m.Reachable)
    (stepped : step.run m = .ok () m') : m'.Reachable := by
  have first : m.after [.step] = m' := by
    rw [after_cons, after_nil, Operation.apply, stepped]
  exact first ▸ reached.after [.step]

end Machine

end ChipEight
