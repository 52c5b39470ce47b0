import ChipEight.Machine.Monitored
import ChipEight.Proofs.Machine.Operation

/-!
# Monitored machines

A monitored machine steps as its machine does. Only its journal tells whether it is traced: a step
that is traced adds an entry for the word once it is read, and one for the machine once it is done.
`Machine.stepEntries` are these entries, told from the machine alone.

The same goes for all operations. What they answer, the machine that they leave behind and what they
add to the journal do not depend on what stands in the journal already (`Operation.monitor_eq`).
-/

namespace ChipEight

namespace Journal

/-- The journal with further entries. -/
def extend (j : Journal) (entries : List Entry) : Journal := ⟨j.entries ++ entries.toArray⟩

@[simp] theorem extend_nil (j : Journal) : j.extend [] = j :=
  congrArg Journal.mk (Array.append_empty)

@[simp] theorem extend_extend (j : Journal) (first second : List Entry) :
    (j.extend first).extend second = j.extend (first ++ second) := by
  simp [extend]

/-- What was added to a journal is found there from its old end on. -/
theorem since_extend (j : Journal) (entries : List Entry) :
    (j.extend entries).since j.entries.size .debug = entries := by
  have every : (fun e : Entry => decide (Level.debug.rank ≤ e.level.rank)) = fun _ => true :=
    funext fun e => decide_eq_true (Nat.zero_le _)
  simp [since, extend, every]

end Journal

namespace Machine

/-- The entry on the word at the program counter. -/
def wordEntry (m : Machine) : Entry :=
  ⟨.debug, Monitored.stepSource, Monitored.wordLine m.word m⟩

/-- The entry on the registers. -/
def stateEntry (m : Machine) : Entry := ⟨.debug, Monitored.stepSource, m.describe⟩

/-- The entries that a traced step on a machine makes. -/
def stepEntries (m : Machine) : List Entry :=
  match m.fetchFault?, m.wordFault? with
  | some _, _ => []
  | none, some _ => [m.wordEntry]
  | none, none => [m.wordEntry, m.next.stateEntry]

end Machine

namespace Monitored

/-! ## Steps -/

theorem trace_run (line : Machine → String) (t : Monitored) :
    (trace line).run t = .ok () { t with
      journal := t.journal.extend
        (if t.tracing then [⟨.debug, stepSource, line t.machine⟩] else []) } := by
  obtain ⟨machine, tracing, journal⟩ := t
  cases tracing with
  | false =>
    rw [if_neg Bool.false_ne_true, Journal.extend_nil]
    rfl
  | true => rfl

theorem perform_run (action : Machine.Action α) (t : Monitored) :
    (perform action).run t = match action.run t.machine with
      | .ok a m => .ok a { t with machine := m }
      | .error e m => .error e { t with machine := m } := by
  unfold perform
  rw [EStateM.run_bind, EStateM.run_get]
  dsimp only
  cases action.run t.machine <;> rfl

/-- The journal after a step. -/
def traced (t : Monitored) : Journal :=
  t.journal.extend (if t.tracing then t.machine.stepEntries else [])

/-- **A monitored step is the step of its machine**: tracing changes nothing but the journal. -/
theorem step_run (t : Monitored) :
    step.run t = match t.machine.fault? with
      | some e => .error e { t with journal := t.traced }
      | none => .ok () { t with machine := t.machine.next, journal := t.traced } := by
  unfold step Machine.fault? traced Machine.stepEntries
  rw [EStateM.run_bind, perform_run, Machine.fetch_run]
  cases t.machine.fetchFault? with
  | some e => simp
  | none =>
    simp only [Option.none_or, EStateM.run_bind, trace_run, perform_run, Machine.obey_run]
    cases t.machine.wordFault? with
    | some e => rfl
    | none =>
      simp only [Machine.settle, Journal.extend_extend]
      cases t.tracing <;> rfl

/-- A monitored step that fails meets the fault of its machine and leaves the machine alone. -/
theorem step_eq_error {t t' : Monitored} {e : Fault} (h : step.run t = .error e t') :
    t.machine.fault? = some e ∧ t'.machine = t.machine ∧ t'.tracing = t.tracing := by
  rw [step_run] at h
  cases met : t.machine.fault? with
  | some e' =>
    rw [met] at h
    cases h
    exact ⟨rfl, rfl, rfl⟩
  | none =>
    rw [met] at h
    cases h

/-- A monitored step fails where its machine meets a fault. -/
theorem exists_step_eq_error {t : Monitored} {e : Fault} (h : t.machine.fault? = some e) :
    ∃ t', step.run t = .error e t' ∧ t'.machine = t.machine := by
  rw [step_run, h]
  exact ⟨_, rfl, rfl⟩

/-! ## Programs -/

/-- The entry on a program that was loaded. -/
def loadEntry (size : Nat) : Entry :=
  ⟨.info, loadSource, s!"Loaded {size} byte ROM at 0x" ++ Text.hexNumber 3 programStart⟩

/-- Loading a program stores it in the memory of the machine and reports its size. -/
theorem load_run (image : List UInt8) (t : Monitored) :
    (load image).run t = match t.machine.memory.writeFault? programStart image.length with
      | some e => .error e t
      | none => .ok image.length { t with
          machine := { t.machine with
            memory := t.machine.memory.withBlock programStart image }
          journal := t.journal.extend [loadEntry image.length] } := by
  have loaded : t.machine.load image =
      Fault.raiseOr (t.machine.memory.writeFault? programStart image.length)
        ({ t.machine with memory := t.machine.memory.withBlock programStart image },
          image.length) := by
    rw [Machine.load, Memory.load, Memory.writeBytes_eq_raiseOr]
    cases t.machine.memory.writeFault? programStart image.length <;> rfl
  unfold load
  rw [EStateM.run_bind, EStateM.run_get]
  dsimp only
  rw [loaded]
  cases t.machine.memory.writeFault? programStart image.length <;> rfl

end Monitored

/-! ## Operations -/

namespace Operation

/-- What an operation on a monitored machine answers, and what it leaves behind. -/
def monitor (t : Monitored) : Operation → Except Fault Reply × Monitored
  | .step =>
    match Monitored.step.run t with
    | .ok _ t => (.ok .done, t)
    | .error e t => (.error e, t)
  | .load image =>
    match (Monitored.load image).run t with
    | .ok size t => (.ok (.loaded size), t)
    | .error e t => (.error e, t)
  | operation =>
    let (answer, machine) := operation.apply t.machine
    (answer, { t with machine := machine })

/-- The entries that an operation on a machine makes. -/
def entries (tracing : Bool) (m : Machine) : Operation → List Entry
  | .step => if tracing then m.stepEntries else []
  | .load image =>
    match m.memory.writeFault? programStart image.length with
    | some _ => []
    | none => [Monitored.loadEntry image.length]
  | _ => []

/-- **A monitored operation is the operation on its machine**, with some entries for the journal. -/
theorem monitor_eq (t : Monitored) (operation : Operation) :
    operation.monitor t = ((operation.apply t.machine).1,
      { machine := (operation.apply t.machine).2
        tracing := t.tracing
        journal := t.journal.extend (operation.entries t.tracing t.machine) }) := by
  cases operation with
  | step =>
    rw [apply_step, monitor, Monitored.step_run]
    cases t.machine.fault? <;> rfl
  | load image =>
    rw [apply_load, monitor, Monitored.load_run, entries]
    cases t.machine.memory.writeFault? programStart image.length with
    | some e => rw [Journal.extend_nil]
    | none => rfl
  | _ => simp only [monitor, entries, Journal.extend_nil]

end Operation

end ChipEight
