import ChipEight.Proofs.Machine.History
import ChipEight.Proofs.Machine.Monitored
import ChipEight.Proofs.Machine.Reading

/-!
# A machine that was reset

A reset restores all parts of a machine but the memory and the random source. The machine is then
the one at power-on with that memory and that source, whatever it went through before, and a host
cannot tell the two apart: `course` is what a host sees of some operations, and it is the same for
both. What the journal holds already makes no difference either.

A trial that loads no program, stores nothing and asks for no random number keeps the memory and the
source too. A reset undoes all else that it did, so that it can be repeated.
-/

namespace ChipEight

/-! ## What a host sees -/

/-- What a host sees of an operation: the answer, the machine after it, and the entries that it
added to the journal. -/
structure Sight where
  answer : Except Fault Reply
  machine : Machine
  entries : List Entry

namespace Monitored

/-- The monitored machine after a list of operations. -/
def after (t : Monitored) (operations : List Operation) : Monitored :=
  operations.foldl (fun t (operation : Operation) => (operation.monitor t).2) t

def reset (t : Monitored) : Monitored := (Operation.reset.monitor t).2

/-- What a host sees of a list of operations, one after the other. -/
def course (t : Monitored) : List Operation → List Sight
  | [] => []
  | operation :: rest =>
    let (answer, t') := operation.monitor t
    ⟨answer, t'.machine, t'.journal.since t.journal.entries.size .debug⟩ :: t'.course rest

theorem machine_after (t : Monitored) (operations : List Operation) :
    (t.after operations).machine = t.machine.after operations := by
  induction operations generalizing t with
  | nil => rfl
  | cons operation rest ih =>
    refine (ih (operation.monitor t).2).trans ?_
    rw [operation.monitor_eq]
    rfl

theorem tracing_after (t : Monitored) (operations : List Operation) :
    (t.after operations).tracing = t.tracing := by
  induction operations generalizing t with
  | nil => rfl
  | cons operation rest ih =>
    refine (ih (operation.monitor t).2).trans ?_
    rw [operation.monitor_eq]

/-- **A host sees the machine and whether it is traced**, not what the journal held before. -/
theorem course_congr {t t' : Monitored} (machine : t.machine = t'.machine)
    (tracing : t.tracing = t'.tracing) (operations : List Operation) :
    t.course operations = t'.course operations := by
  induction operations generalizing t t' with
  | nil => rfl
  | cons operation rest ih =>
    simp only [course, operation.monitor_eq, Journal.since_extend, machine, tracing]
    exact congrArg (List.cons _) (ih rfl rfl)

end Monitored

/-! ## The machine after a reset -/

/-- Is what an instruction does undone by a reset? A store is not, nor that a random number was
taken. -/
def Instruction.isUndone : Instruction → Bool
  | .storeDecimal _ | .storeRegisters _ | .random _ _ => false
  | _ => true

namespace Machine

variable {m : Machine} {limit : Option Nat}

/-- **A reset leaves the machine at power-on behind**, but for memory and the random source. -/
theorem InRange.reset_eq (inRange : m.InRange limit) :
    m.reset = (powerOn limit m.random).withMemory m.memory := by
  have screen : m.screen.clear = .blank Screen.standardWidth Screen.standardHeight := by
    rw [Screen.clear, inRange.width, inRange.height]
    rfl
  have stack : m.stack.clear = ⟨limit, []⟩ := by
    rw [CallStack.clear, inRange.limited]
  unfold Machine.reset resetProcessor
  dsimp only
  rw [screen, stack]
  rfl

/-- **A reset undoes a trial** that loads no program and carries out only what a reset undoes. -/
theorem InRange.reset_after (inRange : m.InRange limit) {trial : List Operation}
    (unloaded : ∀ image, .load image ∉ trial) (undone : ∀ i ∈ m.obeyed trial, i.isUndone) :
    (m.after trial).reset = m.reset := by
  have kept {i : Instruction} (lasting : i.isUndone = false) : i ∉ m.obeyed trial := fun carried =>
    absurd (undone i carried) (by simp [lasting])
  have memory : (m.after trial).memory = m.memory :=
    m.memory_after unloaded fun _ => ⟨kept rfl, kept rfl⟩
  have random : (m.after trial).random = m.random := m.random_after fun _ _ => kept rfl
  rw [(inRange.after trial).reset_eq, inRange.reset_eq, memory, random]

end Machine

namespace Monitored

/-- **A machine that was reset is as good as new.** After any operations on a machine that was
built, a reset leaves a machine behind that a host cannot tell from a new one with the same limit,
the same memory and the random source where it stands, both traced or both not. If a trial on the
machine loads no program, stores nothing and asks for no random number, another reset brings back
what the trial began with, and the same operations run again as they did. -/
theorem reset_as_new {limit : Option Int} {random : RandomSource} {start : Machine}
    (built : Machine.standard limit random = .ok start) (tracing : Bool) (journal : Journal)
    (operations : List Operation) :
    let t := after ⟨start, tracing, journal⟩ operations
    (∃ fresh, Machine.standard limit t.machine.random = .ok fresh ∧
      ∀ journal' further, t.reset.course further =
        course ⟨fresh.withMemory t.machine.memory, tracing, journal'⟩ further) ∧
      ∀ trial, (∀ image, .load image ∉ trial) →
        (∀ i ∈ t.reset.machine.obeyed trial, i.isUndone) →
        ∀ further, (t.reset.after trial).reset.course further = t.reset.course further := by
  intro t
  have machine : t.machine = start.after operations := machine_after _ operations
  have traced : t.reset.tracing = tracing := tracing_after _ operations
  have inRange : t.machine.InRange (limit.map Int.toNat) := by
    rw [machine, Machine.eq_powerOn_of_standard built]
    exact (Machine.powerOn_inRange _ random).after operations
  refine ⟨⟨_, Machine.standard_eq (Machine.limit_of_standard built) _, fun journal' further => ?_⟩,
    fun trial unloaded undone further => ?_⟩
  · exact course_congr inRange.reset_eq traced further
  · have again : (t.reset.after trial).reset.machine = t.reset.machine.reset :=
      (congrArg Machine.reset (machine_after t.reset trial)).trans
        (inRange.reset.reset_after unloaded undone)
    exact course_congr again (tracing_after t.reset trial) further

/-- A traced machine sets V0 and takes a random number for V1, meets a word that is no instruction,
and has key 3 pressed. After a reset it is a new machine whose random source has given one number.
Its first instruction, on other keys and with a tick, can be tried as often as one likes. -/
theorem reset_as_new_traced :
    let start := Machine.powerOn (some 16) (.cycling #[7, 9])
    let operations := [.load [0x60, 5, 0xC1, 0xFF], .step, .step, .step, .press 3]
    let t := after ⟨start, true, .empty⟩ operations
    let trial := [.press 2, .step, .tick]
    Machine.standard (some 16) (.cycling #[7, 9]) = .ok start ∧
      (∃ fresh, Machine.standard (some 16) t.machine.random = .ok fresh ∧
        t.reset.course [.step, .step] =
          course ⟨fresh.withMemory t.machine.memory, true, .empty⟩ [.step, .step]) ∧
      t.reset.machine.obeyed trial = [.setByte 0 5] ∧
      (t.reset.after trial).reset.course trial = t.reset.course trial := by
  intro start operations t trial
  have built : Machine.standard (some 16) (.cycling #[7, 9]) = .ok start := rfl
  have obeyed : t.reset.machine.obeyed trial = [.setByte 0 5] := by decide +kernel
  have unloaded (image : List UInt8) : .load image ∉ trial := by simp [trial]
  have undone : ∀ i ∈ t.reset.machine.obeyed trial, i.isUndone := by
    rw [obeyed]
    decide
  obtain ⟨⟨fresh, built', same⟩, again⟩ := reset_as_new built true .empty operations
  exact ⟨built, ⟨fresh, built', same .empty _⟩, obeyed, again trial unloaded undone trial⟩

end Monitored

end ChipEight
