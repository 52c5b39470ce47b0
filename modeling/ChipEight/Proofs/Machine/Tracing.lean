import ChipEight.Proofs.Machine.Disassembly
import ChipEight.Proofs.Machine.Resetting

/-!
# Tracing

A traced machine does what it does untraced. An untraced run is the traced one without its entries
of level DEBUG: the answers and the machines are the same, operation for operation.

`Sight.Tells` lists the sights of an operation on a traced machine, each with the condition under
which a host has it. It is written with the reading of the word, the step and the texts of words,
not with what the tracing machine does between them. A step that reads its word tells of it, and one
that succeeds tells of the machine after it. Two facts join the text of a word to the fault of its
step: no instruction meets the fault of an unknown word, and none has the text that stands for one.

`Account` tells a run sight by sight. The course of a traced machine is such an account, and its
entries in order are what the journal gains.
-/

namespace ChipEight

/-! ## Unknown words -/

namespace Machine

variable {m : Machine}

/-- No instruction meets the fault of a word that is none. -/
theorem objection_ne_unrecognized (m : Machine) (i : Instruction) (opcode : Int)
    (pc : Option Int) : m.objection i ≠ some (.unrecognizedOpcode opcode pc) := by
  have outside (operation : String) (address length : Int) :
      m.memory.outside? operation address length ≠ some (.unrecognizedOpcode opcode pc) := by
    unfold Memory.outside?
    split <;> simp
  have write (address length : Int) :
      m.memory.writeFault? address length ≠ some (.unrecognizedOpcode opcode pc) := by
    unfold Memory.writeFault?
    split
    · simp
    · exact outside _ _ _
  have key (key : Int) (place : Option Int) :
      Keypad.keyFault? key place ≠ some (.unrecognizedOpcode opcode pc) := by
    unfold Keypad.keyFault?
    split <;> simp
  cases i with
  | returnFromCall =>
    simp only [objection, CallStack.popFault?]
    split <;> simp
  | call target =>
    simp only [objection, CallStack.pushFault?]
    split
    · split <;> simp
    · simp
  | draw x y rows =>
    have drawn : m.screen.drawFault? (m.sprite rows) ≠ some (.unrecognizedOpcode opcode pc) := by
      unfold Screen.drawFault?
      split <;> simp
    intro met
    rcases Option.or_eq_some_iff.mp met with read | ⟨-, refused⟩
    · exact outside _ _ _ read
    · exact drawn refused
  | skipIfPressed x | skipUnlessPressed x => exact key _ _
  | storeDecimal x | storeRegisters x => exact write _ _
  | loadRegisters x => exact outside _ _ _
  | _ => simp [objection]

/-- A word has no text exactly if it is met as unrecognized. -/
theorem mnemonic_eq_none_iff_of_wordFault? {e : Fault} (met : m.wordFault? = some e) :
    mnemonic m.word = none ↔ ∃ opcode pc, e = .unrecognizedOpcode opcode pc := by
  unfold wordFault? at met
  rw [ChipEight.mnemonic_eq_none_iff]
  change m.instruction? = none ↔ _
  cases read : m.instruction? with
  | none =>
    rw [read] at met
    exact iff_of_true rfl ⟨_, _, (Option.some.inj met).symm⟩
  | some i =>
    rw [read] at met
    refine iff_of_false (Option.some_ne_none i) ?_
    rintro ⟨opcode, pc, rfl⟩
    exact m.objection_ne_unrecognized i opcode pc met

/-- A word that meets no fault has a text. -/
theorem exists_mnemonic (clear : m.wordFault? = none) : ∃ text, mnemonic m.word = some text := by
  unfold wordFault? at clear
  cases read : m.instruction? with
  | none =>
    rw [read] at clear
    cases clear
  | some i =>
    exact ⟨i.text, (mnemonic_eq_map_text m.word).trans (congrArg (Option.map Instruction.text) read)⟩

end Machine

/-- No instruction is written like a word that is none: its verb begins with another sign. -/
theorem Instruction.text_ne_unknown (i : Instruction) : i.text ≠ Monitored.unknownText :=
  text_ne_of_take (n := 1) (by decide) i

/-- A word is shown as unknown exactly if it has no text. -/
theorem shown_unknown_iff {w : Opcode} :
    (mnemonic w).getD Monitored.unknownText = Monitored.unknownText ↔ mnemonic w = none := by
  cases read : mnemonic w with
  | none => exact iff_of_true rfl rfl
  | some text =>
    rw [mnemonic_eq_map_text] at read
    obtain ⟨i, -, rfl⟩ := Option.map_eq_some_iff.mp read
    exact iff_of_false i.text_ne_unknown (Option.some_ne_none _)

/-! ## What tracing tells -/

/-- An entry on a step. -/
def Entry.ofStep (message : String) : Entry := ⟨.debug, "chip8vm.cpu", message⟩

/-- The message on a word and the address that it was read at: both have four hexadecimal digits,
or as many as it takes. -/
def wordMessage (address : Int) (w : Opcode) (text : String) : String :=
  Text.hexNumber 4 address ++ ": " ++ Text.hexField 4 w.toNat ++ "  " ++ text

namespace Sight

/-- What a host sees without the entries of level DEBUG. -/
def withoutDebug (s : Sight) : Sight := { s with entries := s.entries.filter (·.level != .debug) }

/-- **What a host sees of an operation on a traced machine.** -/
inductive Tells (m : Machine) : Operation → Sight → Prop
  /-- The word cannot be read, and nothing is told. -/
  | unread {e : Fault} (fetched : Machine.fetch.run m = .error e m)
    (stepped : Machine.step.run m = .error e m) :
    Tells m .step ⟨.error e, m, []⟩
  /-- The word is told, but the step fails. Question marks stand in for the text exactly if the word
  is met as unrecognized. -/
  | failed {w : Opcode} {e : Fault} (text : String)
    (fetched : Machine.fetch.run m = .ok w m) (stepped : Machine.step.run m = .error e m)
    (shown : text = (mnemonic w).getD "???")
    (unknown : text = "???" ↔ ∃ opcode pc, e = .unrecognizedOpcode opcode pc) :
    Tells m .step ⟨.error e, m, [.ofStep (wordMessage m.registers.pc w text)]⟩
  /-- The word is told, and the machine after it. -/
  | done {w : Opcode} {text : String} {m' : Machine}
    (fetched : Machine.fetch.run m = .ok w m) (stepped : Machine.step.run m = .ok () m')
    (named : mnemonic w = some text) :
    Tells m .step ⟨.ok .done, m',
      [.ofStep (wordMessage m.registers.pc w text), .ofStep m'.describe]⟩
  /-- Only steps are traced. -/
  | other {operation : Operation} {entries : List Entry} (unstepped : operation ≠ .step)
    (undetailed : ∀ entry ∈ entries, entry.level ≠ .debug) :
    Tells m operation ⟨(operation.apply m).1, (operation.apply m).2, entries⟩

end Sight

/-- **An account of a run**: what a host sees of each operation on a traced machine, in order. -/
inductive Account : Machine → List Operation → List Sight → Prop
  | nil (m : Machine) : Account m [] []
  | cons {m : Machine} {operation : Operation} {rest : List Operation} {sight : Sight}
    {sights : List Sight} (first : Sight.Tells m operation sight)
    (others : Account sight.machine rest sights) :
    Account m (operation :: rest) (sight :: sights)

/-! ## Traced operations -/

namespace Operation

/-- A step of a traced machine is told. -/
theorem tells_step (m : Machine) :
    Sight.Tells m .step ⟨(step.apply m).1, (step.apply m).2, m.stepEntries⟩ := by
  have fetched := m.fetch_run
  have stepped := m.step_run
  rw [apply_step]
  unfold Machine.stepEntries
  unfold Machine.fault? at stepped ⊢
  cases unread : m.fetchFault? with
  | some e =>
    rw [unread] at fetched stepped
    exact .unread fetched stepped
  | none =>
    rw [unread] at fetched stepped
    cases met : m.wordFault? with
    | some e =>
      rw [met] at stepped
      have unknown := shown_unknown_iff.trans (Machine.mnemonic_eq_none_iff_of_wordFault? met)
      exact .failed _ fetched stepped rfl unknown
    | none =>
      rw [met] at stepped
      obtain ⟨text, named⟩ := Machine.exists_mnemonic met
      have line : m.wordEntry = .ofStep (wordMessage m.registers.pc m.word text) := by
        rw [Machine.wordEntry, Monitored.wordLine, named]
        rfl
      rw [line]
      exact .done fetched stepped named

/-- **A traced operation is told**, whatever the machine. -/
theorem tells (m : Machine) (operation : Operation) :
    Sight.Tells m operation
      ⟨(operation.apply m).1, (operation.apply m).2, operation.entries true m⟩ := by
  cases operation with
  | step => exact tells_step m
  | load image =>
    refine .other (by simp) fun entry among => ?_
    unfold entries at among
    cases met : m.memory.writeFault? programStart image.length with
    | some e => simp [met] at among
    | none =>
      simp only [met, List.mem_singleton] at among
      subst among
      simp [Monitored.loadEntry]
  | _ => exact .other (by simp) fun _ among => nomatch among

/-- **An untraced operation makes the entries of a traced one but for those of level DEBUG.** -/
theorem entries_untraced (m : Machine) (operation : Operation) :
    operation.entries false m = (operation.entries true m).filter (·.level != .debug) := by
  cases operation with
  | step =>
    simp only [entries, Bool.false_eq_true, if_false, if_true, Machine.stepEntries]
    split <;> rfl
  | load image =>
    simp only [entries]
    split <;> rfl
  | _ => rfl

end Operation

/-! ## Traced runs -/

namespace Monitored

/-- The course of a machine, one operation after the other. -/
theorem course_cons (t : Monitored) (operation : Operation) (rest : List Operation) :
    t.course (operation :: rest) =
      ⟨(operation.apply t.machine).1, (operation.apply t.machine).2,
        operation.entries t.tracing t.machine⟩ :: (operation.monitor t).2.course rest := by
  simp only [course, operation.monitor_eq, Journal.since_extend]

/-- The journal gains what a host sees of it, in order. -/
theorem journal_after (t : Monitored) (operations : List Operation) :
    (t.after operations).journal =
      t.journal.extend ((t.course operations).flatMap Sight.entries) := by
  induction operations generalizing t with
  | nil => exact (Journal.extend_nil _).symm
  | cons operation rest ih =>
    refine (ih (operation.monitor t).2).trans ?_
    rw [course_cons, List.flatMap_cons, ← Journal.extend_extend, operation.monitor_eq]

/-- The course of a traced machine is an account. -/
theorem account_course (m : Machine) (journal : Journal) (operations : List Operation) :
    Account m operations (course ⟨m, true, journal⟩ operations) := by
  induction operations generalizing m journal with
  | nil => exact .nil m
  | cons operation rest ih =>
    rw [course_cons, operation.monitor_eq]
    exact .cons (operation.tells m) (ih _ _)

/-- The course of an untraced machine is the one of a traced machine without the entries of level
DEBUG. -/
theorem course_untraced (m : Machine) (journal journal' : Journal) (operations : List Operation) :
    course ⟨m, false, journal'⟩ operations =
      (course ⟨m, true, journal⟩ operations).map Sight.withoutDebug := by
  induction operations generalizing m journal journal' with
  | nil => rfl
  | cons operation rest ih =>
    rw [course_cons, course_cons, List.map_cons, operation.monitor_eq, operation.monitor_eq]
    refine List.cons_eq_cons.mpr ⟨?_, ih _ _ _⟩
    rw [Sight.withoutDebug, operation.entries_untraced]

/-- **Tracing changes nothing and leaves nothing out.** For any machine and any operations, steps or
others, what a host sees of the untraced machine is what it sees of the traced one without the
entries of level DEBUG, so that all answers, faults and machines are the same. What it sees of the
traced one is an account of the run, and the journals gain just these entries, in order. -/
theorem tracing_only_tells (m : Machine) (journal journal' : Journal)
    (operations : List Operation) :
    let traced := course ⟨m, true, journal⟩ operations
    let untraced := course ⟨m, false, journal'⟩ operations
    untraced = traced.map Sight.withoutDebug ∧
      Account m operations traced ∧
      (after ⟨m, true, journal⟩ operations).journal =
        journal.extend (traced.flatMap Sight.entries) ∧
      (after ⟨m, false, journal'⟩ operations).journal =
        journal'.extend (untraced.flatMap Sight.entries) :=
  ⟨course_untraced m journal journal' operations, account_course m journal operations,
    journal_after _ operations, journal_after _ operations⟩

/-- A traced machine sets V0, and meets a word that is no instruction after a tick. Its journal
holds three lines, and that of the untraced machine none. -/
theorem tracing_only_tells_unknown :
    let m := Machine.loaded [0x60, 0x2A, 0x50, 0x01]
    let operations := [.step, .tick, .step]
    let lines := ["0200: 602A  LD V0, 0x2A",
      "PC=0202 I=0000 DT=00 ST=00 SP=0 V0=2A V1=00 V2=00 V3=00 V4=00 V5=00 V6=00 V7=00 " ++
        "V8=00 V9=00 VA=00 VB=00 VC=00 VD=00 VE=00 VF=00",
      "0202: 5001  ???"]
    Account m operations (course ⟨m, true, .empty⟩ operations) ∧
      (after ⟨m, true, .empty⟩ operations).journal =
        Journal.empty.extend (lines.map Entry.ofStep) ∧
      (after ⟨m, false, .empty⟩ operations).journal = .empty := by
  intro m operations lines
  obtain ⟨undetailed, account, traced, untraced⟩ :=
    tracing_only_tells m .empty .empty operations
  have told : (course ⟨m, true, .empty⟩ operations).flatMap Sight.entries =
      lines.map Entry.ofStep := by
    decide +kernel
  have silent : ((course ⟨m, true, .empty⟩ operations).map Sight.withoutDebug).flatMap
      Sight.entries = [] := by
    decide +kernel
  rw [told] at traced
  rw [undetailed, silent, Journal.extend_nil] at untraced
  exact ⟨account, traced, untraced⟩

end Monitored

end ChipEight
