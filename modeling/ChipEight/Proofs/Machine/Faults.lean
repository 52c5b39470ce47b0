import ChipEight.Proofs.Machine.Decoding
import ChipEight.Proofs.Machine.Step
import ChipEight.Proofs.Machine.WellFormed

/-!
# The faults of a step

`Faults` lists the faults that a step on a machine can meet, each with the condition on the machine
under which it is met: on the program counter, on the word that lies there, and on the registers and
the stack. It is written without the decoder and without the accesses of the machine.

`step_faults_iff` says that a step on a well-formed machine fails with exactly the listed faults and
succeeds wherever none is listed. The conditions exclude each other, so at most one fault is listed
(`WellFormed.faults_unique`).
-/

namespace ChipEight

/-- A word that has a block read at the index register, and the length of the block: the rows of a
sprite, or the registers that are loaded. -/
def Opcode.Reads (w : Opcode) (length : Nat) : Prop :=
  w.family = 0xD ∧ length = w.n.val ∨ w.family = 0xF ∧ w.nn = 0x65 ∧ length = w.x.val + 1

/-- A word that has a block written at the index register, and the length of the block: decimal
digits, or the registers that are stored. -/
def Opcode.Writes (w : Opcode) (length : Nat) : Prop :=
  w.family = 0xF ∧ (w.nn = 0x33 ∧ length = 3 ∨ w.nn = 0x55 ∧ length = w.x.val + 1)

instance (w : Opcode) (length : Nat) : Decidable (w.Writes length) :=
  inferInstanceAs (Decidable (_ ∧ _))

namespace Machine

/-- The faults of the word at the program counter. -/
inductive WordFaults (m : Machine) : Fault → Prop
  | unrecognized (shapeless : ¬m.word.IsInstruction) :
    WordFaults m (.unrecognizedOpcode m.word.toNat (some m.registers.pc))
  | underflow (word : m.word = 0x00EE) (empty : m.stack.frames = []) :
    WordFaults m (.stackUnderflow m.registers.pc)
  | overflow (limit : Nat) (word : m.word.family = 0x2) (limited : m.stack.limit = some limit)
    (full : limit ≤ m.stack.frames.length) :
    WordFaults m (.stackOverflow m.registers.pc limit)
  | key (word : m.word.family = 0xE ∧ (m.word.nn = 0x9E ∨ m.word.nn = 0xA1))
    (large : 15 < (m.v m.word.x).toNat) :
    WordFaults m (.invalidKey (m.v m.word.x).toNat (some m.registers.pc))
  | read (length : Nat) (word : m.word.Reads length) (past : memorySize < m.registers.i + length) :
    WordFaults m (.outOfBounds "read_bytes" m.registers.i length)
  | writePastAddresses (length : Nat) (word : m.word.Writes length)
    (past : 65536 < m.registers.i + length) :
    WordFaults m (.addressOverflow "write_bytes" m.registers.i length)
  | write (length : Nat) (word : m.word.Writes length) (fits : m.registers.i + length ≤ 65536)
    (past : memorySize < m.registers.i + length) :
    WordFaults m (.outOfBounds "write_bytes" m.registers.i length)

/-- The faults of a step: the word cannot be read, or it meets a fault of its own. -/
inductive Faults (m : Machine) : Fault → Prop
  | pastMemory (past : memorySize ≤ m.registers.pc) :
    Faults m (.outOfBounds "read_byte" m.registers.pc 1)
  | lastCell (last : m.registers.pc = memorySize - 1) :
    Faults m (.outOfBounds "read_byte" memorySize 1)
  | ofWord {e : Fault} (inside : m.registers.pc < memorySize - 1) (fault : m.WordFaults e) :
    Faults m e

/-! ## The checks of a well-formed machine -/

/-- A block that does not start below zero is outside the memory where its end is. -/
theorem outside?_eq (memory : Memory) (operation : String) {address length : Int}
    (start : 0 ≤ address) (count : 0 ≤ length) :
    memory.outside? operation address length =
      if memory.size < address + length then some (.outOfBounds operation address length)
      else none := by
  unfold Memory.outside?
  by_cases inside : memory.Covers address length
  · have within := inside.2.2
    rw [if_pos inside, if_neg (by omega)]
  · have past : memory.size < address + length := by
      unfold Memory.Covers at inside
      omega
    rw [if_neg inside, if_pos past]

theorem outside?_eq_some_iff {memory : Memory} {operation : String} {address : Int} {length : Nat}
    {e : Fault} (start : 0 ≤ address) :
    memory.outside? operation address length = some e ↔
      memory.size < address + length ∧ e = .outOfBounds operation address length := by
  rw [outside?_eq memory operation start (Int.natCast_nonneg length),
    Option.ite_none_right_eq_some, Option.some.injEq]
  simp only [eq_comm]

theorem writeFault?_eq_some_iff {memory : Memory} {address : Int} {length : Nat} {e : Fault}
    (start : 0 ≤ address) :
    memory.writeFault? address length = some e ↔
      65536 < address + length ∧ e = .addressOverflow "write_bytes" address length ∨
      address + length ≤ 65536 ∧ memory.size < address + length ∧
        e = .outOfBounds "write_bytes" address length := by
  unfold Memory.writeFault?
  split <;> grind [outside?_eq_some_iff, addressLimit]

/-- A block that a well-formed machine writes at its index register meets no fault if it ends in the
memory. -/
theorem WellFormed.writeFault?_eq_none {m : Machine} (wf : m.WellFormed) {length : Nat}
    (stop : m.registers.i + length ≤ memorySize) :
    m.memory.writeFault? m.registers.i length = none := by
  refine Option.eq_none_iff_forall_ne_some.mpr fun e met => ?_
  have size := wf.size
  have small : memorySize ≤ 65536 := by decide
  rcases (writeFault?_eq_some_iff wf.index).mp met with ⟨past, -⟩ | ⟨-, past, -⟩
  · omega
  · omega

theorem keyFault?_eq_some_iff {key : Nat} {pc : Option Int} {e : Fault} :
    Keypad.keyFault? key pc = some e ↔ 15 < key ∧ e = .invalidKey key pc := by
  unfold Keypad.keyFault? Keypad.key?
  by_cases large : 15 < key
  · have lacking : ¬(0 ≤ (key : Int) ∧ (key : Int) < 16) := by omega
    rw [dif_neg lacking]
    simp only [Option.some.injEq, large, true_and, eq_comm]
  · have present : 0 ≤ (key : Int) ∧ (key : Int) < 16 := by omega
    rw [dif_pos present]
    simp only [reduceCtorEq, large, false_and]

/-- A sprite can be drawn on a screen of the standard size. -/
theorem WellFormed.drawFault? {m : Machine} (wf : m.WellFormed) (rows : List UInt8) :
    m.screen.drawFault? rows = none := by
  unfold Screen.drawFault? Raster.lacksAxis
  rw [wf.width, wf.height]
  rfl

/-! ## The word at the program counter -/

theorem WellFormed.outside?_iff {m : Machine} (wf : m.WellFormed) {length : Nat} {e : Fault} :
    m.memory.outside? "read_bytes" m.registers.i length = some e ↔
      memorySize < m.registers.i + length ∧ e = .outOfBounds "read_bytes" m.registers.i length := by
  rw [outside?_eq_some_iff wf.index, wf.size]

/-- A fault of a block that the word writes is listed. -/
theorem WellFormed.wordFaults_of_writeFault? {m : Machine} (wf : m.WellFormed) {length : Nat}
    {e : Fault} (word : m.word.Writes length)
    (h : m.memory.writeFault? m.registers.i length = some e) : m.WordFaults e := by
  rcases (writeFault?_eq_some_iff wf.index).mp h with ⟨past, rfl⟩ | ⟨fits, past, rfl⟩
  · exact .writePastAddresses length word past
  · exact .write length word fits (wf.size ▸ past)

/-- A fault of the word at the program counter is listed. -/
theorem WellFormed.wordFaults_of_wordFault? {m : Machine} (wf : m.WellFormed) {e : Fault}
    (h : m.wordFault? = some e) : m.WordFaults e := by
  unfold wordFault? at h
  cases read : m.instruction? with
  | none =>
    rw [read] at h
    cases h
    exact .unrecognized (Instruction.decode_eq_none_iff.mp read)
  | some i =>
    rw [read] at h
    have spells := Instruction.spells_of_decode read
    cases i with
    | returnFromCall =>
      simp only [objection, CallStack.popFault?, Option.ite_none_right_eq_some] at h
      obtain ⟨empty, h⟩ := h
      cases h
      exact .underflow spells empty
    | call target =>
      simp only [objection, CallStack.pushFault?] at h
      cases limited : m.stack.limit with
      | none => simp only [limited, reduceCtorEq] at h
      | some limit =>
        simp only [limited, Option.ite_none_right_eq_some] at h
        obtain ⟨full, h⟩ := h
        cases h
        exact .overflow limit spells.1 limited full
    | draw x y rows =>
      obtain ⟨family, -, -, rfl⟩ := spells
      simp only [objection, wf.drawFault?, Option.or_none] at h
      obtain ⟨past, rfl⟩ := wf.outside?_iff.mp h
      exact .read m.word.n.val (.inl ⟨family, rfl⟩) past
    | skipIfPressed x =>
      obtain ⟨family, byte, rfl⟩ := spells
      obtain ⟨large, rfl⟩ := keyFault?_eq_some_iff.mp h
      exact .key ⟨family, .inl byte⟩ large
    | skipUnlessPressed x =>
      obtain ⟨family, byte, rfl⟩ := spells
      obtain ⟨large, rfl⟩ := keyFault?_eq_some_iff.mp h
      exact .key ⟨family, .inr byte⟩ large
    | storeDecimal x =>
      obtain ⟨family, byte, rfl⟩ := spells
      exact wf.wordFaults_of_writeFault? ⟨family, .inl ⟨byte, rfl⟩⟩ h
    | storeRegisters x =>
      obtain ⟨family, byte, rfl⟩ := spells
      exact wf.wordFaults_of_writeFault? ⟨family, .inr ⟨byte, rfl⟩⟩ h
    | loadRegisters x =>
      obtain ⟨family, byte, rfl⟩ := spells
      obtain ⟨past, rfl⟩ := wf.outside?_iff.mp h
      exact .read (m.word.x.val + 1) (.inr ⟨family, byte, rfl⟩) past
    -- The other instructions check nothing.
    | _ => cases h

theorem wordFault?_of_spells {m : Machine} {i : Instruction} (h : i.Spells m.word) :
    m.wordFault? = m.objection i := by
  have read : m.instruction? = some i := Instruction.decode_of_spells h
  rw [wordFault?, read]

/-- Reading the word at the program counter. -/
theorem fetch_eq_ok_iff {m : Machine} {w : Opcode} :
    fetch.run m = .ok w m ↔ m.fetchFault? = none ∧ m.word = w := by
  rw [fetch_run]
  cases m.fetchFault? <;> simp

/-- The machine is about to carry out an instruction: the word at its program counter can be read
and spells it. -/
def AboutTo (m : Machine) (i : Instruction) : Prop := ∃ w, fetch.run m = .ok w m ∧ i.Spells w

/-- **An instruction that meets no fault is carried out** by a machine that is about to do so. -/
theorem AboutTo.step {m : Machine} {i : Instruction} (about : m.AboutTo i)
    (met : m.objection i = none) :
    step.run m = .ok () { m.change i with executed := m.executed + 1 } := by
  obtain ⟨w, fetched, spells⟩ := about
  obtain ⟨clear, rfl⟩ := fetch_eq_ok_iff.mp fetched
  have read : m.instruction? = some i := Instruction.decode_of_spells spells
  have unfaulted : m.fault? = none := by
    rw [fault?, clear, Option.none_or, wordFault?_of_spells spells, met]
  exact step_eq_ok_iff.mpr ⟨unfaulted, by rw [next, read]⟩

/-- A block write that the word carries out meets the fault of the block. -/
theorem wordFault?_of_writes {m : Machine} {length : Nat} (word : m.word.Writes length) :
    m.wordFault? = m.memory.writeFault? m.registers.i length := by
  rcases word with ⟨family, ⟨byte, rfl⟩ | ⟨byte, rfl⟩⟩
  · exact wordFault?_of_spells (i := .storeDecimal m.word.x) ⟨family, byte, rfl⟩
  · exact wordFault?_of_spells (i := .storeRegisters m.word.x) ⟨family, byte, rfl⟩

/-- A listed fault of the word at the program counter is met. -/
theorem WellFormed.wordFault?_of_wordFaults {m : Machine} (wf : m.WellFormed) {e : Fault}
    (h : m.WordFaults e) : m.wordFault? = some e := by
  cases h with
  | unrecognized shapeless =>
    have refused : m.instruction? = none := Instruction.decode_eq_none_iff.mpr shapeless
    rw [wordFault?, refused]
  | underflow word empty =>
    have read := wordFault?_of_spells (i := .returnFromCall) word
    rw [read, objection, CallStack.popFault?, if_pos empty]
  | overflow limit word limited full =>
    have read := wordFault?_of_spells (i := .call m.word.nnn) ⟨word, rfl⟩
    simp only [read, objection, CallStack.pushFault?, limited]
    exact if_pos full
  | key word large =>
    obtain ⟨family, byte | byte⟩ := word
    · have read := wordFault?_of_spells (i := .skipIfPressed m.word.x) ⟨family, byte, rfl⟩
      exact read.trans (keyFault?_eq_some_iff.mpr ⟨large, rfl⟩)
    · have read := wordFault?_of_spells (i := .skipUnlessPressed m.word.x) ⟨family, byte, rfl⟩
      exact read.trans (keyFault?_eq_some_iff.mpr ⟨large, rfl⟩)
  | read length word past =>
    rcases word with ⟨family, rfl⟩ | ⟨family, byte, rfl⟩
    · have read := wordFault?_of_spells (i := .draw m.word.x m.word.y m.word.n)
        ⟨family, rfl, rfl, rfl⟩
      rw [read, objection, wf.drawFault?, Option.or_none]
      exact wf.outside?_iff.mpr ⟨past, rfl⟩
    · have read := wordFault?_of_spells (i := .loadRegisters m.word.x) ⟨family, byte, rfl⟩
      exact read.trans (wf.outside?_iff.mpr ⟨past, rfl⟩)
  | writePastAddresses length word past =>
    rw [wordFault?_of_writes word, writeFault?_eq_some_iff wf.index]
    exact .inl ⟨past, rfl⟩
  | write length word fits past =>
    rw [wordFault?_of_writes word, writeFault?_eq_some_iff wf.index, wf.size]
    exact .inr ⟨fits, past, rfl⟩

/-! ## The step -/

/-- The fault of reading the word, by the place of the program counter. -/
theorem WellFormed.fetchFault?_eq {m : Machine} (wf : m.WellFormed) :
    m.fetchFault? =
      if memorySize ≤ m.registers.pc then some (.outOfBounds "read_byte" m.registers.pc 1)
      else if m.registers.pc = memorySize - 1 then some (.outOfBounds "read_byte" memorySize 1)
      else none := by
  have pc := wf.pc
  rw [fetchFault?, outside?_eq m.memory _ pc (by decide),
    outside?_eq m.memory _ (by omega) (by decide), wf.size]
  by_cases past : memorySize ≤ m.registers.pc
  · rw [if_pos (by omega), if_pos past, Option.some_or]
  · rw [if_neg (by omega), if_neg past, Option.none_or]
    by_cases last : m.registers.pc = memorySize - 1
    · rw [if_pos (by omega), if_pos last, last, Int.sub_add_cancel]
    · rw [if_neg (by omega), if_neg last]

/-- A step on a well-formed machine meets exactly the listed faults. -/
theorem WellFormed.fault?_eq_some_iff {m : Machine} (wf : m.WellFormed) {e : Fault} :
    m.fault? = some e ↔ m.Faults e := by
  unfold fault?
  rw [wf.fetchFault?_eq]
  constructor
  · intro h
    split at h
    · cases h
      exact .pastMemory ‹_›
    · split at h
      · cases h
        exact .lastCell ‹_›
      · exact .ofWord (by omega) (wf.wordFaults_of_wordFault? h)
  · intro h
    cases h with
    | pastMemory past => rw [if_pos past, Option.some_or]
    | lastCell last => rw [if_neg (by omega), if_pos last, Option.some_or]
    | ofWord inside fault =>
      rw [if_neg (by omega), if_neg (by omega), Option.none_or]
      exact wf.wordFault?_of_wordFaults fault

/-- The listed faults are those of a machine. -/
theorem Faults.isOperational {m : Machine} {e : Fault} (listed : m.Faults e) :
    e.isOperational = true := by
  cases listed with
  | ofWord inside fault => cases fault <;> rfl
  | _ => rfl

/-- At most one fault is listed for a machine. -/
theorem WellFormed.faults_unique {m : Machine} (wf : m.WellFormed) {e e' : Fault}
    (h : m.Faults e) (h' : m.Faults e') : e = e' := by
  have met := wf.fault?_eq_some_iff.mpr h
  rw [wf.fault?_eq_some_iff.mpr h'] at met
  exact (Option.some.inj met).symm

/-- **Exactly the listed faults.** A step on a well-formed machine fails with a fault exactly if the
fault is listed, and succeeds exactly if none is. -/
theorem step_faults_iff (m : Machine) (wf : m.WellFormed) :
    (∀ e, (∃ m', step.run m = .error e m') ↔ m.Faults e) ∧
      ((∃ m', step.run m = .ok () m') ↔ ∀ e, ¬m.Faults e) := by
  constructor
  · intro e
    rw [← wf.fault?_eq_some_iff]
    simp only [step_eq_error_iff, exists_and_left, exists_eq', and_true]
  · simp only [step_eq_ok_iff, exists_and_left, exists_eq', and_true, ← wf.fault?_eq_some_iff,
      Option.eq_none_iff_forall_ne_some, ne_eq]

/-- Four registers stored at 0xFFFE end past the address space, which is found before the bounds of
the memory are. -/
theorem step_faults_storing :
    let m := (loaded [0xF3, 0x55]).withIndex 0xFFFE
    m.WellFormed ∧ ∃ m', step.run m = .error (.addressOverflow "write_bytes" 0xFFFE 4) m' := by
  intro m
  have wf : m.WellFormed := { loaded_wellFormed [0xF3, 0x55] with index := by decide }
  have word : m.word.Writes 4 := by decide +kernel
  have listed : m.Faults (.addressOverflow "write_bytes" 0xFFFE 4) :=
    .ofWord (by decide) (.writePastAddresses 4 word (by decide))
  exact ⟨wf, ((step_faults_iff m wf).1 _).mpr listed⟩

end Machine

end ChipEight
