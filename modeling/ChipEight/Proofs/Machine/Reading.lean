import ChipEight.Proofs.Machine.Footprint

/-!
# What a step reads of the memory

A step reads two cells for its word, and the block at the index register where the word draws a
sprite or loads registers. It looks at nothing else in the memory: two machines that differ only in
cells it does not read meet the same fault, or go on to machines that differ in the memory only. The
memories are no further apart afterwards. The block that a word writes is the same on both sides,
and each side keeps its own cells outside it.

An instruction sees the contents of the memory through its `operand` alone, and `stored` is the
block that it leaves behind. `withMemory` exchanges the memory of a machine, so that
`m.withMemory m'.memory = m'` says that two machines differ in their memories at most.
-/

namespace ChipEight

/-! ## Memories of one size -/

namespace Memory

variable {m m' : Memory} {address : Int}

/-- The check of a block asks for the size of the memory only. -/
theorem outside?_congr (size : m.size = m'.size) (operation : String) (address length : Int) :
    m.outside? operation address length = m'.outside? operation address length := by
  have covers : m.Covers address length ↔ m'.Covers address length := by
    rw [Covers, Covers, size]
  exact if_congr covers rfl rfl

theorem writeFault?_congr (size : m.size = m'.size) (address length : Int) :
    m.writeFault? address length = m'.writeFault? address length := by
  rw [writeFault?, writeFault?, outside?_congr size]

theorem cell_eq_getD (m : Memory) (k : Nat) : m.cell k = m.cells[k]?.getD 0 :=
  Array.getD_eq_getD_getElem?

/-- A block is the same in memories that agree on its cells. -/
theorem block_congr (size : m.size = m'.size) {length : Int}
    (agree : ∀ k, address.toNat ≤ k → k < address.toNat + length.toNat → m.cell k = m'.cell k) :
    m.block address length = m'.block address length := by
  have sized : m.cells.size = m'.cells.size := size
  refine List.ext_getElem? fun k => ?_
  rw [block, block, Array.getElem?_toList, Array.getElem?_toList, Array.getElem?_extract,
    Array.getElem?_extract, sized]
  by_cases among : k < min (address.toNat + length.toNat) m'.cells.size - address.toNat
  · have here := agree (address.toNat + k) (Nat.le_add_right _ _) (by omega)
    have inside : address.toNat + k < m'.cells.size := by omega
    rw [cell_eq_getD, cell_eq_getD, Array.getElem?_eq_getElem (sized ▸ inside),
      Array.getElem?_eq_getElem inside] at here
    rw [if_pos among, if_pos among, Array.getElem?_eq_getElem (sized ▸ inside),
      Array.getElem?_eq_getElem inside]
    exact congrArg some here
  · rw [if_neg among, if_neg among]

/-- After one block was written to both, memories agree on the block and where they agreed
before. -/
theorem cell_withBlock_congr (size : m.size = m'.size) {bytes : List UInt8} {k : Nat}
    (known : m.cell k = m'.cell k ∨ address.toNat ≤ k ∧ k < address.toNat + bytes.length) :
    (m.withBlock address bytes).cell k = (m'.withBlock address bytes).cell k := by
  have sized : m.cells.size = m'.cells.size := size
  by_cases among : address.toNat ≤ k ∧ k < address.toNat + bytes.length ∧ k < m'.cells.size
  · rw [cell_eq_getD, cell_eq_getD, withBlock, withBlock, getElem?_overwrite, getElem?_overwrite,
      if_pos (sized ▸ among), if_pos among]
  · have kept : m.cell k = m'.cell k := by
      rcases known with agreed | ⟨low, high⟩
      · exact agreed
      · have past : m'.cells.size ≤ k := by omega
        rw [cell_eq_getD, cell_eq_getD, Array.getElem?_eq_none (sized ▸ past),
          Array.getElem?_eq_none past]
    rw [cell_eq_getD, cell_eq_getD, withBlock, withBlock, getElem?_overwrite, getElem?_overwrite,
      if_neg (sized ▸ among), if_neg among, ← cell_eq_getD, ← cell_eq_getD, kept]

end Memory

namespace Machine

variable {m : Machine} {memory : Memory} {i : Instruction}

/-- The machine with another memory. -/
def withMemory (m : Machine) (memory : Memory) : Machine := { m with memory := memory }

theorem aside_withMemory (memory : Memory) : Aside fun m => m.withMemory memory where
  registers _ := rfl
  withV _ _ _ := rfl

/-! ## One instruction -/

/-- The bytes that an instruction reads. -/
def operand (m : Machine) : Instruction → List UInt8
  | .draw _ _ rows => m.sprite rows
  | .loadRegisters x => m.memory.block m.registers.i (x.val + 1 : Nat)
  | _ => []

/-- The bytes that an instruction stores. -/
def stored (m : Machine) : Instruction → List UInt8
  | .storeDecimal x => decimalDigits (m.v x)
  | .storeRegisters x => m.lowRegisters x
  | _ => []

theorem memoryAfter_eq (m : Machine) (i : Instruction) :
    m.memoryAfter i = m.memory.withBlock m.registers.i (m.stored i) := by
  cases i <;> rfl

/-- An instruction meets the same fault with another memory of the size, if it reads the same bytes
there. -/
theorem objection_withMemory (size : memory.size = m.memory.size)
    (read : (m.withMemory memory).operand i = m.operand i) :
    (m.withMemory memory).objection i = m.objection i := by
  cases i with
  | draw x y rows =>
    have sprite : (m.withMemory memory).sprite rows = m.sprite rows := read
    rw [objection, objection, sprite]
    exact congrArg (Option.or · _) (Memory.outside?_congr size _ _ _)
  | storeDecimal x => exact Memory.writeFault?_congr size _ _
  | storeRegisters x => exact Memory.writeFault?_congr size _ _
  | loadRegisters x => exact Memory.outside?_congr size _ _ _
  | _ => rfl

/-- **An instruction changes all but the memory as it does with another memory**, if it reads the
same bytes there. -/
theorem change_withMemory (read : (m.withMemory memory).operand i = m.operand i) :
    (m.withMemory memory).change i =
      (m.change i).withMemory ((m.withMemory memory).memoryAfter i) := by
  have aside := aside_withMemory memory
  cases i with
  | draw x y rows =>
    have sprite : (m.withMemory memory).sprite rows = m.sprite rows := read
    rw [change, change, sprite]
    rfl
  | loadRegisters x =>
    have block : memory.block m.registers.i (x.val + 1 : Nat) =
        m.memory.block m.registers.i (x.val + 1 : Nat) := read
    have loaded : (m.withMemory memory).withLowRegisters 0
          (memory.block m.registers.i (x.val + 1 : Nat)) =
        (m.withLowRegisters 0 (m.memory.block m.registers.i (x.val + 1 : Nat))).withMemory
          memory := by
      rw [block]
      exact aside.withLowRegisters m 0 _
    exact congrArg (fun m' => (m'.indexPast x).advance 1) loaded
  | arithmetic operation x y =>
    exact congrArg (fun m' => m'.advance 1) (aside.compute m operation x y)
  | waitForKey x =>
    simp only [change, withMemory]
    cases m.keypad.firstPressed <;> rfl
  | _ => rfl

/-! ## A step -/

/-- A cell that a step on the machine reads: one of the two of the word, or one of the block at the
index register that the word reads. -/
def ReadsCell (m : Machine) (k : Nat) : Prop :=
  (k : Int) = m.registers.pc ∨ (k : Int) = m.registers.pc + 1 ∨
    ∃ length, m.word.Reads length ∧ m.registers.i ≤ k ∧ k < m.registers.i + length

/-- A cell of the block at the index register that the word writes. -/
def WritesCell (m : Machine) (k : Nat) : Prop :=
  ∃ length, m.word.Writes length ∧ m.registers.i ≤ k ∧ k < m.registers.i + length

/-- A memory that agrees with the one of the machine on all cells that a step reads. -/
structure Agrees (m : Machine) (memory : Memory) : Prop where
  size : memory.size = m.memory.size
  cells : ∀ k, m.ReadsCell k → memory.cell k = m.memory.cell k

namespace Agrees

variable (agrees : m.Agrees memory) (wf : m.WellFormed)
include agrees wf

theorem word : (m.withMemory memory).word = m.word := by
  have pc := wf.pc
  have high := agrees.cells m.registers.pc.toNat (.inl (by omega))
  have low := agrees.cells (m.registers.pc + 1).toNat (.inr (.inl (by omega)))
  exact congrArg₂ Opcode.ofBytes high low

/-- An instruction reads no other block than its word does. -/
theorem operand (spells : i.Spells m.word) :
    (m.withMemory memory).operand i = m.operand i := by
  have index := wf.index
  have block {length : Nat} (reads : m.word.Reads length) :
      memory.block m.registers.i length = m.memory.block m.registers.i length := by
    refine Memory.block_congr agrees.size fun k low high => ?_
    exact agrees.cells k (.inr (.inr ⟨length, reads, by omega, by omega⟩))
  cases i with
  | draw x y rows =>
    obtain ⟨family, -, -, rfl⟩ := spells
    exact block (.inl ⟨family, rfl⟩)
  | loadRegisters x =>
    obtain ⟨family, byte, rfl⟩ := spells
    exact block (.inr ⟨family, byte, rfl⟩)
  | _ => rfl

theorem instruction? : (m.withMemory memory).instruction? = m.instruction? :=
  congrArg Instruction.decode (agrees.word wf)

/-- A step meets the same fault with both memories. -/
theorem fault? : (m.withMemory memory).fault? = m.fault? := by
  have fetched : (m.withMemory memory).fetchFault? = m.fetchFault? :=
    congrArg₂ Option.or (Memory.outside?_congr agrees.size _ _ _)
      (Memory.outside?_congr agrees.size _ _ _)
  have obeyed : (m.withMemory memory).wordFault? = m.wordFault? := by
    unfold wordFault?
    rw [agrees.instruction? wf, agrees.word wf]
    cases read : m.instruction? with
    | none => rfl
    | some i =>
      have spells : i.Spells m.word := Instruction.spells_of_decode read
      exact objection_withMemory agrees.size (agrees.operand wf spells)
  rw [Machine.fault?, fetched, obeyed, Machine.fault?]

/-- A step that meets no fault does the same to all but the memory, with both memories. -/
theorem next {i : Instruction} (read : m.instruction? = some i) :
    (m.withMemory memory).next = m.next.withMemory ((m.withMemory memory).memoryAfter i) := by
  have spells : i.Spells m.word := Instruction.spells_of_decode read
  have changed := change_withMemory (agrees.operand wf spells)
  rw [Machine.next, Machine.next, agrees.instruction? wf, read]
  exact congrArg (fun m' : Machine => { m' with executed := m.executed + 1 }) changed

end Agrees

/-! ## The cells after a step -/

/-- An instruction stores a block of the length that its word writes. -/
theorem length_stored (spells : i.Spells m.word) {length : Nat} (writes : m.word.Writes length) :
    (m.stored i).length = length := by
  obtain ⟨family, ⟨byte, rfl⟩ | ⟨byte, rfl⟩⟩ := writes
  · obtain rfl : i = .storeDecimal m.word.x := spells.unique ⟨family, byte, rfl⟩
    rfl
  · obtain rfl : i = .storeRegisters m.word.x := spells.unique ⟨family, byte, rfl⟩
    exact m.length_lowRegisters m.word.x

/-- Memories agree on the block that was written to both, and where they agreed before. -/
theorem cell_memoryAfter_congr (size : memory.size = m.memory.size) (index : 0 ≤ m.registers.i)
    (spells : i.Spells m.word) {k : Nat}
    (known : memory.cell k = m.memory.cell k ∨ m.WritesCell k) :
    ((m.withMemory memory).memoryAfter i).cell k = (m.memoryAfter i).cell k := by
  have stored : (m.withMemory memory).stored i = m.stored i := by
    cases i <;> rfl
  rw [memoryAfter_eq, memoryAfter_eq, stored]
  refine Memory.cell_withBlock_congr size (known.imp_right fun written => ?_)
  obtain ⟨length, writes, low, high⟩ := written
  have start : ((m.registers.i.toNat : Nat) : Int) = m.registers.i := Int.toNat_of_nonneg index
  rw [length_stored spells writes]
  change m.registers.i.toNat ≤ k ∧ k < m.registers.i.toNat + length
  omega

/-- A cell that the word does not write keeps its value. -/
theorem cell_next (clear : m.fault? = none) {k : Nat} (outside : ¬m.WritesCell k) :
    m.next.memory.cell k = m.memory.cell k := by
  obtain ⟨i, read, met, changed⟩ := instruction_of_fault? clear
  have spells : i.Spells m.word := Instruction.spells_of_decode read
  refine Decidable.byContradiction fun different => outside ?_
  rw [changed, change_eq] at different
  obtain ⟨length, stores, within⟩ := cell_memoryAfter met different
  exact ⟨length, spells.writes stores, within⟩

theorem size_next (clear : m.fault? = none) : m.next.memory.size = m.memory.size := by
  obtain ⟨i, -, -, changed⟩ := instruction_of_fault? clear
  rw [changed, change_eq, size_memoryAfter]

/-- **The read footprint of a step.** Two well-formed machines differ in their memories only, and
the memories agree on the cells that a step on the one reads. A step on both meets the same fault
and leaves them as they are, or it leaves machines that differ in their memories only: where the
memories agreed, and on the block that the word writes, they agree; and each keeps its own cells
outside that block. -/
theorem step_agrees {m m' : Machine} (wf : m.WellFormed) (wf' : m'.WellFormed)
    (same : m.withMemory m'.memory = m')
    (agree : ∀ k, m.ReadsCell k → m'.memory.cell k = m.memory.cell k) :
    (∃ e, step.run m = .error e m ∧ step.run m' = .error e m') ∨
      ∃ n n', step.run m = .ok () n ∧ step.run m' = .ok () n' ∧ n.withMemory n'.memory = n' ∧
        n.memory.size = m.memory.size ∧ n'.memory.size = m'.memory.size ∧
        ∀ k, (m'.memory.cell k = m.memory.cell k ∨ m.WritesCell k →
            n'.memory.cell k = n.memory.cell k) ∧
          (¬m.WritesCell k →
            n.memory.cell k = m.memory.cell k ∧ n'.memory.cell k = m'.memory.cell k) := by
  obtain ⟨memory, rfl⟩ : ∃ memory, m' = m.withMemory memory := ⟨m'.memory, same.symm⟩
  have agrees : m.Agrees memory := ⟨wf'.size.trans wf.size.symm, agree⟩
  have fault := agrees.fault? wf
  cases met : m.fault? with
  | some e =>
    exact .inl ⟨e, step_eq_error_iff.mpr ⟨met, rfl⟩, step_eq_error_iff.mpr ⟨fault.trans met, rfl⟩⟩
  | none =>
    have met' := fault.trans met
    obtain ⟨i, read, -, changed⟩ := instruction_of_fault? met
    have spells : i.Spells m.word := Instruction.spells_of_decode read
    have changed' := agrees.next wf read
    refine .inr ⟨m.next, (m.withMemory memory).next, step_eq_ok_iff.mpr ⟨met, rfl⟩,
      step_eq_ok_iff.mpr ⟨met', rfl⟩, ?_, size_next met, size_next met', fun k => ⟨?_, ?_⟩⟩
    · rw [changed']
      rfl
    · intro known
      rw [changed', changed, change_eq]
      exact cell_memoryAfter_congr agrees.size wf.index spells known
    · intro outside
      refine ⟨cell_next met outside, cell_next met' fun written => outside ?_⟩
      rw [WritesCell, agrees.word wf] at written
      exact written

/-- A program loads V0 and V1, and two memories differ in the cell right after them: it is not read,
and each side keeps its own value there. -/
theorem step_agrees_loading :
    let m := (loaded [0xF1, 0x65]).withIndex 0x300
    let m' := m.withMemory (m.memory.withBlock 0x302 [7])
    m.WellFormed ∧ m'.WellFormed ∧ (∀ k, m.ReadsCell k → m'.memory.cell k = m.memory.cell k) ∧
      m'.memory.cell 0x302 ≠ m.memory.cell 0x302 ∧
      ∃ n n', step.run m = .ok () n ∧ step.run m' = .ok () n' ∧ n.withMemory n'.memory = n' ∧
        n.memory.cell 0x302 = m.memory.cell 0x302 ∧
        n'.memory.cell 0x302 = m'.memory.cell 0x302 := by
  intro m m'
  have wf : m.WellFormed := { loaded_wellFormed [0xF1, 0x65] with index := by decide }
  have wf' : m'.WellFormed := { wf with size := (Memory.size_withBlock _ _ _).trans wf.size }
  obtain ⟨word, clear⟩ : m.word = 0xF165 ∧ m.fault? = none := by decide +kernel
  have agree (k : Nat) (read : m.ReadsCell k) : m'.memory.cell k = m.memory.cell k := by
    have before : k < 0x302 := by
      rcases read with high | low | ⟨length, reads, -, past⟩
      · change (k : Int) = 0x200 at high
        omega
      · change (k : Int) = 0x200 + 1 at low
        omega
      · rw [word] at reads
        rcases reads with ⟨family, -⟩ | ⟨-, -, rfl⟩
        · cases family
        · change (k : Int) < 0x300 + (2 : Nat) at past
          omega
    exact Memory.cell_withBlock_outside (.inl before)
  have unwritten : ¬m.WritesCell 0x302 := by
    rintro ⟨length, writes, -⟩
    rw [word] at writes
    rcases writes with ⟨-, ⟨byte, -⟩ | ⟨byte, -⟩⟩
    · cases byte
    · cases byte
  have different : m'.memory.cell 0x302 ≠ m.memory.cell 0x302 := by decide +kernel
  refine ⟨wf, wf', agree, different, ?_⟩
  rcases step_agrees wf wf' rfl agree with ⟨e, failed, -⟩ | ⟨n, n', left, right, rest, -, -, cells⟩
  · rw [step_eq_error_iff, clear] at failed
    cases failed.1
  · exact ⟨n, n', left, right, rest, (cells 0x302).2 unwritten⟩

end Machine

end ChipEight
