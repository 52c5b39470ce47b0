import ChipEight.Proofs.Machine.Step

/-!
# The control of a machine

The control of a machine decides where it goes on and which block it works on: the program counter,
the index register and the return addresses. The machine computes it in sixteen bits. `steer` says
what an instruction does to the control in plain integers, and takes no mask but in the addition of
a register to the index register.

`control_next` says that the two agree on every step that meets no fault: a word is read only inside
the memory, and a block is checked before the index register moves past it, so that no other mask
ever changes a value.
-/

namespace ChipEight

namespace Memory

/-- No fault is met exactly where the block lies in the memory. -/
theorem outside?_eq_none_iff {m : Memory} {operation : String} {address length : Int} :
    m.outside? operation address length = none ↔ m.Covers address length := by
  simp only [outside?, ite_eq_left_iff, reduceCtorEq, imp_false, Decidable.not_not]

/-- A block that can be written lies in the memory. -/
theorem covers_of_writeFault? {m : Memory} {address length : Int}
    (clear : m.writeFault? address length = none) : m.Covers address length := by
  unfold writeFault? at clear
  split at clear
  · cases clear
  · exact outside?_eq_none_iff.mp clear

end Memory

namespace Machine

/-- The program counter, the index register and the return addresses, the newest first. -/
structure Control where
  pc : Int
  index : Int
  frames : List Int
deriving DecidableEq, Repr

def control (m : Machine) : Control where
  pc := m.registers.pc
  index := m.registers.i
  frames := m.stack.frames.map fun address => (address.toNat : Int)

/-- Does an instruction skip the word after it? -/
def skips (m : Machine) : Instruction → Bool
  | .skipIfByte x value => m.v x == value
  | .skipUnlessByte x value => m.v x != value
  | .skipIfSame x y => m.v x == m.v y
  | .skipUnlessSame x y => m.v x != m.v y
  | .skipIfPressed x => m.keypad.isDown (m.v x).toNat
  | .skipUnlessPressed x => !m.keypad.isDown (m.v x).toNat
  | _ => false

/-- What an instruction does to the control, in plain integers. -/
def steer (m : Machine) (i : Instruction) : Control :=
  match i with
  | .returnFromCall =>
    { m.control with pc := m.stack.top.toNat, frames := m.control.frames.tail }
  | .jump target => { m.control with pc := target.val }
  | .call target =>
    { m.control with pc := target.val, frames := (m.registers.pc + 2) :: m.control.frames }
  | .jumpPlus base => { m.control with pc := (m.v 0).toNat + base.val }
  | .setIndex address => { m.control with pc := m.registers.pc + 2, index := address.val }
  | .addToIndex x =>
    { m.control with
      pc := m.registers.pc + 2
      index := (m.registers.i + (m.v x).toNat) % 65536 }
  | .indexGlyph x =>
    { m.control with pc := m.registers.pc + 2, index := glyphAddress (m.v x).toNat }
  | .storeRegisters x | .loadRegisters x =>
    { m.control with pc := m.registers.pc + 2, index := m.registers.i + (x.val + 1) }
  | .waitForKey _ =>
    match m.keypad.firstPressed with
    | none => m.control
    | some _ => { m.control with pc := m.registers.pc + 2 }
  | i => { m.control with pc := m.registers.pc + if m.skips i then 4 else 2 }

/-! ## Masks that change nothing -/

theorem wrap16_eq {n : Int} (low : 0 ≤ n) (high : n < 65536) : wrap16 n = n :=
  Int.emod_eq_of_lt low high

/-- A machine moves on from anywhere in the memory without a mask. -/
theorem advance_eq {m : Machine} {words : Int} (low : 0 ≤ m.registers.pc)
    (high : m.registers.pc ≤ 4094) (positive : 0 ≤ words) (few : words ≤ 2) :
    m.advance words = m.withPc (m.registers.pc + 2 * words) := by
  have kept : wrap16 (m.registers.pc + 2 * words) = m.registers.pc + 2 * words :=
    wrap16_eq (by omega) (by omega)
  exact congrArg m.withPc kept

theorem control_advance {m : Machine} {words : Int} (low : 0 ≤ m.registers.pc)
    (high : m.registers.pc ≤ 4094) (positive : 0 ≤ words) (few : words ≤ 2) :
    (m.advance words).control = { m.control with pc := m.registers.pc + 2 * words } :=
  congrArg control (advance_eq low high positive few)

theorem control_skipIf {m : Machine} (low : 0 ≤ m.registers.pc) (high : m.registers.pc ≤ 4094)
    (condition : Bool) :
    (m.skipIf condition).control =
      { m.control with pc := m.registers.pc + if condition then 4 else 2 } := by
  cases condition
  · exact control_advance low high (by decide) (by decide)
  · exact control_advance low high (by decide) (by decide)

/-- The return address of a call from inside the memory takes no mask. -/
theorem frames_pushed {m : Machine} (low : 0 ≤ m.registers.pc) (high : m.registers.pc ≤ 4094) :
    (m.stack.pushed (m.registers.pc + instructionSize)).frames.map
        (fun address => (address.toNat : Int)) =
      (m.registers.pc + 2) :: m.control.frames := by
  have kept : ((UInt16.ofNat ((m.registers.pc + 2) % 65536).toNat).toNat : Int) =
      m.registers.pc + 2 := by
    rw [UInt16.toNat_ofNat']
    omega
  exact congrArg (· :: m.control.frames) kept

/-- The index register moves past a block inside the memory without a mask. -/
theorem control_indexPast {m : Machine} {x : Fin 16} (low : 0 ≤ m.registers.pc)
    (high : m.registers.pc ≤ 4094) (start : 0 ≤ m.registers.i)
    (stop : m.registers.i + (x.val + 1 : Nat) ≤ 4096) :
    ((m.indexPast x).advance 1).control =
      { m.control with pc := m.registers.pc + 2, index := m.registers.i + (x.val + 1) } := by
  have kept : wrap16 (m.registers.i + x.val + 1) = m.registers.i + (x.val + 1) := by
    rw [wrap16_eq (by omega) (by omega)]
    omega
  have moved : ((m.indexPast x).advance 1).control =
      { (m.indexPast x).control with pc := m.registers.pc + 2 } :=
    control_advance low high (by decide) (by decide)
  rw [moved]
  exact congrArg (fun index => Control.mk (m.registers.pc + 2) index m.control.frames) kept

/-! ## Every instruction -/

/-- **An instruction that meets no fault steers the machine in plain integers.** -/
theorem control_change {m : Machine} {i : Instruction} (size : m.memory.size = memorySize)
    (low : 0 ≤ m.registers.pc) (high : m.registers.pc ≤ 4094) (clear : m.objection i = none) :
    (m.change i).control = m.steer i := by
  -- Every case moves on from a machine with the control of `m`, up to the index register.
  have moved (m' : Machine) (same : m'.registers.pc = m.registers.pc) :
      (m'.advance 1).control = { m'.control with pc := m.registers.pc + 2 } := by
    rw [← same]
    exact control_advance (same ▸ low) (same ▸ high) (by decide) (by decide)
  have fits : (m.memory.size : Int) ≤ 4096 := by
    rw [size]
    decide
  cases i with
  | returnFromCall =>
    simp only [change, steer, control, withPc, CallStack.popped, List.map_tail]
  | jump target => rfl
  | jumpPlus base => rfl
  | call target => exact congrArg (Control.mk _ _) (frames_pushed low high)
  | skipIfByte x value => exact control_skipIf low high _
  | skipUnlessByte x value => exact control_skipIf low high _
  | skipIfSame x y => exact control_skipIf low high _
  | skipUnlessSame x y => exact control_skipIf low high _
  | skipIfPressed x => exact control_skipIf low high _
  | skipUnlessPressed x => exact control_skipIf low high _
  | waitForKey x =>
    simp only [change, steer]
    cases m.keypad.firstPressed with
    | none => rfl
    | some key => exact moved (m.withV x (UInt8.ofNat key.val)) rfl
  | arithmetic operation x y =>
    rw [change, compute_eq]
    exact moved _ rfl
  | storeRegisters x =>
    have inside := Memory.covers_of_writeFault? clear
    exact control_indexPast
      (m := { m with memory := m.memory.withBlock m.registers.i (m.lowRegisters x) })
      low high inside.1 (Int.le_trans inside.2.2 fits)
  | loadRegisters x =>
    have inside := Memory.outside?_eq_none_iff.mp clear
    rw [change, withLowRegisters_eq]
    exact control_indexPast low high inside.1 (Int.le_trans inside.2.2 fits)
  | _ => exact moved _ rfl

/-- A word that can be read lies in the memory, both of its bytes. -/
theorem pc_of_fault? {m : Machine} (size : m.memory.size = memorySize) (clear : m.fault? = none) :
    0 ≤ m.registers.pc ∧ m.registers.pc ≤ 4094 := by
  obtain ⟨fetched, -⟩ := Option.or_eq_none_iff.mp clear
  obtain ⟨high, low⟩ := Option.or_eq_none_iff.mp fetched
  have first := Memory.outside?_eq_none_iff.mp high
  have second := Memory.outside?_eq_none_iff.mp low
  have last := second.2.2
  rw [size, memorySize] at last
  exact ⟨first.1, by omega⟩

/-- An instruction that is read in the memory and meets no fault is carried out. -/
theorem fault?_eq_none {m : Machine} {i : Instruction} (size : m.memory.size = memorySize)
    (low : 0 ≤ m.registers.pc) (high : m.registers.pc ≤ 4094) (read : m.instruction? = some i)
    (met : m.objection i = none) :
    m.fault? = none ∧ m.next = { m.change i with executed := m.executed + 1 } := by
  have covers (address : Int) (start : 0 ≤ address) (stop : address ≤ 4095) :
      m.memory.outside? "read_byte" address 1 = none := by
    refine Memory.outside?_eq_none_iff.mpr ⟨start, by decide, ?_⟩
    rw [size, memorySize]
    omega
  constructor
  · refine Option.or_eq_none_iff.mpr ⟨Option.or_eq_none_iff.mpr ⟨?_, ?_⟩, ?_⟩
    · exact covers _ low (by omega)
    · exact covers _ (by omega) (by omega)
    · simp only [wordFault?, read, met]
  · simp only [next, read]

/-- **The control after a step.** A step that meets no fault carries an instruction out and steers
the machine in plain integers. -/
theorem control_next {m : Machine} (size : m.memory.size = memorySize) (clear : m.fault? = none) :
    ∃ i, m.instruction? = some i ∧ m.next.control = m.steer i := by
  obtain ⟨low, high⟩ := pc_of_fault? size clear
  obtain ⟨i, read, met, changed⟩ := instruction_of_fault? clear
  rw [changed]
  exact ⟨i, read, control_change size low high met⟩

end Machine

end ChipEight
