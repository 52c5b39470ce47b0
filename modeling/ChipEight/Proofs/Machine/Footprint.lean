import ChipEight.Proofs.Machine.Faults
import ChipEight.Proofs.Machine.GeneralRegisters
import ChipEight.Proofs.Machine.Range

/-!
# The footprint of a step

A step that succeeds touches few parts of the machine. `Footprint` lists for each part the words
under which it may change, by their digits: the cells of the memory, the screen with its mark, the
call stack, the two timers, the index register, the random source, and each of the general
registers. The keypad never changes, and the count always grows by one. `step_footprint` says that
every step on a well-formed machine stays within it.

Each part has a lemma of its own about an instruction that meets no fault, with one case for each
constructor that touches the part. `Spells` turns the instruction into the digits of the word.
-/

namespace ChipEight

/-! ## The words that touch a part -/

namespace Opcode

/-- A word that sets the index register. -/
def SetsIndex (w : Opcode) : Prop :=
  w.family = 0xA ∨ w.family = 0xF ∧ w.nn ∈ [0x1E, 0x29, 0x55, 0x65]

/-- A word that writes a general register: its destination alone, its destination and the flag, the
flag alone, or all registers up to Vx. -/
def WritesRegister (w : Opcode) (r : Fin 16) : Prop :=
  (w.family ∈ [0x6, 0x7, 0xC] ∨ w.family = 0x8 ∧ w.n ∈ [0x0, 0x1, 0x2, 0x3] ∨
      w.family = 0xF ∧ w.nn ∈ [0x07, 0x0A]) ∧ r = w.x ∨
    w.family = 0x8 ∧ w.n ∈ [0x4, 0x5, 0x6, 0x7, 0xE] ∧ (r = w.x ∨ r = flagRegister) ∨
    w.family = 0xD ∧ r = flagRegister ∨
    w.family = 0xF ∧ w.nn = 0x65 ∧ r ≤ w.x

end Opcode

namespace Instruction

/-- The length of the block that an instruction stores at the index register. -/
def stored? : Instruction → Option Nat
  | .storeDecimal _ => some 3
  | .storeRegisters x => some (x.val + 1)
  | _ => none

theorem Spells.writes {w : Opcode} {i : Instruction} (spells : i.Spells w) {length : Nat}
    (stores : i.stored? = some length) : w.Writes length := by
  cases i with
  | storeDecimal x =>
    cases stores
    exact ⟨spells.1, .inl ⟨spells.2.1, rfl⟩⟩
  | storeRegisters x =>
    cases stores
    obtain ⟨family, byte, rfl⟩ := spells
    exact ⟨family, .inr ⟨byte, rfl⟩⟩
  | _ => cases stores

/-- A word spells one instruction only. -/
theorem Spells.unique {w : Opcode} {i j : Instruction} (spells : i.Spells w)
    (spells' : j.Spells w) : i = j :=
  Option.some.inj ((decode_of_spells spells).symm.trans (decode_of_spells spells'))

end Instruction

namespace Machine

variable {m : Machine} {i : Instruction} {w : Opcode}

/-- What may be different after a step that carried out a word. -/
structure Footprint (w : Opcode) (m m' : Machine) : Prop where
  size : m'.memory.size = m.memory.size
  cells : ∀ k, m'.memory.cell k ≠ m.memory.cell k →
    ∃ length, w.Writes length ∧ m.registers.i ≤ k ∧ k < m.registers.i + length
  screen : m'.screen ≠ m.screen → w = 0x00E0 ∨ w.family = 0xD
  limit : m'.stack.limit = m.stack.limit
  called : w.family = 0x2 → ∃ address : UInt16,
    m'.stack.entries = m.stack.entries ++ [address] ∧ (address.toNat : Int) = m.registers.pc + 2
  returned : w = 0x00EE → ∃ address, m.stack.entries = m'.stack.entries ++ [address]
  stack : m'.stack ≠ m.stack → w.family = 0x2 ∨ w = 0x00EE
  delay : m'.timers.delay ≠ m.timers.delay → w.family = 0xF ∧ w.nn = 0x15
  sound : m'.timers.sound ≠ m.timers.sound → w.family = 0xF ∧ w.nn = 0x18
  index : m'.registers.i ≠ m.registers.i → w.SetsIndex
  stream : m'.random.stream = m.random.stream
  drawn : m'.random.drawn = m.random.drawn + if w.family = 0xC then 1 else 0
  keypad : m'.keypad = m.keypad
  registers : ∀ r, m'.v r ≠ m.v r → w.WritesRegister r
  executed : m'.executed = m.executed + 1

/-! ## Each part -/

/-- An instruction changes a cell only where it stores a block over it. -/
theorem cell_memoryAfter (met : m.objection i = none) {k : Nat}
    (changed : (m.memoryAfter i).cell k ≠ m.memory.cell k) :
    ∃ length, i.stored? = some length ∧ m.registers.i ≤ k ∧ k < m.registers.i + length := by
  -- A block that can be written does not start below zero.
  have within {bytes : List UInt8} {length : Nat} (sized : bytes.length = length)
      (clear : m.memory.writeFault? m.registers.i length = none)
      (changed : (m.memory.withBlock m.registers.i bytes).cell k ≠ m.memory.cell k) :
      m.registers.i ≤ k ∧ k < m.registers.i + length := by
    have start := (Memory.covers_of_writeFault? clear).1
    refine Decidable.byContradiction fun outside => changed ?_
    exact Memory.cell_withBlock_outside (by omega)
  cases i with
  | storeDecimal x => exact ⟨3, rfl, within rfl met changed⟩
  | storeRegisters x => exact ⟨x.val + 1, rfl, within (m.length_lowRegisters x) met changed⟩
  | _ => exact absurd rfl changed

theorem screen_of_screenAfter (spells : i.Spells w) (changed : m.screenAfter i ≠ m.screen) :
    w = 0x00E0 ∨ w.family = 0xD := by
  cases i with
  | clearScreen => exact .inl spells
  | draw x y rows => exact .inr spells.1
  | _ => exact absurd rfl changed

theorem stack_of_stackAfter (spells : i.Spells w) (changed : m.stackAfter i ≠ m.stack) :
    w.family = 0x2 ∨ w = 0x00EE := by
  cases i with
  | call target => exact .inl spells.1
  | returnFromCall => exact .inr spells
  | _ => exact absurd rfl changed

theorem delay_of_timersAfter (spells : i.Spells w)
    (changed : (m.timersAfter i).delay ≠ m.timers.delay) : w.family = 0xF ∧ w.nn = 0x15 := by
  cases i with
  | setDelay x => exact ⟨spells.1, spells.2.1⟩
  | _ => exact absurd rfl changed

theorem sound_of_timersAfter (spells : i.Spells w)
    (changed : (m.timersAfter i).sound ≠ m.timers.sound) : w.family = 0xF ∧ w.nn = 0x18 := by
  cases i with
  | setSound x => exact ⟨spells.1, spells.2.1⟩
  | _ => exact absurd rfl changed

/-- The random source gives one byte to the instruction that asks for one. -/
theorem randomAfter_eq (spells : i.Spells w) :
    (m.randomAfter i).stream = m.random.stream ∧
      (m.randomAfter i).drawn = m.random.drawn + if w.family = 0xC then 1 else 0 := by
  by_cases asks : w.family = 0xC
  · obtain rfl : i = .random w.x w.nn := spells.unique ⟨asks, rfl, rfl⟩
    rw [if_pos asks]
    exact ⟨rfl, rfl⟩
  · rw [if_neg asks]
    cases i with
    | random x mask => exact absurd spells.1 asks
    | _ => exact ⟨rfl, rfl⟩

/-- A call puts the address of the next word on the stack. -/
theorem entries_of_call (low : 0 ≤ m.registers.pc) (high : m.registers.pc ≤ 4094)
    (spells : i.Spells w) (calls : w.family = 0x2) : ∃ address : UInt16,
      (m.stackAfter i).entries = m.stack.entries ++ [address] ∧
        (address.toNat : Int) = m.registers.pc + 2 := by
  obtain rfl : i = .call w.nnn := spells.unique ⟨calls, rfl⟩
  refine ⟨UInt16.ofNat ((m.registers.pc + 2) % 65536).toNat, List.reverse_cons, ?_⟩
  exact (List.cons.inj (frames_pushed low high)).1

/-- A return that meets no fault takes the newest entry off the stack. -/
theorem entries_of_return (met : m.objection i = none) (spells : i.Spells w)
    (returns : w = 0x00EE) :
    ∃ address, m.stack.entries = (m.stackAfter i).entries ++ [address] := by
  obtain rfl : i = .returnFromCall := spells.unique returns
  have held : m.stack.frames ≠ [] := by
    intro empty
    simp only [objection, CallStack.popFault?, if_pos empty, reduceCtorEq] at met
  obtain ⟨address, older, frames⟩ := List.exists_cons_of_ne_nil held
  refine ⟨address, ?_⟩
  simp only [stackAfter, CallStack.popped, CallStack.entries, frames, List.tail_cons,
    List.reverse_cons]

theorem setsIndex_of_change (low : 0 ≤ m.registers.pc) (high : m.registers.pc ≤ 4094)
    (size : m.memory.size = memorySize) (met : m.objection i = none) (spells : i.Spells w)
    (changed : (m.change i).registers.i ≠ m.registers.i) : w.SetsIndex := by
  have steered : (m.change i).registers.i = (m.steer i).index :=
    congrArg Control.index (control_change size low high met)
  rw [steered] at changed
  cases i with
  | setIndex address => exact .inl spells.1
  | addToIndex x | indexGlyph x | storeRegisters x | loadRegisters x =>
    exact .inr ⟨spells.1, by simp [spells.2.1]⟩
  | waitForKey x =>
    simp only [steer] at changed
    cases key : m.keypad.firstPressed <;> rw [key] at changed <;> exact absurd rfl changed
  | _ => exact absurd rfl changed

/-- A register that is different after a write is the one that was written. -/
theorem eq_of_withV_ne {x r : Fin 16} {value : UInt8} (changed : (m.withV x value).v r ≠ m.v r) :
    r = x := by
  refine Decidable.byContradiction fun other => changed ?_
  rw [v_withV, if_neg (Ne.symm other)]

theorem eq_or_eq_of_withV_ne {x y r : Fin 16} {first second : UInt8}
    (changed : ((m.withV y first).withV x second).v r ≠ m.v r) : r = x ∨ r = y := by
  by_cases kept : ((m.withV y first).withV x second).v r = (m.withV y first).v r
  · rw [kept] at changed
    exact .inr (eq_of_withV_ne changed)
  · exact .inl (eq_of_withV_ne kept)

theorem eq_of_compute_ne {operation : Arithmetic} {x y r : Fin 16}
    (changed : (m.compute operation x y).v r ≠ m.v r) :
    r = x ∨ (operation.flag? (m.v x) (m.v y)).isSome ∧ r = flagRegister := by
  unfold compute at changed
  dsimp only at changed
  cases flag : operation.flag? (m.v x) (m.v y) with
  | none =>
    rw [flag] at changed
    exact .inl (eq_of_withV_ne changed)
  | some flag' =>
    rw [flag] at changed
    exact (eq_or_eq_of_withV_ne changed).symm.imp_right fun flagged => ⟨rfl, flagged⟩

/-- **An instruction changes a register only where its word writes one.** -/
theorem writesRegister_of_change (met : m.objection i = none) (spells : i.Spells w) {r : Fin 16}
    (changed : (m.change i).v r ≠ m.v r) : w.WritesRegister r := by
  cases i with
  | setByte x value | addByte x value =>
    obtain ⟨family, rfl, -⟩ := spells
    exact .inl ⟨.inl (by simp [family]), eq_of_withV_ne changed⟩
  | random x mask =>
    obtain ⟨family, rfl, -⟩ := spells
    exact .inl ⟨.inl (by simp [family]),
      eq_of_withV_ne (m := { m with random := m.random.next.2 }) changed⟩
  | readDelay x =>
    obtain ⟨family, byte, rfl⟩ := spells
    exact .inl ⟨.inr (.inr ⟨family, by simp [byte]⟩), eq_of_withV_ne changed⟩
  | waitForKey x =>
    obtain ⟨family, byte, rfl⟩ := spells
    refine .inl ⟨.inr (.inr ⟨family, by simp [byte]⟩), ?_⟩
    simp only [change] at changed
    cases key : m.keypad.firstPressed with
    | none => exact absurd (by rw [key]) changed
    | some key' =>
      rw [key] at changed
      exact eq_of_withV_ne changed
  | arithmetic operation x y =>
    obtain ⟨family, digit, rfl, rfl⟩ := spells
    rcases eq_of_compute_ne changed with rfl | ⟨flagged, rfl⟩
    · cases operation <;> simp [Opcode.WritesRegister, family, digit, Arithmetic.digit]
    · cases operation with
      | copy | bitOr | bitAnd | bitXor => cases flagged
      | _ => simp [Opcode.WritesRegister, family, digit, Arithmetic.digit]
  | shiftRight x | shiftLeft x =>
    obtain ⟨family, digit, rfl⟩ := spells
    exact .inr (.inl ⟨family, by simp [digit], eq_or_eq_of_withV_ne changed⟩)
  | draw x y rows =>
    refine .inr (.inr (.inl ⟨spells.1, ?_⟩))
    exact eq_of_withV_ne
      (m := { m with screen := m.screen.drawn (m.v x).toNat (m.v y).toNat (m.sprite rows) }) changed
  | loadRegisters x =>
    obtain ⟨family, byte, rfl⟩ := spells
    refine .inr (.inr (.inr ⟨family, byte, Decidable.byContradiction fun past => changed ?_⟩))
    rw [v_loadRegisters m _ r (Memory.outside?_eq_none_iff.mp met), if_neg past]
  | _ => exact absurd rfl changed

/-! ## A step -/

/-- **The footprint of a step.** Whatever a step that succeeds changes on a well-formed machine, its
word is one that changes that part; a call puts the address of the next word on the stack, a return
takes the newest entry off, the random source is asked once by the words that ask for a byte, the
keypad stays as it is, and one instruction more is counted. -/
theorem step_footprint {m m' : Machine} (wf : m.WellFormed) (succeeded : step.run m = .ok () m') :
    Footprint m.word m m' := by
  obtain ⟨clear, rfl⟩ := step_eq_ok_iff.mp succeeded
  obtain ⟨low, high⟩ := pc_of_fault? wf.size clear
  obtain ⟨i, read, met, changed⟩ := instruction_of_fault? clear
  have spells : i.Spells m.word := Instruction.spells_of_decode read
  have registers (r : Fin 16) := writesRegister_of_change (r := r) met spells
  have index := setsIndex_of_change low high wf.size met spells
  obtain ⟨stream, drawn⟩ := randomAfter_eq (m := m) spells
  rw [changed]
  rw [change_eq] at registers index ⊢
  exact {
    size := m.size_memoryAfter i
    cells := fun k different => by
      obtain ⟨length, stores, within⟩ := cell_memoryAfter met different
      exact ⟨length, spells.writes stores, within⟩
    screen := screen_of_screenAfter spells
    limit := m.limit_stackAfter i
    called := entries_of_call low high spells
    returned := entries_of_return met spells
    stack := stack_of_stackAfter spells
    delay := delay_of_timersAfter spells
    sound := sound_of_timersAfter spells
    index := index
    stream := stream
    drawn := drawn
    keypad := rfl
    registers := registers
    executed := rfl }

/-- A program stores V0 to V3 over its own word, and the cell after them stays as it is. -/
theorem step_footprint_overwriting :
    let m := (loaded [0xF3, 0x55]).withIndex 0x200
    m.WellFormed ∧ m.word = 0xF355 ∧ ∃ m', step.run m = .ok () m' ∧ Footprint 0xF355 m m' ∧
      m'.memory.cell 0x204 = m.memory.cell 0x204 := by
  intro m
  have wf : m.WellFormed := { loaded_wellFormed [0xF3, 0x55] with index := by decide }
  obtain ⟨word, clear⟩ : m.word = 0xF355 ∧ m.fault? = none := by decide +kernel
  have succeeded : step.run m = .ok () m.next := step_eq_ok_iff.mpr ⟨clear, rfl⟩
  have footprint := step_footprint wf succeeded
  rw [word] at footprint
  refine ⟨wf, word, m.next, succeeded, footprint, Decidable.byContradiction fun changed => ?_⟩
  obtain ⟨length, writes, -, early⟩ := footprint.cells 0x204 changed
  have four : length = 4 := by
    rcases writes.2 with ⟨byte, -⟩ | ⟨-, rfl⟩
    · cases byte
    · rfl
  subst four
  exact absurd early (by decide)

end Machine

end ChipEight
