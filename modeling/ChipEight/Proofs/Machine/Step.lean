import ChipEight.Proofs.Machine.Access

/-!
# What a step can do

A step meets a fault and leaves the machine alone, or it changes the machine as a whole. This is
said here once: `fault?` is the fault that a step on a machine meets, `next` the machine after a
step that meets none, and `step_run` that a step is nothing else. Statements about steps are proved
from these two functions; none of them opens the step itself again.

Both functions follow the step. `objection` and `change` are the two halves for one instruction, and
the reading and decoding of the word come before them.
-/

namespace ChipEight

namespace Machine

/-! ## One instruction -/

/-- The rows of a sprite at the index register. -/
def sprite (m : Machine) (rows : Fin 16) : List UInt8 := m.memory.block m.registers.i rows.val

/-- The fault that an instruction meets on a machine. -/
def objection (m : Machine) : Instruction → Option Fault
  | .returnFromCall => m.stack.popFault? m.registers.pc
  | .call _ => m.stack.pushFault? m.registers.pc
  | .draw _ _ rows =>
    (m.memory.outside? "read_bytes" m.registers.i rows.val).or (m.screen.drawFault? (m.sprite rows))
  | .skipIfPressed x | .skipUnlessPressed x =>
    Keypad.keyFault? (m.v x).toNat (some m.registers.pc)
  | .storeDecimal _ => m.memory.writeFault? m.registers.i 3
  | .storeRegisters x => m.memory.writeFault? m.registers.i (x.val + 1 : Nat)
  | .loadRegisters x => m.memory.outside? "read_bytes" m.registers.i (x.val + 1 : Nat)
  | _ => none

/-- The machine after an instruction that meets no fault. -/
def change (m : Machine) : Instruction → Machine
  | .clearScreen => { m with screen := m.screen.clear }.advance 1
  | .returnFromCall => { m with stack := m.stack.popped }.withPc m.stack.top.toNat
  | .jump target => m.withPc target.val
  | .call target =>
    { m with stack := m.stack.pushed (m.registers.pc + instructionSize) }.withPc target.val
  | .skipIfByte x value => m.skipIf (m.v x == value)
  | .skipUnlessByte x value => m.skipIf (m.v x != value)
  | .skipIfSame x y => m.skipIf (m.v x == m.v y)
  | .skipUnlessSame x y => m.skipIf (m.v x != m.v y)
  | .setByte x value => (m.withV x value).advance 1
  | .addByte x value => (m.withV x (m.v x + value)).advance 1
  | .arithmetic operation x y => (m.compute operation x y).advance 1
  | .shiftRight x => ((m.withV flagRegister (m.v x % 2)).withV x (m.v x / 2)).advance 1
  | .shiftLeft x => ((m.withV flagRegister (m.v x / 128)).withV x (m.v x + m.v x)).advance 1
  | .setIndex address => (m.withIndex address.val).advance 1
  | .jumpPlus base => m.withPc ((m.v 0).toNat + base.val)
  | .random x mask =>
    ({ m with random := m.random.next.2 }.withV x (m.random.next.1 &&& mask)).advance 1
  | .draw x y rows =>
    ({ m with screen := m.screen.drawn (m.v x).toNat (m.v y).toNat (m.sprite rows) }.withFlag
      (m.screen.raster.draw (m.v x).toNat (m.v y).toNat (m.sprite rows)).2).advance 1
  | .skipIfPressed x => m.skipIf (m.keypad.isDown (m.v x).toNat)
  | .skipUnlessPressed x => m.skipIf !m.keypad.isDown (m.v x).toNat
  | .readDelay x => (m.withV x (lowByte m.timers.delay)).advance 1
  | .waitForKey x =>
    match m.keypad.firstPressed with
    | none => m
    | some key => (m.withV x (UInt8.ofNat key.val)).advance 1
  | .setDelay x => { m with timers := { m.timers with delay := (m.v x).toNat } }.advance 1
  | .setSound x => { m with timers := { m.timers with sound := (m.v x).toNat } }.advance 1
  | .addToIndex x => (m.withIndex (wrap16 (m.registers.i + (m.v x).toNat))).advance 1
  | .indexGlyph x => (m.withIndex (glyphAddress (m.v x).toNat)).advance 1
  | .storeDecimal x =>
    { m with memory := m.memory.withBlock m.registers.i (decimalDigits (m.v x)) }.advance 1
  | .storeRegisters x =>
    ({ m with memory := m.memory.withBlock m.registers.i (m.lowRegisters x) }.indexPast x).advance 1
  | .loadRegisters x =>
    ((m.withLowRegisters 0 (m.memory.block m.registers.i (x.val + 1 : Nat))).indexPast x).advance 1

/-- The end of an action that meets a fault or leaves a machine behind. -/
def settle (fault : Option Fault) (before after : Machine) : EStateM.Result Fault Machine Unit :=
  match fault with
  | some e => .error e before
  | none => .ok () after

@[simp] theorem length_lowRegisters (m : Machine) (x : Fin 16) :
    (m.lowRegisters x).length = x.val + 1 := by
  simp only [lowRegisters, List.length_take, Vector.length_toList]
  omega

/-- A check before a replacement of the whole machine. -/
theorem run_become {r : Except Fault α} {fault : Option Fault} {a : α}
    (checked : r = Fault.raiseOr fault a) (f : α → Machine) (m : Machine) :
    (ofExcept r >>= fun a => become (f a)).run m = settle fault m (f a) := by
  subst checked
  cases fault <;> rfl

/-- An instruction meets its fault and leaves the machine alone, or changes it as a whole. -/
theorem execute_run (m : Machine) (i : Instruction) :
    (execute i).run m = settle (m.objection i) m (m.change i) := by
  cases i with
  | returnFromCall =>
    exact run_become (m.stack.pop_eq_raiseOr m.registers.pc)
      (fun r => { m with stack := r.2 }.withPc r.1.toNat) m
  | call target =>
    exact run_become (m.stack.push_eq_raiseOr (m.registers.pc + instructionSize) m.registers.pc)
      (fun stack => { m with stack := stack }.withPc target.val) m
  | draw x y rows =>
    -- The only instruction with two checks: the screen is asked once the rows are read.
    have read := m.memory.readBytes_eq_raiseOr m.registers.i rows.val
    change (ofExcept (m.memory.readBytes m.registers.i rows.val) >>= fun sprite =>
      ofExcept (m.screen.draw (m.v x).toNat (m.v y).toNat sprite) >>= fun r =>
        become (({ m with screen := r.1 }.withFlag r.2).advance 1)).run m = _
    rw [read, objection]
    cases m.memory.outside? "read_bytes" m.registers.i rows.val with
    | some e => rfl
    | none =>
      exact run_become (m.screen.draw_eq_raiseOr (m.v x).toNat (m.v y).toNat (m.sprite rows))
        (fun r => ({ m with screen := r.1 }.withFlag r.2).advance 1) m
  | skipIfPressed x =>
    exact run_become (m.keypad.isPressed_eq_raiseOr (m.v x).toNat (some m.registers.pc)) m.skipIf m
  | skipUnlessPressed x =>
    exact run_become (m.keypad.isPressed_eq_raiseOr (m.v x).toNat (some m.registers.pc))
      (fun down => m.skipIf !down) m
  | waitForKey x =>
    change (match m.keypad.firstPressed with
      | none => (pure () : Action Unit)
      | some key => become ((m.withV x (UInt8.ofNat key.val)).advance 1)).run m = _
    simp only [change, objection]
    cases m.keypad.firstPressed <;> rfl
  | storeDecimal x =>
    exact run_become (m.memory.writeBytes_eq_raiseOr m.registers.i (decimalDigits (m.v x)))
      (fun memory => { m with memory := memory }.advance 1) m
  | storeRegisters x =>
    have written := m.memory.writeBytes_eq_raiseOr m.registers.i (m.lowRegisters x)
    rw [length_lowRegisters] at written
    exact run_become written
      (fun memory => ({ m with memory := memory }.indexPast x).advance 1) m
  | loadRegisters x =>
    exact run_become (m.memory.readBytes_eq_raiseOr m.registers.i (x.val + 1 : Nat))
      (fun values => ((m.withLowRegisters 0 values).indexPast x).advance 1) m
  | _ => rfl

/-! ## The parts that an instruction touches -/

/-- A register-to-register instruction touches the general registers only. -/
theorem compute_eq (m : Machine) (operation : Arithmetic) (x y : Fin 16) :
    m.compute operation x y =
      { m with registers := { m.registers with v := (m.compute operation x y).registers.v } } := by
  unfold compute
  dsimp only
  cases operation.flag? (m.v x) (m.v y) <;> rfl

/-- Loading the low registers touches the general registers only. -/
theorem withLowRegisters_eq (m : Machine) (start : Nat) (values : List UInt8) :
    m.withLowRegisters start values =
      { m with
        registers := { m.registers with v := (m.withLowRegisters start values).registers.v } } := by
  induction values generalizing m start with
  | nil => rfl
  | cons value rest ih =>
    rw [withLowRegisters, ih]
    rfl

/-- **A change aside from the registers**: it leaves them alone, and it makes no difference whether
it comes before a write to one of them or after. -/
structure Aside (f : Machine → Machine) : Prop where
  registers : ∀ m, (f m).registers = m.registers
  withV : ∀ m x value, (f m).withV x value = f (m.withV x value)

theorem Aside.compute {f : Machine → Machine} (aside : Aside f) (m : Machine)
    (operation : Arithmetic) (x y : Fin 16) :
    (f m).compute operation x y = f (m.compute operation x y) := by
  have same (r : Fin 16) : (f m).v r = m.v r := congrArg (fun r' => r'.v.get r) (aside.registers m)
  unfold Machine.compute
  simp only [same, aside.withV]
  cases operation.flag? (m.v x) (m.v y) with
  | none => rfl
  | some flag => exact aside.withV _ flagRegister _

theorem Aside.withLowRegisters {f : Machine → Machine} (aside : Aside f) (m : Machine) (start : Nat)
    (values : List UInt8) :
    (f m).withLowRegisters start values = f (m.withLowRegisters start values) := by
  induction values generalizing m start with
  | nil => rfl
  | cons value rest ih =>
    rw [Machine.withLowRegisters, aside.withV, ih]
    rfl

/-- The memory after an instruction. -/
def memoryAfter (m : Machine) : Instruction → Memory
  | .storeDecimal x => m.memory.withBlock m.registers.i (decimalDigits (m.v x))
  | .storeRegisters x => m.memory.withBlock m.registers.i (m.lowRegisters x)
  | _ => m.memory

def screenAfter (m : Machine) : Instruction → Screen
  | .clearScreen => m.screen.clear
  | .draw x y rows => m.screen.drawn (m.v x).toNat (m.v y).toNat (m.sprite rows)
  | _ => m.screen

def stackAfter (m : Machine) : Instruction → CallStack
  | .returnFromCall => m.stack.popped
  | .call _ => m.stack.pushed (m.registers.pc + instructionSize)
  | _ => m.stack

def timersAfter (m : Machine) : Instruction → Timers
  | .setDelay x => { m.timers with delay := (m.v x).toNat }
  | .setSound x => { m.timers with sound := (m.v x).toNat }
  | _ => m.timers

def randomAfter (m : Machine) : Instruction → RandomSource
  | .random _ _ => m.random.next.2
  | _ => m.random

/-- **The footprint of an instruction**: the keypad and the count stay as they are, and each part
but the registers changes under its own few instructions only. -/
theorem change_eq (m : Machine) (i : Instruction) :
    m.change i =
      { memory := m.memoryAfter i
        screen := m.screenAfter i
        keypad := m.keypad
        registers := (m.change i).registers
        stack := m.stackAfter i
        timers := m.timersAfter i
        random := m.randomAfter i
        executed := m.executed } := by
  cases i with
  | arithmetic operation x y =>
    rw [change, compute_eq]
    rfl
  | loadRegisters x =>
    rw [change, withLowRegisters_eq]
    rfl
  | waitForKey x =>
    simp only [change]
    cases m.keypad.firstPressed <;> rfl
  | _ => rfl

@[simp] theorem executed_change (m : Machine) (i : Instruction) :
    (m.change i).executed = m.executed := by
  rw [change_eq]

/-! ## A whole step -/

/-- The word at the program counter. -/
def word (m : Machine) : Opcode :=
  .ofBytes (m.memory.cell m.registers.pc.toNat) (m.memory.cell (m.registers.pc + 1).toNat)

/-- The instruction at the program counter, if the word there is one. -/
def instruction? (m : Machine) : Option Instruction := Instruction.decode m.word

/-- The fault of reading the word at the program counter. -/
def fetchFault? (m : Machine) : Option Fault :=
  (m.memory.outside? "read_byte" m.registers.pc 1).or
    (m.memory.outside? "read_byte" (m.registers.pc + 1) 1)

/-- The fault of carrying out the word at the program counter. -/
def wordFault? (m : Machine) : Option Fault :=
  match m.instruction? with
  | none => some (.unrecognizedOpcode m.word.toNat (some m.registers.pc))
  | some i => m.objection i

/-- The fault that a step on the machine meets. -/
def fault? (m : Machine) : Option Fault := m.fetchFault?.or m.wordFault?

/-- The machine after a step that meets no fault. -/
def next (m : Machine) : Machine :=
  match m.instruction? with
  | none => m
  | some i => { m.change i with executed := m.executed + 1 }

theorem fetch_run (m : Machine) :
    fetch.run m = match m.fetchFault? with
      | some e => .error e m
      | none => .ok m.word m := by
  have high := m.memory.readByte_eq_raiseOr m.registers.pc
  have low := m.memory.readByte_eq_raiseOr (m.registers.pc + 1)
  change (ofExcept (m.memory.readByte m.registers.pc) >>= fun high =>
    ofExcept (m.memory.readByte (m.registers.pc + 1)) >>= fun low =>
      pure (Opcode.ofBytes high low)).run m = _
  rw [high, low, fetchFault?]
  cases m.memory.outside? "read_byte" m.registers.pc 1 with
  | some e => rfl
  | none =>
    cases m.memory.outside? "read_byte" (m.registers.pc + 1) 1 <;> rfl

theorem obey_run (m : Machine) : (obey m.word).run m = settle m.wordFault? m m.next := by
  unfold obey wordFault? next instruction?
  cases Instruction.decode m.word with
  | none => rfl
  | some i =>
    change (execute i >>= fun _ => modify fun m => { m with executed := m.executed + 1 }).run m = _
    rw [EStateM.run_bind, execute_run]
    cases h : m.objection i with
    | none => simp only [settle, EStateM.run_modify, executed_change, h]
    | some e => simp only [settle, h]

/-- **A step in two halves**: it meets its fault and leaves the machine alone, or it meets none and
leaves the next machine behind. -/
theorem step_run (m : Machine) : step.run m = settle m.fault? m m.next := by
  unfold step fault?
  rw [EStateM.run_bind, fetch_run]
  cases m.fetchFault? with
  | none => exact obey_run m
  | some e => rfl

/-- A step succeeds exactly where it meets no fault, and leaves the next machine. -/
theorem step_eq_ok_iff {m m' : Machine} :
    step.run m = .ok () m' ↔ m.fault? = none ∧ m.next = m' := by
  rw [step_run]
  cases m.fault? <;> simp [settle]

/-- A step fails exactly with the fault that it meets, and leaves the machine as it was. -/
theorem step_eq_error_iff {m m' : Machine} {e : Fault} :
    step.run m = .error e m' ↔ m.fault? = some e ∧ m = m' := by
  rw [step_run]
  cases m.fault? <;> simp [settle]

/-- A step that meets no fault carries out an instruction that meets none. -/
theorem instruction_of_fault? {m : Machine} (clear : m.fault? = none) :
    ∃ i, m.instruction? = some i ∧ m.objection i = none ∧
      m.next = { m.change i with executed := m.executed + 1 } := by
  obtain ⟨-, obeyed⟩ := Option.or_eq_none_iff.mp clear
  unfold wordFault? at obeyed
  unfold next
  cases read : m.instruction? with
  | none =>
    rw [read] at obeyed
    cases obeyed
  | some i =>
    rw [read] at obeyed
    exact ⟨i, rfl, obeyed, rfl⟩

/-- A step that meets no fault counts one instruction more. -/
theorem executed_next {m : Machine} (clear : m.fault? = none) :
    m.next.executed = m.executed + 1 := by
  obtain ⟨i, -, -, changed⟩ := instruction_of_fault? clear
  rw [changed]

end Machine

end ChipEight
