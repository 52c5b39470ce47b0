import ChipEight.Machine.Instruction
import ChipEight.Machine.State

/-!
# Execution

One step reads the word at the program counter, decodes it and carries the instruction out. A step
is an action on a machine that may end in a fault; the machine that a fault leaves behind is the one
that the action had reached. Every instruction makes all its checks before its first change, so that
machine is the one from before the step, and the step can be tried again.

The arithmetic instructions write their result first and the flag register after it, the shifts the
other way round; this decides what the flag register holds when it is an operand.
-/

namespace ChipEight

namespace Arithmetic

/-- The result for the values of the two registers. -/
def result : Arithmetic → UInt8 → UInt8 → UInt8
  | .copy, _, b => b
  | .bitOr, a, b => a ||| b
  | .bitAnd, a, b => a &&& b
  | .bitXor, a, b => a ^^^ b
  | .sum, a, b => a + b
  | .difference, a, b => a - b
  | .reverseDifference, a, b => b - a

/-- The flag, for the operations that set it: a carry, or a difference that is positive. -/
def flag? : Arithmetic → UInt8 → UInt8 → Option Bool
  | .sum, a, b => some (255 < a.toNat + b.toNat)
  | .difference, a, b => some (b < a)
  | .reverseDifference, a, b => some (a < b)
  | _, _, _ => none

end Arithmetic

namespace Machine

/-- A change of a machine that may end in a fault. -/
abbrev Action := EStateM Fault Machine

/-- An answer or a fault, as an action that changes nothing. -/
def ofExcept : Except Fault α → Action α
  | .ok a => pure a
  | .error e => throw e

def instructionSize : Int := 2

/-- The lowest sixteen bits. -/
def wrap16 (n : Int) : Int := n % 65536

def flagValue (b : Bool) : UInt8 := if b then 1 else 0

def v (m : Machine) (x : Fin 16) : UInt8 := m.registers.v.get x

def withV (m : Machine) (x : Fin 16) (value : UInt8) : Machine :=
  { m with registers := m.registers.withV x value }

def withFlag (m : Machine) (b : Bool) : Machine := m.withV flagRegister (flagValue b)

def withPc (m : Machine) (pc : Int) : Machine :=
  { m with registers := { m.registers with pc := pc } }

def withIndex (m : Machine) (i : Int) : Machine :=
  { m with registers := { m.registers with i := i } }

/-- The machine with the program counter moved on by a number of instructions. -/
def advance (m : Machine) (words : Int) : Machine :=
  m.withPc (wrap16 (m.registers.pc + instructionSize * words))

/-- The machine past the current instruction, and past the next one if the condition holds. -/
def skipIf (m : Machine) (condition : Bool) : Machine := m.advance (if condition then 2 else 1)

/-- The word at the program counter. -/
def fetch : Action Opcode := do
  let m ← get
  let high ← ofExcept (m.memory.readByte m.registers.pc)
  let low ← ofExcept (m.memory.readByte (m.registers.pc + 1))
  return .ofBytes high low

def decimalDigits (value : UInt8) : List UInt8 := [value / 100, value / 10 % 10, value % 10]

def lowRegisters (m : Machine) (x : Fin 16) : List UInt8 := m.registers.v.toList.take (x.val + 1)

/-- The machine with values written to the registers from number `start` on. -/
def withLowRegisters (m : Machine) (start : Nat) : List UInt8 → Machine
  | [] => m
  | value :: rest => (m.withV (Fin.ofNat 16 start) value).withLowRegisters (start + 1) rest

/-- The machine with the index register moved past the registers V0 to Vx. -/
def indexPast (m : Machine) (x : Fin 16) : Machine :=
  m.withIndex (wrap16 (m.registers.i + x.val + 1))

def compute (m : Machine) (operation : Arithmetic) (x y : Fin 16) : Machine :=
  let a := m.v x
  let b := m.v y
  let m := m.withV x (operation.result a b)
  -- The flag comes last, so it wins where VF is the destination.
  match operation.flag? a b with
  | some flag => m.withFlag flag
  | none => m

def become (m : Machine) : Action Unit := set m

def execute (instruction : Instruction) : Action Unit := do
  let m ← get
  match instruction with
  | .clearScreen => become ({ m with screen := m.screen.clear }.advance 1)
  | .returnFromCall =>
    let (address, stack) ← ofExcept (m.stack.pop m.registers.pc)
    become ({ m with stack := stack }.withPc address.toNat)
  | .jump target => become (m.withPc target.val)
  | .call target =>
    let stack ← ofExcept (m.stack.push (m.registers.pc + instructionSize) m.registers.pc)
    become ({ m with stack := stack }.withPc target.val)
  | .skipIfByte x value => become (m.skipIf (m.v x == value))
  | .skipUnlessByte x value => become (m.skipIf (m.v x != value))
  | .skipIfSame x y => become (m.skipIf (m.v x == m.v y))
  | .skipUnlessSame x y => become (m.skipIf (m.v x != m.v y))
  | .setByte x value => become ((m.withV x value).advance 1)
  | .addByte x value => become ((m.withV x (m.v x + value)).advance 1)
  | .arithmetic operation x y => become ((m.compute operation x y).advance 1)
  | .shiftRight x =>
    -- Here the result wins where VF is the destination.
    let value := m.v x
    become (((m.withV flagRegister (value % 2)).withV x (value / 2)).advance 1)
  | .shiftLeft x =>
    let value := m.v x
    become (((m.withV flagRegister (value / 128)).withV x (value + value)).advance 1)
  | .setIndex address => become ((m.withIndex address.val).advance 1)
  | .jumpPlus base => become (m.withPc ((m.v 0).toNat + base.val))
  | .random x mask =>
    let (byte, source) := m.random.next
    become (({ m with random := source }.withV x (byte &&& mask)).advance 1)
  | .draw x y rows =>
    let sprite ← ofExcept (m.memory.readBytes m.registers.i rows.val)
    let (screen, collision) ← ofExcept (m.screen.draw (m.v x).toNat (m.v y).toNat sprite)
    become (({ m with screen := screen }.withFlag collision).advance 1)
  | .skipIfPressed x =>
    let pressed ← ofExcept (m.keypad.isPressed (m.v x).toNat (some m.registers.pc))
    become (m.skipIf pressed)
  | .skipUnlessPressed x =>
    let pressed ← ofExcept (m.keypad.isPressed (m.v x).toNat (some m.registers.pc))
    become (m.skipIf !pressed)
  | .readDelay x => become ((m.withV x (lowByte m.timers.delay)).advance 1)
  | .waitForKey x =>
    match m.keypad.firstPressed with
    -- The same instruction is carried out again in the next step.
    | none => return ()
    | some key => become ((m.withV x (UInt8.ofNat key.val)).advance 1)
  | .setDelay x =>
    become ({ m with timers := { m.timers with delay := (m.v x).toNat } }.advance 1)
  | .setSound x =>
    become ({ m with timers := { m.timers with sound := (m.v x).toNat } }.advance 1)
  | .addToIndex x => become ((m.withIndex (wrap16 (m.registers.i + (m.v x).toNat))).advance 1)
  | .indexGlyph x => become ((m.withIndex (glyphAddress (m.v x).toNat)).advance 1)
  | .storeDecimal x =>
    let memory ← ofExcept (m.memory.writeBytes m.registers.i (decimalDigits (m.v x)))
    become ({ m with memory := memory }.advance 1)
  | .storeRegisters x =>
    let memory ← ofExcept (m.memory.writeBytes m.registers.i (m.lowRegisters x))
    become (({ m with memory := memory }.indexPast x).advance 1)
  | .loadRegisters x =>
    let values ← ofExcept (m.memory.readBytes m.registers.i (x.val + 1 : Nat))
    become (((m.withLowRegisters 0 values).indexPast x).advance 1)

/-- Decodes and carries out a word that was read at the program counter, and counts it. -/
def obey (word : Opcode) : Action Unit := do
  match Instruction.decode word with
  | none => throw (.unrecognizedOpcode word.toNat (some (← get).registers.pc))
  | some instruction =>
    execute instruction
    modify fun m => { m with executed := m.executed + 1 }

/-- Carries out the instruction at the program counter. -/
def step : Action Unit := do
  obey (← fetch)

end Machine

end ChipEight
