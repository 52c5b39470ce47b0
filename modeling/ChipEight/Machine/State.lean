import ChipEight.Machine.Keypad
import ChipEight.Machine.Memory
import ChipEight.Machine.Raster
import ChipEight.Machine.Registers

/-!
# The state of a machine

A machine is memory, a screen, a keypad, registers, a call stack, two timers and a random source,
and it counts the instructions that it has carried out.

A reset restores the registers, the stack, the timers and the count, clears the screen and releases
the keys. Memory and the random source stay as they are.
-/

namespace ChipEight

/-- A machine between two instructions. -/
structure Machine where
  memory : Memory
  screen : Screen
  keypad : Keypad
  registers : Registers
  stack : CallStack
  timers : Timers
  random : RandomSource
  /-- How many instructions were carried out. -/
  executed : Nat

namespace Machine

/-- A machine at power-on around a memory, a screen and an empty call stack. -/
def assemble (memory : Memory) (screen : Screen) (stack : CallStack) (random : RandomSource) :
    Machine where
  memory := memory
  screen := screen
  keypad := .released
  registers := .initial
  stack := stack
  timers := .initial
  random := random
  executed := 0

/-- A machine with the standard memory and screen. -/
def standard (limit : Option Int) (random : RandomSource) : Except Fault Machine := do
  let stack ← CallStack.make limit
  let screen := Screen.blank Screen.standardWidth Screen.standardHeight
  return assemble (.ofSize memorySize) screen stack random

/-- A machine with a memory and a screen of given sizes. -/
def custom (size width height : Int) (limit : Option Int) (random : RandomSource) :
    Except Fault Machine := do
  let memory ← Memory.make size
  let screen ← Screen.make width height
  let stack ← CallStack.make limit
  return assemble memory screen stack random

/-- The machine with its processor at power-on; screen and keypad stay as they are. -/
def resetProcessor (m : Machine) : Machine :=
  { m with
    registers := .initial
    stack := m.stack.clear
    timers := .initial
    executed := 0 }

/-- The machine at power-on, but for memory and the random source. -/
def reset (m : Machine) : Machine :=
  { m.resetProcessor with
    screen := m.screen.clear
    keypad := .released }

/-- Copies a program to the place where programs start. -/
def load (m : Machine) (image : List UInt8) : Except Fault (Machine × Nat) := do
  let (memory, size) ← m.memory.load image programStart
  return ({ m with memory := memory }, size)

def tick (m : Machine) (count : Nat) : Machine := { m with timers := m.timers.ticks count }

/-- The registers, the timers and the depth of the stack on one line. -/
def describe (m : Machine) : String :=
  let register (x : Fin 16) : String :=
    "V" ++ String.ofList [Text.hexDigit x.val] ++ "=" ++ Text.hexField 2 (m.registers.v.get x).toNat
  "PC=" ++ Text.hexNumber 4 m.registers.pc ++ " I=" ++ Text.hexNumber 4 m.registers.i ++
    " DT=" ++ Text.hexNumber 2 m.timers.delay ++ " ST=" ++ Text.hexNumber 2 m.timers.sound ++
    s!" SP={m.stack.depth} " ++ String.intercalate " " ((List.finRange 16).map register)

end Machine

end ChipEight
