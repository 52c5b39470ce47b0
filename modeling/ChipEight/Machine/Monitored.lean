import ChipEight.Journal
import ChipEight.Machine.Execution
import ChipEight.Machine.Mnemonic

/-!
# Monitored machines

A machine together with a journal. Loading a program is always reported. A machine that is traced
also reports each step: a line with the address, the word and its text once the word has been read,
and a line with the registers once the step is complete. Tracing changes nothing but the journal.
-/

namespace ChipEight

/-- A machine, whether its steps are traced, and the journal that it writes. -/
structure Monitored where
  machine : Machine
  tracing : Bool
  journal : Journal

namespace Monitored

/-- A change of a monitored machine that may end in a fault. -/
abbrev Action := EStateM Fault Monitored

/-- Who reports the steps. -/
def stepSource : String := "chip8vm.cpu"

/-- Who reports that a program was loaded. -/
def loadSource : String := "chip8vm.machine"

/-- A change of the machine alone. -/
def perform (action : Machine.Action α) : Action α := do
  let m ← get
  match action.run m.machine with
  | .ok a machine =>
    set { m with machine := machine }
    return a
  | .error e machine =>
    set { m with machine := machine }
    throw e

def report (m : Monitored) (level : Level) (source message : String) : Monitored :=
  { m with journal := m.journal.add level source message }

/-- Reports a line on the machine if it is traced. -/
def trace (line : Machine → String) : Action Unit :=
  modify fun m => if m.tracing then m.report .debug stepSource (line m.machine) else m

/-- The text of a word that is traced when it is no instruction. -/
def unknownText : String := "???"

/-- The line for a word that was read at the program counter. -/
def wordLine (word : Opcode) (m : Machine) : String :=
  Text.hexNumber 4 m.registers.pc ++ ": " ++ Text.hexField 4 word.toNat ++ "  " ++
    (mnemonic word).getD unknownText

def step : Action Unit := do
  let word ← perform Machine.fetch
  trace (wordLine word)
  perform (Machine.obey word)
  trace Machine.describe

/-- Loads a program and answers its size. -/
def load (image : List UInt8) : Action Nat := do
  let m ← get
  match m.machine.load image with
  | .error e => throw e
  | .ok (machine, size) =>
    set ({ m with machine := machine }.report .info loadSource
      (s!"Loaded {size} byte ROM at 0x" ++ Text.hexNumber 3 programStart))
    return size

end Monitored

end ChipEight
