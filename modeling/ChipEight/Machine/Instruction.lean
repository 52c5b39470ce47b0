import ChipEight.Machine.Digit

/-!
# Instructions

An instruction word holds sixteen bits in four hexadecimal digits. The first digit selects a family;
the others are read as two register numbers `x` and `y` and a digit `n`, or as a byte `nn`, or as an
address `nnn`.

`decode` reads a word for its execution. An `Instruction` keeps only the parts of the word that
matter to it.
-/

namespace ChipEight

/-- A 16-bit instruction word. -/
abbrev Opcode := UInt16

namespace Opcode

/-- The word of the lowest sixteen bits of an integer. -/
def ofInt (n : Int) : Opcode := UInt16.ofNat (n % 65536).toNat

/-- The word of two bytes, the high one first. -/
def ofBytes (high low : UInt8) : Opcode := UInt16.ofNat (high.toNat * 256 + low.toNat)

/-- The first digit. -/
def family (word : Opcode) : Nat := word.toNat / 4096

/-- The second digit, a register number. -/
def x (word : Opcode) : Fin 16 := Fin.ofNat 16 (word.toNat / 256)

/-- The third digit, a register number. -/
def y (word : Opcode) : Fin 16 := Fin.ofNat 16 (word.toNat / 16)

def n (word : Opcode) : Fin 16 := Fin.ofNat 16 word.toNat

def nn (word : Opcode) : UInt8 := UInt8.ofNat (word.toNat % 256)

def nnn (word : Opcode) : Fin 4096 := Fin.ofNat 4096 word.toNat

end Opcode

/-- What a register-to-register instruction computes. -/
inductive Arithmetic where
  | copy
  | bitOr
  | bitAnd
  | bitXor
  | sum
  | difference
  | reverseDifference
deriving DecidableEq, Repr

/-- An instruction with the operands that it uses. -/
inductive Instruction where
  | clearScreen
  | returnFromCall
  | jump (target : Fin 4096)
  | call (target : Fin 4096)
  | skipIfByte (x : Fin 16) (value : UInt8)
  | skipUnlessByte (x : Fin 16) (value : UInt8)
  | skipIfSame (x y : Fin 16)
  | skipUnlessSame (x y : Fin 16)
  | setByte (x : Fin 16) (value : UInt8)
  | addByte (x : Fin 16) (value : UInt8)
  | arithmetic (operation : Arithmetic) (x y : Fin 16)
  | shiftRight (x : Fin 16)
  | shiftLeft (x : Fin 16)
  | setIndex (address : Fin 4096)
  | jumpPlus (base : Fin 4096)
  | random (x : Fin 16) (mask : UInt8)
  | draw (x y rows : Fin 16)
  | skipIfPressed (x : Fin 16)
  | skipUnlessPressed (x : Fin 16)
  | readDelay (x : Fin 16)
  | waitForKey (x : Fin 16)
  | setDelay (x : Fin 16)
  | setSound (x : Fin 16)
  | addToIndex (x : Fin 16)
  | indexGlyph (x : Fin 16)
  | storeDecimal (x : Fin 16)
  | storeRegisters (x : Fin 16)
  | loadRegisters (x : Fin 16)
deriving DecidableEq, Repr

namespace Instruction

/-- The words of family 0. -/
def decodeSystem (word : Opcode) : Option Instruction :=
  if word = 0x00E0 then some .clearScreen
  else if word = 0x00EE then some .returnFromCall
  else none

def decodeArithmetic (word : Opcode) : Option Instruction :=
  match word.n.val with
  | 0x0 => some (.arithmetic .copy word.x word.y)
  | 0x1 => some (.arithmetic .bitOr word.x word.y)
  | 0x2 => some (.arithmetic .bitAnd word.x word.y)
  | 0x3 => some (.arithmetic .bitXor word.x word.y)
  | 0x4 => some (.arithmetic .sum word.x word.y)
  | 0x5 => some (.arithmetic .difference word.x word.y)
  | 0x6 => some (.shiftRight word.x)
  | 0x7 => some (.arithmetic .reverseDifference word.x word.y)
  | 0xE => some (.shiftLeft word.x)
  | _ => none

def decodeKey (word : Opcode) : Option Instruction :=
  if word.nn = 0x9E then some (.skipIfPressed word.x)
  else if word.nn = 0xA1 then some (.skipUnlessPressed word.x)
  else none

def decodeTransfer (word : Opcode) : Option Instruction :=
  match word.nn.toNat with
  | 0x07 => some (.readDelay word.x)
  | 0x0A => some (.waitForKey word.x)
  | 0x15 => some (.setDelay word.x)
  | 0x18 => some (.setSound word.x)
  | 0x1E => some (.addToIndex word.x)
  | 0x29 => some (.indexGlyph word.x)
  | 0x33 => some (.storeDecimal word.x)
  | 0x55 => some (.storeRegisters word.x)
  | 0x65 => some (.loadRegisters word.x)
  | _ => none

/-- The instruction of a word, if it is one. -/
def decode (word : Opcode) : Option Instruction :=
  match word.family with
  | 0x0 => decodeSystem word
  | 0x1 => some (.jump word.nnn)
  | 0x2 => some (.call word.nnn)
  | 0x3 => some (.skipIfByte word.x word.nn)
  | 0x4 => some (.skipUnlessByte word.x word.nn)
  | 0x5 => if word.n = 0 then some (.skipIfSame word.x word.y) else none
  | 0x6 => some (.setByte word.x word.nn)
  | 0x7 => some (.addByte word.x word.nn)
  | 0x8 => decodeArithmetic word
  | 0x9 => if word.n = 0 then some (.skipUnlessSame word.x word.y) else none
  | 0xA => some (.setIndex word.nnn)
  | 0xB => some (.jumpPlus word.nnn)
  | 0xC => some (.random word.x word.nn)
  | 0xD => some (.draw word.x word.y word.n)
  | 0xE => decodeKey word
  | _ => decodeTransfer word

end Instruction

end ChipEight
