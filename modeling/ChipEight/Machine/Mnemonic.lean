import ChipEight.Machine.Instruction
import ChipEight.Text.Hex

/-!
# Mnemonics

A mnemonic is an instruction word in assembler notation. It is read off the digits of the word,
family by family. In the two families that hold many instructions, a table gives for the last digits
a template, which is filled in with the numbers of the registers.

A mnemonic is told without the decoder that words are carried out with, and it holds operands only.
`listing` shows a byte string word by word; a word without a mnemonic is listed as data.
-/

namespace ChipEight

namespace Mnemonic

/-- A part of a template: letters that stand for themselves, or the digit of a register. -/
inductive Part where
  | letters (s : String)
  | x
  | y
deriving DecidableEq, Repr

/-- A mnemonic with places for the registers of a word. -/
abbrev Template := List Part

def digit (x : Fin 16) : String := String.ofList [Text.hexDigit x.val]

def register (x : Fin 16) : String := "V" ++ digit x

def byte (value : UInt8) : String := "0x" ++ String.ofList (Text.fixedHex 2 value.toNat)

def address (a : Fin 4096) : String := "0x" ++ String.ofList (Text.fixedHex 3 a.val)

/-- The text of a part for a word. -/
def Part.text (word : Opcode) : Part → String
  | .letters s => s
  | .x => digit word.x
  | .y => digit word.y

/-- The mnemonic of a word by its template. -/
def fill (word : Opcode) (template : Template) : String :=
  String.join (template.map (Part.text word))

/-- The templates of family 8, by the last digit. -/
def arithmeticTemplates : List (Nat × Template) := [
  (0x0, [.letters "LD V", .x, .letters ", V", .y]),
  (0x1, [.letters "OR V", .x, .letters ", V", .y]),
  (0x2, [.letters "AND V", .x, .letters ", V", .y]),
  (0x3, [.letters "XOR V", .x, .letters ", V", .y]),
  (0x4, [.letters "ADD V", .x, .letters ", V", .y]),
  (0x5, [.letters "SUB V", .x, .letters ", V", .y]),
  (0x6, [.letters "SHR V", .x]),
  (0x7, [.letters "SUBN V", .x, .letters ", V", .y]),
  (0xE, [.letters "SHL V", .x])]

/-- The templates of family F, by the last two digits. -/
def transferTemplates : List (Nat × Template) := [
  (0x07, [.letters "LD V", .x, .letters ", DT"]),
  (0x0A, [.letters "LD V", .x, .letters ", K"]),
  (0x15, [.letters "LD DT, V", .x]),
  (0x18, [.letters "LD ST, V", .x]),
  (0x1E, [.letters "ADD I, V", .x]),
  (0x29, [.letters "LD F, V", .x]),
  (0x33, [.letters "LD B, V", .x]),
  (0x55, [.letters "LD [I], V", .x]),
  (0x65, [.letters "LD V", .x, .letters ", [I]"])]

end Mnemonic

open Mnemonic in
/-- The mnemonic of a word, if it has one. -/
def mnemonic (word : Opcode) : Option String :=
  let family := word.family
  if family = 0x0 then
    if word = 0x00E0 then some "CLS"
    else if word = 0x00EE then some "RET"
    else none
  else if family = 0x1 then some ("JP " ++ address word.nnn)
  else if family = 0x2 then some ("CALL " ++ address word.nnn)
  else if family = 0x3 then some ("SE " ++ register word.x ++ ", " ++ byte word.nn)
  else if family = 0x4 then some ("SNE " ++ register word.x ++ ", " ++ byte word.nn)
  else if family = 0x5 then
    if word.n = 0 then some ("SE " ++ register word.x ++ ", " ++ register word.y) else none
  else if family = 0x6 then some ("LD " ++ register word.x ++ ", " ++ byte word.nn)
  else if family = 0x7 then some ("ADD " ++ register word.x ++ ", " ++ byte word.nn)
  else if family = 0x8 then (arithmeticTemplates.lookup word.n.val).map (fill word)
  else if family = 0x9 then
    if word.n = 0 then some ("SNE " ++ register word.x ++ ", " ++ register word.y) else none
  else if family = 0xA then some ("LD I, " ++ address word.nnn)
  else if family = 0xB then some ("JP V0, " ++ address word.nnn)
  else if family = 0xC then some ("RND " ++ register word.x ++ ", " ++ byte word.nn)
  else if family = 0xD then
    some ("DRW " ++ register word.x ++ ", " ++ register word.y ++ ", " ++ toString word.n.val)
  else if family = 0xE then
    if word.nn = 0x9E then some ("SKP " ++ register word.x)
    else if word.nn = 0xA1 then some ("SKNP " ++ register word.x)
    else none
  else (transferTemplates.lookup word.nn.toNat).map (fill word)

/-- The text of a word that is listed as data. -/
def dataText (word : Opcode) : String := "DW 0x" ++ String.ofList (Text.fixedHex 4 word.toNat)

/-- A line of a listing. -/
structure ListingLine where
  address : Int
  word : Opcode
  text : String
deriving DecidableEq, Repr

/-- The words of a byte string that starts at `address`, each with its text; a last byte without a
partner is left out. -/
def listing (address : Int) : List UInt8 → List ListingLine
  | high :: low :: rest =>
    let word := Opcode.ofBytes high low
    ⟨address, word, (mnemonic word).getD (dataText word)⟩ :: listing (address + 2) rest
  | _ => []

end ChipEight
