import ChipEight.Json.Reader

/-!
# Writing JSON

Values are written over several lines, two blanks of indentation a level, in ASCII: inside a string
every character outside the printable ASCII range is written by its short escape or by its UTF-16
code units in four lower-case hexadecimal digits each.

An integer of more digits than are read is not written, either. The writing ends there, and the text
before it stays (`writeOpen`).
-/

namespace ChipEight.Json

open ChipEight.Text

/-- The escape of a code unit. -/
def unitEscape (n : Nat) : List Char := '\\' :: 'u' :: lowerFixedHex 4 n

/-- One character inside a string. -/
def writeChar (c : Char) : List Char :=
  if c == doubleQuote || c == '\\' then ['\\', c]
  else if c == '\n' then ['\\', 'n']
  else if c == '\r' then ['\\', 'r']
  else if c == '\t' then ['\\', 't']
  else if c.toNat = 8 then ['\\', 'b']
  else if c.toNat = 12 then ['\\', 'f']
  else if 32 ≤ c.toNat ∧ c.toNat ≤ 126 then [c]
  else if c.toNat < 0x10000 then unitEscape c.toNat
  else unitEscape (0xD800 + (c.toNat - 0x10000) / 0x400) ++
    unitEscape (0xDC00 + (c.toNat - 0x10000) % 0x400)

/-- A string with its quotes. -/
def writeText (s : String) : List Char :=
  doubleQuote :: s.toList.flatMap writeChar ++ [doubleQuote]

/-- A binary number. -/
def writeReal : Binary64 → List Char
  | .nan => "NaN".toList
  | .infinite negative => if negative then "-Infinity".toList else "Infinity".toList
  | x => x.text.toList

/-- A line end and the indentation of a level. -/
def newLine (level : Nat) : List Char := '\n' :: List.replicate (2 * level) ' '

mutual

/-- A value at a level of indentation. -/
def writeAt (level : Nat) : Datum → List Char
  | .null => "null".toList
  | .bool b => if b then "true".toList else "false".toList
  | .int n => (toString n).toList
  | .real x => writeReal x
  | .text s => writeText s
  | .list [] => ['[', ']']
  | .list (item :: rest) =>
    '[' :: newLine (level + 1) ++ writeAt (level + 1) item ++ writeItems (level + 1) rest ++
      newLine level ++ [']']
  | .record [] => ['\x7b', '\x7d']
  | .record ((name, value) :: rest) =>
    '\x7b' :: newLine (level + 1) ++ writeText name ++ [':', ' '] ++ writeAt (level + 1) value ++
      writeFields (level + 1) rest ++ newLine level ++ ['\x7d']

/-- The further items of a list. -/
def writeItems (level : Nat) : List Datum → List Char
  | [] => []
  | item :: rest => ',' :: newLine level ++ writeAt level item ++ writeItems level rest

/-- The further fields of a record. -/
def writeFields (level : Nat) : List (String × Datum) → List Char
  | [] => []
  | (name, value) :: rest =>
    ',' :: newLine level ++ writeText name ++ [':', ' '] ++ writeAt level value ++
      writeFields level rest

end

/-- A whole value. -/
def write (value : Datum) : String := String.ofList (writeAt 0 value)

/-- Is the value an integer of too many digits? -/
def isLong : Datum → Bool
  | .int n => mostIntegerDigits < (Binary64.decimalDigits n.natAbs).length
  | _ => false

/-- The text of a record up to the value of the named field, which comes after the given ones. -/
def writeOpen (fields : List (String × Datum)) (name : String) : String :=
  let front :=
    match fields with
    | [] => '\x7b' :: newLine 1
    | (first, value) :: rest =>
      '\x7b' :: newLine 1 ++ writeText first ++ [':', ' '] ++ writeAt 1 value ++
        writeFields 1 rest ++ ',' :: newLine 1
  String.ofList (front ++ writeText name ++ [':', ' '])

end ChipEight.Json
