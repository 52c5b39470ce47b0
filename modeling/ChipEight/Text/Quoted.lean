import ChipEight.Text.Hex
import ChipEight.Text.Printable

/-!
# Quoted text in messages

A text inside a message stands between single quotes, or between double quotes when it holds a
single quote and no double one. A backslash and the chosen quote are escaped by a backslash; tab,
line feed and carriage return have their short escapes; any other character that is not printable
is written by its code point in two, four or eight lower-case hexadecimal digits.
-/

namespace ChipEight.Text

/-- The character `'`. -/
def singleQuote : Char := Char.ofNat 39

/-- The character `"`. -/
def doubleQuote : Char := Char.ofNat 34

/-- The quote a text is put in. -/
def quoteFor (s : List Char) : Char :=
  if s.contains singleQuote && !s.contains doubleQuote then doubleQuote else singleQuote

/-- One character inside a text quoted by `quote`. -/
def quotedChar (quote c : Char) : List Char :=
  if c == quote || c == '\\' then ['\\', c]
  else if c == '\t' then ['\\', 't']
  else if c == '\n' then ['\\', 'n']
  else if c == '\r' then ['\\', 'r']
  else if isPrintable c then [c]
  else if c.toNat < 0x100 then ['\\', 'x'] ++ lowerFixedHex 2 c.toNat
  else if c.toNat < 0x10000 then ['\\', 'u'] ++ lowerFixedHex 4 c.toNat
  else ['\\', 'U'] ++ lowerFixedHex 8 c.toNat

/-- A text as messages show it. -/
def quoted (s : String) : String :=
  let quote := quoteFor s.toList
  String.ofList (quote :: s.toList.flatMap (quotedChar quote) ++ [quote])

end ChipEight.Text
