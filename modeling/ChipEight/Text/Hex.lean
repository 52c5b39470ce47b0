/-!
# Hexadecimal numerals

Addresses, opcodes and register values are shown with upper-case digits in a field of a least
width; a minus sign takes one place of that field. Byte strings are shown with two lower-case
digits a byte.

`fixedHex` writes the low digits of a number in a field of exactly the given width, so two numbers
below `16 ^ width` have the same field only if they are equal.
-/

namespace ChipEight.Text

/-- The upper-case digit of a value below sixteen. -/
def hexDigit (d : Nat) : Char :=
  if d < 10 then Char.ofNat (48 + d) else Char.ofNat (55 + d)

/-- The lowest `width` hexadecimal digits of `n`, most significant first. -/
def fixedHex : (width : Nat) → (n : Nat) → List Char
  | 0, _ => []
  | width + 1, n => fixedHex width (n / 16) ++ [hexDigit (n % 16)]

/-- How many digits `n` takes; zero takes one. -/
def hexLength (n : Nat) : Nat := n.log2 / 4 + 1

/-- `n` in a field of at least `width` places. -/
def hexField (width n : Nat) : String :=
  String.ofList (fixedHex (max width (hexLength n)) n)

/-- A number that may be negative, in a field of at least `width` places: the sign takes a place. -/
def hexNumber (width : Nat) : Int → String
  | .ofNat n => hexField width n
  | .negSucc n => "-" ++ hexField (width - 1) (n + 1)

/-- The lower-case digit of a value below sixteen. -/
def lowerHexDigit (d : Nat) : Char :=
  if d < 10 then Char.ofNat (48 + d) else Char.ofNat (87 + d)

/-- A number below `16 ^ width` with lower-case digits. -/
def lowerFixedHex : (width : Nat) → (n : Nat) → List Char
  | 0, _ => []
  | width + 1, n => lowerFixedHex width (n / 16) ++ [lowerHexDigit (n % 16)]

/-- A byte string, two lower-case digits a byte. -/
def hexOfBytes (bytes : List UInt8) : String :=
  String.ofList (bytes.flatMap fun b => lowerFixedHex 2 b.toNat)

/-- The value of a hexadecimal digit of either case. -/
def hexValue? (c : Char) : Option Nat :=
  if '0' ≤ c ∧ c ≤ '9' then some (c.toNat - 48)
  else if 'a' ≤ c ∧ c ≤ 'f' then some (c.toNat - 87)
  else if 'A' ≤ c ∧ c ≤ 'F' then some (c.toNat - 55)
  else none

/-- The byte string that pairs of hexadecimal digits stand for. -/
def bytesOfHex? : List Char → Option (List UInt8)
  | [] => some []
  | [_] => none
  | hi :: lo :: rest => do
    let h ← hexValue? hi
    let l ← hexValue? lo
    let bytes ← bytesOfHex? rest
    return UInt8.ofNat (16 * h + l) :: bytes

end ChipEight.Text
