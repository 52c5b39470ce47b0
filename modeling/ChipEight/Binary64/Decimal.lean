import ChipEight.Binary64.Basic
import ChipEight.Text.Blank
import ChipEight.Text.DecimalDigit

/-!
# Binary64 numbers in decimal

A number is written with the fewest digits that read back as the same number; of several decimals
of that length the nearest is taken. The digits stand in positional notation while the decimal
point falls at most sixteen places after and four places before the first digit, and in scientific
notation with a signed exponent of at least two digits otherwise.

Fixed notation rounds the exact value to a number of places, ties to even.

`ofDecimal` rounds an exact decimal once. `readFloat?` reads the text form of a number: white space
around it, an optional sign, the words for the infinities and for what is no number in any case, or
digits of any script with single underscores between digits, a point, and an exponent.
-/

namespace ChipEight.Binary64

open ChipEight.Text

/-- The number nearest to `± digits · 10 ^ exponent`. Exponents far outside the format are answered
without computing the power. -/
def ofDecimal (negative : Bool) (digits : Nat) (exponent : Int) : Binary64 :=
  if digits = 0 then zero negative
  else if 400 < exponent then .infinite negative
  else if exponent < 0 ∧ ((digits.log2 / 3 + 400 : Nat) : Int) < -exponent then zero negative
  else if 0 ≤ exponent then ofRatio negative (digits * Nat.pow 10 exponent.toNat) 1
  else ofRatio negative digits (Nat.pow 10 (-exponent).toNat)

/-- An exact decimal `digits · 10 ^ exponent`. -/
structure Decimal where
  digits : Nat
  exponent : Int
deriving DecidableEq, Repr

/-- The same value with up to `fuel` zeros at the end of the digits moved into the exponent. -/
def Decimal.dropZeros : (fuel : Nat) → Decimal → Decimal
  | 0, x => x
  | fuel + 1, x =>
    if x.digits ≠ 0 ∧ x.digits % 10 = 0 then dropZeros fuel ⟨x.digits / 10, x.exponent + 1⟩ else x

/-- The least `k` with `n / d < 10 ^ k`, for positive `n` and `d`: the place of the first digit. The
binary logarithm gives it up to two. -/
def firstPlace (n d : Nat) : Int :=
  let guess := floorLog2 n d * 30103 / 100000
  let below (k : Int) : Bool :=
    let (a, b) := scaleDown 10 n d k
    a < b
  if below guess then guess
  else if below (guess + 1) then guess + 1
  else guess + 2

/-- The decimal with last place `exponent` that is nearest to `n / d` among its two neighbours on
that grid that read back as `x`. -/
def nearestReadingBack? (x : Binary64) (n d : Nat) (exponent : Int) : Option Decimal :=
  let (a, b) := scaleDown 10 n d exponent
  let q := a / b
  let r := a % b
  let lower : Option Decimal :=
    if ofDecimal false q exponent = x then some ⟨q, exponent⟩ else none
  let upper : Option Decimal :=
    if ofDecimal false (q + 1) exponent = x then some ⟨q + 1, exponent⟩ else none
  match lower, upper with
  | some l, some u => some (if 2 * r < b ∨ (2 * r = b ∧ q % 2 = 0) then l else u)
  | some l, none => some l
  | none, u => u

/-- The shortest decimal that reads back as the positive number `significand · 2 ^ exponent`, with
at most seventeen digits; failing that, its exact value. -/
def shortestDecimal (significand : Nat) (exponent : Int) : Decimal :=
  let (n, d) := magnitude significand exponent
  let place := firstPlace n d
  let x := Binary64.finite false significand exponent
  match (List.range 17).findSome? (fun (i : Nat) => nearestReadingBack? x n d (place - 1 - i)) with
  | some s => s.dropZeros 17
  | none => if 0 ≤ exponent then ⟨n, 0⟩ else ⟨significand * Nat.pow 5 (-exponent).toNat, exponent⟩

/-- The digits of a natural number in base ten. -/
def decimalDigits (n : Nat) : List Char := Nat.toDigits 10 n

/-- An exponent with its sign and at least two digits. -/
def exponentText (e : Int) : List Char :=
  let digits := decimalDigits e.natAbs
  (if e < 0 then '-' else '+') :: (if digits.length < 2 then '0' :: digits else digits)

/-- A decimal in positional or scientific notation. -/
def Decimal.text (x : Decimal) : List Char :=
  let digits := decimalDigits x.digits
  let length : Int := digits.length
  let place := length + x.exponent
  if -4 < place ∧ place ≤ 16 then
    if place ≤ 0 then ['0', '.'] ++ List.replicate (-place).toNat '0' ++ digits
    else if length ≤ place then
      digits ++ List.replicate (place - length).toNat '0' ++ ['.', '0']
    else digits.take place.toNat ++ ['.'] ++ digits.drop place.toNat
  else
    let rest := digits.drop 1
    digits.take 1 ++ (if rest.isEmpty then [] else '.' :: rest) ++ ['e'] ++ exponentText (place - 1)

/-- The text of a number, with the fewest digits that read back. -/
def text : Binary64 → String
  | .nan => "nan"
  | .infinite negative => if negative then "-inf" else "inf"
  | .finite negative 0 _ => if negative then "-0.0" else "0.0"
  | .finite negative (m + 1) e =>
    String.ofList ((if negative then ['-'] else []) ++ (shortestDecimal (m + 1) e).text)

/-- A number with exactly `places` digits after the point. -/
def fixedText (places : Nat) : Binary64 → String
  | .nan => "nan"
  | .infinite negative => if negative then "-inf" else "inf"
  | .finite negative m e =>
    let (n, d) := magnitude m e
    let scaled := divRoundEven (n * Nat.pow 10 places) d
    let digits := decimalDigits scaled
    let padded := List.replicate (places + 1 - digits.length) '0' ++ digits
    let whole := padded.take (padded.length - places)
    let part := padded.drop (padded.length - places)
    String.ofList ((if negative then ['-'] else []) ++ whole ++
      (if places = 0 then [] else '.' :: part))

/-- A digit of any script as an ASCII digit, a space of any script as a space, every other
character outside ASCII as a question mark. -/
def plainChar (c : Char) : Char :=
  if c.toNat < 127 then c
  else if isWideBlank c then ' '
  else match decimalDigit? c with
    | some d => Char.ofNat (48 + d)
    | none => '?'

/-- A numeral as it is read: plain characters, the white space around them gone. -/
def plainNumeral (s : List Char) : List Char := trimBoth isAsciiBlank (s.map plainChar)

/-- Takes the underscores out of a numeral; each must stand between two digits. `before` is the
character that was read last. -/
def dropUnderscores? (before : Char) : List Char → Option (List Char)
  | [] => if before = '_' then none else some []
  | c :: rest =>
    if c = '_' then if before.isDigit then dropUnderscores? c rest else none
    else if before = '_' ∧ !c.isDigit then none
    else (dropUnderscores? c rest).map (c :: ·)

/-- Splits an optional sign off; `true` stands for a minus. -/
def splitSign : List Char → Bool × List Char
  | '-' :: rest => (true, rest)
  | '+' :: rest => (false, rest)
  | rest => (false, rest)

/-- The value of a string of ASCII digits. -/
def digitsValue (s : List Char) : Nat := Nat.ofDigitChars 10 s 0

/-- Reads the exponent part of a numeral that has been read up to its last digit. -/
def readExponent? : List Char → Option Int
  | [] => some 0
  | c :: rest =>
    if c = 'e' ∨ c = 'E' then
      let (negative, digits) := splitSign rest
      if digits.isEmpty || !digits.all Char.isDigit then none
      else some (if negative then -(digitsValue digits : Int) else digitsValue digits)
    else none

/-- Reads digits with an optional point and exponent, the sign being known. -/
def readDecimal? (negative : Bool) (s : List Char) : Option Binary64 :=
  let whole := s.takeWhile Char.isDigit
  let rest := s.dropWhile Char.isDigit
  let (part, rest) :=
    match rest with
    | '.' :: r => (r.takeWhile Char.isDigit, r.dropWhile Char.isDigit)
    | r => ([], r)
  if whole.isEmpty && part.isEmpty then none
  else (readExponent? rest).map fun e =>
    ofDecimal negative (digitsValue (whole ++ part)) (e - part.length)

/-- Reads a number from its text; the absence of an answer means that the text is no number. -/
def readFloat? (s : List Char) : Option Binary64 := do
  let s ← dropUnderscores? ' ' (plainNumeral s)
  let (negative, rest) := splitSign s
  let word := rest.map Char.toLower
  if word = ['i', 'n', 'f'] ∨ word = ['i', 'n', 'f', 'i', 'n', 'i', 't', 'y'] then
    return .infinite negative
  else if word = ['n', 'a', 'n'] then return .nan
  else readDecimal? negative rest

end ChipEight.Binary64
