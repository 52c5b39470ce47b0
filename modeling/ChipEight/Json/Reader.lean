import ChipEight.Datum
import ChipEight.Text.Hex

/-!
# Reading JSON

The reader accepts JSON and, besides, the words `NaN`, `Infinity` and `-Infinity` for numbers. A
numeral with a fraction or an exponent is a binary number, any other an integer. Control characters
inside a string are refused. Of two fields of one name in a record the later value holds, in the
place of the earlier.

In two points the reader departs from others of this kind. Lists and records may be nested to any
depth, where a reader that runs on a call stack of limited size refuses them at some depth. And half
of a surrogate pair, which stands for no character, is read as the replacement character; texts of
code points keep the half as it is.

Each step answers a value and the text after it. A refusal names what was expected and how many
characters of the text were left, which fixes the place; `SyntaxError.message` turns it into line,
column and index.
-/

namespace ChipEight.Json

open ChipEight.Text

/-- What is wrong with a text that is no JSON. -/
inductive Complaint where
  | noValue
  | noName
  | noColon
  | noComma
  | extraData
  | byteOrderMark
  | controlCharacter
  | openString
  | badEscape
  | badUnicodeEscape
  /-- An integer of more digits than the reader converts. -/
  | longInteger (digits : Nat)
deriving DecidableEq, Repr

/-- A complaint and the number of characters from its place to the end of the text. -/
structure Refusal where
  complaint : Complaint
  left : Nat
deriving DecidableEq, Repr

/-- The most digits an integer may have. -/
def mostIntegerDigits : Nat := 4300

/-- The blanks between tokens. -/
def isSpace (c : Char) : Bool := c == ' ' || c == '\t' || c == '\n' || c == '\r'

/-- The text after leading blanks. -/
def skipSpace (s : List Char) : List Char := s.dropWhile isSpace

/-- Refuses at the head of `s`. -/
def refuse (complaint : Complaint) (s : List Char) : Except Refusal α :=
  .error ⟨complaint, s.length⟩

/-- The character of a one-letter escape. -/
def escapeChar? (c : Char) : Option Char :=
  if c == doubleQuote || c == '\\' || c == '/' then some c
  else if c == 'b' then some (Char.ofNat 8)
  else if c == 'f' then some (Char.ofNat 12)
  else if c == 'n' then some '\n'
  else if c == 'r' then some '\r'
  else if c == 't' then some '\t'
  else none

/-- The value of four hexadecimal digits at the head, and the text after them. -/
def fourHex? : List Char → Option (Nat × List Char)
  | a :: b :: c :: d :: rest => do
    let a ← hexValue? a
    let b ← hexValue? b
    let c ← hexValue? c
    let d ← hexValue? d
    return (((a * 16 + b) * 16 + c) * 16 + d, rest)
  | _ => none

/-- The character for a code unit that stands alone; half of a pair is no character. -/
def unitChar (n : Nat) : Char :=
  if 0xD800 ≤ n ∧ n < 0xE000 then Char.ofNat 0xFFFD else Char.ofNat n

/-- Reads the rest of a `\u` escape, after the letter: four digits, and a second escape if they are
the first half of a surrogate pair and a further character follows that escape. -/
def readUnicodeEscape (s : List Char) : Except Refusal (Char × List Char) :=
  match fourHex? s with
  | none => .error ⟨.badUnicodeEscape, s.length + 1⟩
  | some (_, []) => .error ⟨.badUnicodeEscape, s.length + 1⟩
  | some (n, rest) =>
    if 0xD800 ≤ n ∧ n < 0xDC00 ∧ 6 < rest.length then
      match rest with
      | '\\' :: 'u' :: second =>
        match fourHex? second with
        | none => .error ⟨.badUnicodeEscape, second.length + 1⟩
        | some (m, after) =>
          if 0xDC00 ≤ m ∧ m < 0xE000 then
            .ok (Char.ofNat (0x10000 + (n - 0xD800) * 0x400 + (m - 0xDC00)), after)
          else .ok (unitChar n, rest)
      | _ => .ok (unitChar n, rest)
    else .ok (unitChar n, rest)

/-- Reads the rest of a string, after its opening quote; `opening` is the number of characters left
at that quote, and `fuel` bounds the number of characters. -/
def readString (opening : Nat) : (fuel : Nat) → List Char → Except Refusal (List Char × List Char)
  | 0, s => refuse .openString s
  | _ + 1, [] => .error ⟨.openString, opening⟩
  | fuel + 1, c :: rest =>
    if c == doubleQuote then .ok ([], rest)
    else if c == '\\' then
      match rest with
      | [] => .error ⟨.openString, opening⟩
      | e :: after =>
        if e == 'u' then do
          let (d, after) ← readUnicodeEscape after
          let (tail, after) ← readString opening fuel after
          return (d :: tail, after)
        else
          match escapeChar? e with
          | none => refuse .badEscape (c :: rest)
          | some d => do
            let (tail, after) ← readString opening fuel after
            return (d :: tail, after)
    else if c.toNat < 32 then refuse .controlCharacter (c :: rest)
    else do
      let (tail, after) ← readString opening fuel rest
      return (c :: tail, after)

/-- The fraction at the head: a point and at least one digit, or nothing. -/
def splitFraction : List Char → List Char × List Char
  | '.' :: d :: rest =>
    if d.isDigit then ((d :: rest).takeWhile Char.isDigit, (d :: rest).dropWhile Char.isDigit)
    else ([], '.' :: d :: rest)
  | s => ([], s)

/-- The exponent at the head: its letter, an optional sign and at least one digit, or nothing. -/
def splitExponent (s : List Char) : Option Int × List Char :=
  match s with
  | c :: rest =>
    if c = 'e' ∨ c = 'E' then
      let (negative, digits) := Binary64.splitSign rest
      let value := Binary64.digitsValue (digits.takeWhile Char.isDigit)
      if (digits.takeWhile Char.isDigit).isEmpty then (none, s)
      else (some (if negative then -(value : Int) else value), digits.dropWhile Char.isDigit)
    else (none, s)
  | [] => (none, s)

/-- The integer digits of a numeral: a zero alone, or digits that do not start with zero. -/
def splitWhole : List Char → Option (List Char × List Char)
  | [] => none
  | c :: rest =>
    if c = '0' then some (['0'], rest)
    else if c.isDigit then
      some ((c :: rest).takeWhile Char.isDigit, (c :: rest).dropWhile Char.isDigit)
    else none

/-- Reads a numeral. -/
def readNumber (s : List Char) : Except Refusal (Datum × List Char) :=
  let (negative, unsigned) :=
    match s with
    | '-' :: rest => (true, rest)
    | _ => (false, s)
  match splitWhole unsigned with
  | none => refuse .noValue s
  | some (whole, rest) =>
    let (part, rest) := splitFraction rest
    let (exponent, rest) := splitExponent rest
    if part.isEmpty && exponent.isNone then
      if mostIntegerDigits < whole.length then refuse (.longInteger whole.length) s
      else
        let n : Int := Binary64.digitsValue whole
        .ok (.int (if negative then -n else n), rest)
    else
      let x := Binary64.ofDecimal negative (Binary64.digitsValue (whole ++ part))
        (exponent.getD 0 - part.length)
      .ok (.real x, rest)

/-- The text after a word at the head. -/
def afterWord? (word s : List Char) : Option (List Char) :=
  if word.isPrefixOf s then some (s.drop word.length) else none

/-- The words that stand for values. -/
def namedValues : List (List Char × Datum) :=
  [("null".toList, .null), ("true".toList, .bool true), ("false".toList, .bool false),
   ("NaN".toList, .real .nan), ("Infinity".toList, .real (.infinite false)),
   ("-Infinity".toList, .real (.infinite true))]

/-- Reads a word that stands for a value, else a numeral. -/
def readWordOrNumber (s : List Char) : Except Refusal (Datum × List Char) :=
  match namedValues.findSome? (fun (word, value) => (afterWord? word s).map (value, ·)) with
  | some found => .ok found
  | none => readNumber s

mutual

/-- Reads a value; `fuel` bounds the number of tokens. -/
def readValue : (fuel : Nat) → List Char → Except Refusal (Datum × List Char)
  | 0, s => refuse .noValue s
  | _ + 1, [] => refuse .noValue []
  | fuel + 1, c :: rest =>
    if c == doubleQuote then do
      let (chars, after) ← readString (rest.length + 1) (rest.length + 1) rest
      return (.text (String.ofList chars), after)
    else if c == '\x7b' then
      match skipSpace rest with
      | [] => readFields fuel [] []
      | d :: after =>
        if d == '\x7d' then .ok (.record [], after) else readFields fuel [] (d :: after)
    else if c == '[' then
      match skipSpace rest with
      | [] => readItems fuel []
      | d :: after => if d == ']' then .ok (.list [], after) else readItems fuel (d :: after)
    else readWordOrNumber (c :: rest)

/-- Reads the items of a list up to its closing bracket. -/
def readItems : (fuel : Nat) → List Char → Except Refusal (Datum × List Char)
  | 0, s => refuse .noValue s
  | fuel + 1, s => do
    let (item, after) ← readValue fuel s
    match skipSpace after with
    | ']' :: after => return (.list [item], after)
    | ',' :: after =>
      let (rest, after) ← readItems fuel (skipSpace after)
      match rest with
      | .list items => return (.list (item :: items), after)
      | other => return (other, after)
    | after => refuse .noComma after

/-- Reads the fields of a record up to its closing brace; `fields` were read before. -/
def readFields :
    (fuel : Nat) → List (String × Datum) → List Char → Except Refusal (Datum × List Char)
  | 0, _, s => refuse .noName s
  | _ + 1, _, [] => refuse .noName []
  | fuel + 1, fields, c :: rest =>
    if c == doubleQuote then do
      let (chars, after) ← readString (rest.length + 1) (rest.length + 1) rest
      match skipSpace after with
      | ':' :: after =>
        let (value, after) ← readValue fuel (skipSpace after)
        let fields := setField fields (String.ofList chars) value
        match skipSpace after with
        | ',' :: after => readFields fuel fields (skipSpace after)
        | '\x7d' :: after => return (.record fields, after)
        | after => refuse .noComma after
      | after => refuse .noColon after
    else refuse .noName (c :: rest)

end

/-- A text that is no JSON: the text, and where and why it is refused. -/
structure SyntaxError where
  text : List Char
  refusal : Refusal
deriving Repr

/-- Reads a whole text as one value. -/
def read (s : List Char) : Except SyntaxError Datum :=
  let result : Except Refusal Datum := do
    if s.head? = some (Char.ofNat 0xFEFF) then refuse .byteOrderMark s
    else
      let (value, after) ← readValue (2 * s.length + 2) (skipSpace s)
      match skipSpace after with
      | [] => return value
      | after => refuse .extraData after
  result.mapError (⟨s, ·⟩)

/-- What a message says of a complaint. -/
def Complaint.message : Complaint → String
  | .noValue => "Expecting value"
  | .noName => "Expecting property name enclosed in double quotes"
  | .noColon => "Expecting ':' delimiter"
  | .noComma => "Expecting ',' delimiter"
  | .extraData => "Extra data"
  | .byteOrderMark => "Unexpected UTF-8 BOM (decode using utf-8-sig)"
  | .controlCharacter => "Invalid control character at"
  | .openString => "Unterminated string starting at"
  | .badEscape => "Invalid \\escape"
  | .badUnicodeEscape => "Invalid \\uXXXX escape"
  | .longInteger digits =>
    s!"Exceeds the limit ({mostIntegerDigits} digits) for integer string conversion: value has " ++
      s!"{digits} digits; use sys.set_int_max_str_digits() to increase the limit"

/-- What a message says of a text that is no JSON: the complaint with its line and column, counted
from one, and its index, counted from zero. -/
def SyntaxError.message (e : SyntaxError) : String :=
  match e.refusal.complaint with
  | .longInteger digits => Complaint.message (.longInteger digits)
  | complaint =>
    let index := e.text.length - e.refusal.left
    let before := e.text.take index
    let line := before.count '\n' + 1
    let column := (before.reverse.takeWhile (· != '\n')).length + 1
    complaint.message ++ s!": line {line} column {column} (char {index})"

end ChipEight.Json
