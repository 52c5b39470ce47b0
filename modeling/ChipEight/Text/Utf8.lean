/-!
# UTF-8

The encoding of a text as bytes, and the reading of bytes as text. Bytes that are no text are
refused with the first place where they go wrong and the reason: a byte that starts no character, a
byte that cannot continue one (the reason covers the bytes read before it), or an end inside a
character.
-/

namespace ChipEight.Text

/-- The bytes of a text. -/
def encodeUtf8 (s : String) : List UInt8 := s.toList.flatMap String.utf8EncodeChar

/-- Why bytes are no text. -/
inductive Utf8Reason where
  | badStart
  | badContinuation
  | unfinished
deriving DecidableEq, Repr

/-- Where and why bytes are no text: the first byte of the bad stretch, its place and its length. -/
structure Utf8Error where
  byte : UInt8
  position : Nat
  length : Nat
  reason : Utf8Reason
deriving DecidableEq, Repr

/-- What a message says of bytes that are no text. -/
def Utf8Error.message (e : Utf8Error) : String :=
  let reason :=
    match e.reason with
    | .badStart => "invalid start byte"
    | .badContinuation => "invalid continuation byte"
    | .unfinished => "unexpected end of data"
  let digit (n : Nat) : Char := if n < 10 then Char.ofNat (48 + n) else Char.ofNat (87 + n)
  if e.length = 1 then
    "'utf-8' codec can't decode byte 0x" ++
      String.ofList [digit (e.byte.toNat / 16), digit (e.byte.toNat % 16)] ++
      s!" in position {e.position}: {reason}"
  else
    s!"'utf-8' codec can't decode bytes in position {e.position}-{e.position + e.length - 1}: " ++
      reason

/-- May the byte continue a character? -/
def isContinuation (b : UInt8) : Bool := 0x80 ≤ b && b < 0xC0

/-- May `b` be the second byte after `first`? Overlong forms, surrogates and code points past the
last are excluded here. -/
def isSecond (first b : UInt8) : Bool :=
  isContinuation b &&
    !(first == 0xE0 && b < 0xA0) && !(first == 0xED && 0xA0 ≤ b) &&
    !(first == 0xF0 && b < 0x90) && !(first == 0xF4 && 0x90 ≤ b)

/-- The character of two, three or four bytes. -/
def joinBytes (first : Nat) (tail : List UInt8) : Char :=
  Char.ofNat (tail.foldl (fun n b => n * 64 + b.toNat % 64) first)

/-- Reads bytes as text; `position` counts the bytes read before. -/
def decodeUtf8 (position : Nat) : List UInt8 → Except Utf8Error (List Char)
  | [] => .ok []
  | a :: rest =>
    let bad (length : Nat) (reason : Utf8Reason) : Except Utf8Error (List Char) :=
      .error ⟨a, position, length, reason⟩
    if a < 0x80 then do
      let tail ← decodeUtf8 (position + 1) rest
      return Char.ofNat a.toNat :: tail
    else if a < 0xC2 then bad 1 .badStart
    else if a < 0xE0 then
      match rest with
      | [] => bad 1 .unfinished
      | b :: rest =>
        if !isContinuation b then bad 1 .badContinuation
        else do
          let tail ← decodeUtf8 (position + 2) rest
          return joinBytes (a.toNat % 32) [b] :: tail
    else if a < 0xF0 then
      match rest with
      | [] => bad 1 .unfinished
      | [b] => if isSecond a b then bad 2 .unfinished else bad 1 .badContinuation
      | b :: c :: rest =>
        if !isSecond a b then bad 1 .badContinuation
        else if !isContinuation c then bad 2 .badContinuation
        else do
          let tail ← decodeUtf8 (position + 3) rest
          return joinBytes (a.toNat % 16) [b, c] :: tail
    else if a < 0xF5 then
      match rest with
      | [] => bad 1 .unfinished
      | [b] => if isSecond a b then bad 2 .unfinished else bad 1 .badContinuation
      | [b, c] =>
        if !isSecond a b then bad 1 .badContinuation
        else if !isContinuation c then bad 2 .badContinuation
        else bad 3 .unfinished
      | b :: c :: d :: rest =>
        if !isSecond a b then bad 1 .badContinuation
        else if !isContinuation c then bad 2 .badContinuation
        else if !isContinuation d then bad 3 .badContinuation
        else do
          let tail ← decodeUtf8 (position + 4) rest
          return joinBytes (a.toNat % 8) [b, c, d] :: tail
    else bad 1 .badStart

/-- A text with every line end written as a single line feed. -/
def unifyLineEnds : List Char → List Char
  | [] => []
  | '\r' :: '\n' :: rest => '\n' :: unifyLineEnds rest
  | '\r' :: rest => '\n' :: unifyLineEnds rest
  | c :: rest => c :: unifyLineEnds rest

end ChipEight.Text
