import ChipEight.Binary64.Decimal

/-!
# Numbers in settings

A setting such as a frequency may be an integer of any size or a binary number, and the two are told
apart: they are written differently, and an integer is never rounded before it has to be.
-/

namespace ChipEight

/-- An integer or a binary number. -/
inductive Number where
  | int (n : Int)
  | real (x : Binary64)
deriving DecidableEq, Repr

/-- Why a number cannot be brought into the form that is asked for. -/
inductive NumberError where
  /-- A value that is no number has no integer part. -/
  | notANumber
  /-- An infinity has no integer part, or an integer lies past the greatest binary number. -/
  | outOfRange
  /-- A quotient by zero. -/
  | zeroDivisor
deriving DecidableEq, Repr

namespace NumberError

/-- What a message says of the failure. -/
def message : NumberError → String
  | .notANumber => "cannot convert float NaN to integer"
  | .outOfRange => "number out of range"
  | .zeroDivisor => "division by zero"

/-- A failed conversion of a binary number to an integer. -/
def ofNoInteger : Binary64.NoInteger → NumberError
  | .notANumber => .notANumber
  | .infinite => .outOfRange

end NumberError

namespace Number

/-- The text of a number. -/
def text : Number → String
  | .int n => toString n
  | .real x => x.text

/-- The exact value, for comparisons. -/
def toExtended : Number → Extended
  | .int n => .ratio n 1
  | .real x => x.toExtended

/-- Exact comparison; false if a side is no number. -/
def lt (x y : Number) : Bool := x.toExtended.lt y.toExtended

/-- Exact comparison; false if a side is no number. -/
def le (x y : Number) : Bool := x.toExtended.le y.toExtended

/-- The nearest binary number; an integer past the greatest one has none. -/
def toBinary64 : Number → Except NumberError Binary64
  | .int n =>
    let x := Binary64.ofInt n
    if x.isInfinite then .error .outOfRange else .ok x
  | .real x => .ok x

/-- The integer part, toward zero. -/
def truncate : Number → Except NumberError Int
  | .int n => .ok n
  | .real x => x.truncate.mapError NumberError.ofNoInteger

/-- The quotient as a binary number. Two integers are divided exactly before the one rounding. -/
def div (x y : Number) : Except NumberError Binary64 :=
  match x, y with
  | .int a, .int b =>
    if b = 0 then .error .zeroDivisor
    else
      let q := Binary64.ofRatio ((a < 0) != (b < 0)) a.natAbs b.natAbs
      if q.isInfinite then .error .outOfRange else .ok q
  | x, y => do
    let a ← x.toBinary64
    let b ← y.toBinary64
    match Binary64.div? a b with
    | some q => .ok q
    | none => .error .zeroDivisor

/-- The product; two integers multiply exactly. -/
def mul (x y : Number) : Except NumberError Number :=
  match x, y with
  | .int a, .int b => .ok (.int (a * b))
  | x, y => do
    let a ← x.toBinary64
    let b ← y.toBinary64
    return .real (a.mul b)

/-- The difference; two integers subtract exactly. -/
def sub (x y : Number) : Except NumberError Number :=
  match x, y with
  | .int a, .int b => .ok (.int (a - b))
  | x, y => do
    let a ← x.toBinary64
    let b ← y.toBinary64
    return .real (a.sub b)

end Number

end ChipEight
