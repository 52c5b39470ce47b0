/-!
# Binary64 numbers

The numbers of the IEEE 754 format with a 53-bit significand, as exact values: a finite number is
`± significand · 2 ^ exponent`. Arithmetic is exact arithmetic of ratios followed by one rounding
to the nearest number of the format, ties to the even significand, so nothing here depends on a
processor.

A finite number is *canonical* when its significand is below `2 ^ 53`, its exponent lies between
-1074 and 971, and the significand has all 53 bits unless the exponent is the least one. Every
operation below answers canonical numbers, so equality of values is equality of representations,
the two zeros apart.
-/

namespace ChipEight

/-- A number of the 64-bit binary format. -/
inductive Binary64 where
  | nan
  | infinite (negative : Bool)
  | finite (negative : Bool) (significand : Nat) (exponent : Int)
deriving DecidableEq, Repr

namespace Binary64

/-- The least exponent of the format. -/
def leastExponent : Int := -1074

/-- The greatest exponent of the format. -/
def greatestExponent : Int := 971

/-- The form in which the format stores a finite number. -/
def Canonical : Binary64 → Prop
  | .finite _ m e =>
    m < Nat.pow 2 53 ∧ leastExponent ≤ e ∧ e ≤ greatestExponent ∧
      (Nat.pow 2 52 ≤ m ∨ e = leastExponent)
  | _ => True

/-- A zero of the given sign. -/
def zero (negative : Bool) : Binary64 := .finite negative 0 leastExponent

/-- The integer nearest to `n / d`; a tie goes to the even neighbour. -/
def divRoundEven (n d : Nat) : Nat :=
  let q := n / d
  let r := n % d
  if 2 * r < d then q else if d < 2 * r then q + 1 else q + q % 2

/-- The ratio `n / d · base ^ (-e)`, as numerator and denominator. -/
def scaleDown (base n d : Nat) (e : Int) : Nat × Nat :=
  if 0 ≤ e then (n, d * Nat.pow base e.toNat) else (n * Nat.pow base (-e).toNat, d)

/-- The greatest `k` with `2 ^ k ≤ n / d`, for positive `n` and `d`. -/
def floorLog2 (n d : Nat) : Int :=
  let k : Int := (n.log2 : Int) - (d.log2 : Int)
  let (a, b) := scaleDown 2 n d k
  if a < b then k - 1 else k

/-- The number nearest to `± n / d`; past the greatest number of the format, an infinity. -/
def ofRatio (negative : Bool) (n d : Nat) : Binary64 :=
  if n = 0 then zero negative
  else
    let e := max leastExponent (floorLog2 n d - 52)
    let (a, b) := scaleDown 2 n d e
    let q := divRoundEven a b
    let (m, e) := if q = Nat.pow 2 53 then (Nat.pow 2 52, e + 1) else (q, e)
    if greatestExponent < e then .infinite negative else .finite negative m e

/-- The number nearest to an integer. -/
def ofInt (n : Int) : Binary64 := ofRatio (n < 0) n.natAbs 1

/-- Is the number an infinity? -/
def isInfinite : Binary64 → Bool
  | .infinite _ => true
  | _ => false

/-- The size of `significand · 2 ^ exponent` as a ratio. -/
def magnitude (m : Nat) (e : Int) : Nat × Nat :=
  if 0 ≤ e then (m * Nat.pow 2 e.toNat, 1) else (m, Nat.pow 2 (-e).toNat)

/-- The value with its sign as a ratio with a positive denominator. -/
def signedRatio (negative : Bool) (m : Nat) (e : Int) : Int × Nat :=
  let (n, d) := magnitude m e
  (if negative then -(n : Int) else n, d)

/-- The opposite number. -/
def neg : Binary64 → Binary64
  | .nan => .nan
  | .infinite s => .infinite !s
  | .finite s m e => .finite (!s) m e

/-- The product, rounded once. -/
def mul : Binary64 → Binary64 → Binary64
  | .nan, _ | _, .nan => .nan
  | .infinite s, .infinite t => .infinite (s != t)
  | .infinite s, .finite t m _ | .finite t m _, .infinite s =>
    if m = 0 then .nan else .infinite (s != t)
  | .finite s m e, .finite t n f =>
    let (a, b) := magnitude (m * n) (e + f)
    ofRatio (s != t) a b

/-- The quotient, rounded once; a zero divisor has no quotient here. -/
def div? : Binary64 → Binary64 → Option Binary64
  | _, .finite _ 0 _ => none
  | .nan, _ | _, .nan => some .nan
  | .infinite _, .infinite _ => some .nan
  | .infinite s, .finite t _ _ => some (.infinite (s != t))
  | .finite s _ _, .infinite t => some (zero (s != t))
  | .finite s m e, .finite t n f =>
    let (a, b) := magnitude m e
    let (c, d) := magnitude n f
    some (ofRatio (s != t) (a * d) (b * c))

/-- The sum, rounded once; opposite numbers add up to the positive zero. -/
def add : Binary64 → Binary64 → Binary64
  | .nan, _ | _, .nan => .nan
  | .infinite s, .infinite t => if s = t then .infinite s else .nan
  | .infinite s, _ | _, .infinite s => .infinite s
  | .finite s m e, .finite t n f =>
    if m = 0 ∧ n = 0 then zero (s && t)
    else
      let (a, b) := signedRatio s m e
      let (c, d) := signedRatio t n f
      let total := a * d + c * b
      ofRatio (total < 0) total.natAbs (b * d)

/-- The difference, rounded once. -/
def sub (x y : Binary64) : Binary64 := add x y.neg

/-- Why a number has no integer part. -/
inductive NoInteger where
  | notANumber
  | infinite
deriving DecidableEq, Repr

/-- The integer part, toward zero. -/
def truncate : Binary64 → Except NoInteger Int
  | .nan => .error .notANumber
  | .infinite _ => .error .infinite
  | .finite s m e =>
    let (n, d) := magnitude m e
    .ok (if s then -(n / d : Nat) else (n / d : Nat))

/-- The nearest integer; a tie goes to the even neighbour. -/
def round : Binary64 → Except NoInteger Int
  | .nan => .error .notANumber
  | .infinite _ => .error .infinite
  | .finite s m e =>
    let (n, d) := magnitude m e
    .ok (if s then -(divRoundEven n d : Nat) else (divRoundEven n d : Nat))

end Binary64

/-- A number on the extended line: exact ratios between the two infinities, and one value that is
no number. Integers and binary numbers are compared through it, so no comparison rounds. -/
inductive Extended where
  | undefined
  | minusInfinity
  | plusInfinity
  | ratio (numerator : Int) (denominator : Nat)
deriving DecidableEq, Repr

namespace Extended

/-- Strictly less; false as soon as one side is no number. -/
def lt : Extended → Extended → Bool
  | .undefined, _ | _, .undefined => false
  | .minusInfinity, y => y != .minusInfinity
  | .plusInfinity, _ => false
  | .ratio _ _, .minusInfinity => false
  | .ratio _ _, .plusInfinity => true
  | .ratio a b, .ratio c d => a * d < c * b

/-- Less or equal; false as soon as one side is no number. -/
def le : Extended → Extended → Bool
  | .undefined, _ | _, .undefined => false
  | .minusInfinity, _ => true
  | x, .minusInfinity => x == .minusInfinity
  | .plusInfinity, y => y == .plusInfinity
  | .ratio _ _, .plusInfinity => true
  | .ratio a b, .ratio c d => a * d ≤ c * b

end Extended

/-- The exact value of a binary number. -/
def Binary64.toExtended : Binary64 → Extended
  | .nan => .undefined
  | .infinite true => .minusInfinity
  | .infinite false => .plusInfinity
  | .finite s m e =>
    let (n, d) := signedRatio s m e
    .ratio n d

end ChipEight
