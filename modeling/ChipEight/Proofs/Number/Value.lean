import ChipEight.Number
import ChipEight.Proofs.Number.Rounding

/-!
# Values of numbers

The operations on numbers in terms of their values. Comparisons are exact (`Number.lt_iff`,
`Number.le_iff`); products and quotients are rounded ratios (`Binary64.exists_mul`,
`Binary64.exists_div`), and a product overflows where the product of the values does
(`Binary64.isInfinite_mul_iff`); the integer of a number of the format has 1024 bits at most
(`Binary64.truncate_bounds`, `Binary64.round_bounds`), and what has none is no number or an infinity
(`Binary64.truncate_eq_error_iff`). A quotient of integers that are not too large, multiplied by its
divisor and rounded, is the dividend again (`Number.round_div_mul`).
-/

namespace ChipEight

/-! ## Comparisons -/

namespace Extended

/-- A point of the extended line is a rational number. -/
def Denotes (q : ℚ) : Extended → Prop
  | .ratio n d => 0 < d ∧ (n : ℚ) / d = q
  | _ => False

variable {x y : Extended} {p q : ℚ}

theorem lt_iff (hx : x.Denotes p) (hy : y.Denotes q) : x.lt y = true ↔ p < q := by
  cases x with
  | ratio a b =>
    cases y with
    | ratio c d =>
      obtain ⟨left, rfl⟩ := hx
      obtain ⟨right, rfl⟩ := hy
      rw [lt, decide_eq_true_eq, div_lt_div_iff₀ (Nat.cast_pos.mpr left) (Nat.cast_pos.mpr right)]
      exact_mod_cast Iff.rfl
    | _ => exact hy.elim
  | _ => exact hx.elim

theorem le_iff (hx : x.Denotes p) (hy : y.Denotes q) : x.le y = true ↔ p ≤ q := by
  cases x with
  | ratio a b =>
    cases y with
    | ratio c d =>
      obtain ⟨left, rfl⟩ := hx
      obtain ⟨right, rfl⟩ := hy
      rw [le, decide_eq_true_eq, div_le_div_iff₀ (Nat.cast_pos.mpr left) (Nat.cast_pos.mpr right)]
      exact_mod_cast Iff.rfl
    | _ => exact hy.elim
  | _ => exact hx.elim

end Extended

namespace Binary64

/-- A number that is no infinity, and a number at all. -/
def IsFinite : Binary64 → Prop
  | .finite _ _ _ => True
  | _ => False

/-- The ratio of a finite number with its sign is its value. -/
theorem signedRatio_spec (negative : Bool) (m : Nat) (e : Int) :
    0 < (signedRatio negative m e).2 ∧
      ((signedRatio negative m e).1 : ℚ) / (signedRatio negative m e).2 =
        value (.finite negative m e) := by
  obtain ⟨positive, ratio⟩ := magnitude_spec m e
  refine ⟨positive, ?_⟩
  rw [value, ← ratio]
  cases negative with
  | false => simp [signedRatio]
  | true => simp [signedRatio, neg_div]

/-- The size of a finite number. -/
theorem abs_value (negative : Bool) (m : Nat) (e : Int) :
    |value (.finite negative m e)| = m * 2 ^ e := by
  have size : (0 : ℚ) ≤ m * 2 ^ e := by positivity
  cases negative with
  | false => rw [value, if_neg Bool.false_ne_true, one_mul, abs_of_nonneg size]
  | true => rw [value, if_pos rfl, neg_one_mul, abs_neg, abs_of_nonneg size]

theorem denotes_value {x : Binary64} (finite : x.IsFinite) : x.toExtended.Denotes x.value := by
  cases x with
  | finite s m e => exact signedRatio_spec s m e
  | _ => exact finite.elim

end Binary64

namespace Number

/-- The value of a number; zero for what has none. -/
def value : Number → ℚ
  | .int n => n
  | .real x => x.value

/-- A number that is no infinity, and a number at all. -/
def IsFinite : Number → Prop
  | .int _ => True
  | .real x => x.IsFinite

variable {x y : Number}

theorem isFinite_int (n : Int) : IsFinite (.int n) := trivial

theorem denotes_value (finite : x.IsFinite) : x.toExtended.Denotes x.value := by
  cases x with
  | int n => exact ⟨Nat.one_pos, by rw [value, Nat.cast_one, div_one]⟩
  | real x => exact Binary64.denotes_value finite

/-- **Finite numbers are compared by their values.** -/
theorem lt_iff (hx : x.IsFinite) (hy : y.IsFinite) : x.lt y = true ↔ x.value < y.value :=
  Extended.lt_iff (denotes_value hx) (denotes_value hy)

theorem le_iff (hx : x.IsFinite) (hy : y.IsFinite) : x.le y = true ↔ x.value ≤ y.value :=
  Extended.le_iff (denotes_value hx) (denotes_value hy)

/-- What lies between two integers is finite. -/
theorem isFinite_of_between {a b : Int} (low : Number.lt (.int a) x = true)
    (high : x.lt (.int b) = true) : x.IsFinite := by
  cases x with
  | int n => trivial
  | real x =>
    cases x with
    | finite s m e => trivial
    | nan => cases low
    | infinite s => cases s with
      | true => cases low
      | false => cases high

/-- **A number lies between two integers** if its value does. -/
theorem between_iff (a b : Int) :
    (Number.lt (.int a) x && x.lt (.int b)) = true ↔ x.IsFinite ∧ a < x.value ∧ x.value < b := by
  rw [Bool.and_eq_true]
  constructor
  · rintro ⟨low, high⟩
    have finite := isFinite_of_between low high
    exact ⟨finite, (lt_iff (isFinite_int a) finite).mp low,
      (lt_iff finite (isFinite_int b)).mp high⟩
  · rintro ⟨finite, low, high⟩
    exact ⟨(lt_iff (isFinite_int a) finite).mpr low, (lt_iff finite (isFinite_int b)).mpr high⟩

end Number

/-! ## Arithmetic -/

namespace Binary64

variable {s t : Bool} {m n : Nat} {e f : Int}

/-- A product is a rounded ratio. -/
theorem exists_mul (s t : Bool) (m n : Nat) (e f : Int) :
    ∃ a b : Nat, 0 < b ∧ (a : ℚ) / b = m * 2 ^ e * (n * 2 ^ f) ∧
      mul (.finite s m e) (.finite t n f) = ofRatio (s != t) a b := by
  obtain ⟨positive, ratio⟩ := magnitude_spec (m * n) (e + f)
  refine ⟨(magnitude (m * n) (e + f)).1, (magnitude (m * n) (e + f)).2, positive, ?_, rfl⟩
  rw [ratio, zpow_add₀ two_ne_zero, Nat.cast_mul]
  ring

/-- A quotient is a rounded ratio, unless the divisor is zero. -/
theorem exists_div (s t : Bool) (m : Nat) (e f : Int) (divisor : 0 < n) :
    ∃ a b : Nat, 0 < b ∧ (a : ℚ) / b = m * 2 ^ e / (n * 2 ^ f) ∧
      div? (.finite s m e) (.finite t n f) = some (ofRatio (s != t) a b) := by
  obtain ⟨bottom, left⟩ := magnitude_spec m e
  obtain ⟨bottom', right⟩ := magnitude_spec n f
  have top : 0 < (magnitude n f).1 := by
    have positive : (0 : ℚ) < n * 2 ^ f := mul_pos (Nat.cast_pos.mpr divisor) (by positivity)
    rw [← right] at positive
    refine Nat.pos_of_ne_zero fun zero => ?_
    rw [zero, Nat.cast_zero, zero_div] at positive
    exact lt_irrefl _ positive
  obtain ⟨n, rfl⟩ := Nat.exists_eq_add_of_lt divisor
  refine ⟨_, _, Nat.mul_pos bottom top, ?_, by rw [Nat.zero_add]; rfl⟩
  rw [← left, ← right, Nat.zero_add, div_div_div_eq]
  push_cast
  rfl

/-- The greatest integer that a number of the format can have. -/
def integerBound : Nat := 2 ^ 1024

theorem integerBound_eq : (integerBound : ℚ) = 2 ^ (53 : Int) * 2 ^ (971 : Int) := by
  rw [integerBound, Nat.cast_pow, Nat.cast_ofNat, ← zpow_add₀ two_ne_zero]
  exact (zpow_natCast 2 1024).symm

/-- The size of a number of the format. -/
theorem Canonical.magnitude_le (canonical : (finite s m e).Canonical) :
    (magnitude m e).1 ≤ integerBound * (magnitude m e).2 := by
  obtain ⟨short, -, small, -⟩ := canonical
  obtain ⟨positive, ratio⟩ := magnitude_spec m e
  have bounded : (m : ℚ) * 2 ^ e ≤ integerBound := by
    have digits : (m : ℚ) ≤ 2 ^ (53 : Int) := by exact_mod_cast short.le
    calc (m : ℚ) * 2 ^ e ≤ 2 ^ (53 : Int) * 2 ^ (971 : Int) :=
          mul_le_mul digits (zpow_le_zpow_right₀ one_le_two small) (by positivity) (by positivity)
      _ = integerBound := integerBound_eq.symm
  rw [← ratio, div_le_iff₀ (Nat.cast_pos.mpr positive)] at bounded
  exact_mod_cast bounded

variable {x : Binary64} {k : Int}

/-- The integer part of a number of the format has 1024 bits at most. -/
theorem truncate_bounds (canonical : x.Canonical) (answer : x.truncate = .ok k) :
    k.natAbs ≤ integerBound := by
  cases x with
  | finite s m e =>
    have size := canonical.magnitude_le
    have whole : (magnitude m e).1 / (magnitude m e).2 ≤ integerBound :=
      Nat.div_le_of_le_mul (by rwa [Nat.mul_comm])
    cases answer
    split
    · rwa [Int.natAbs_neg, Int.natAbs_natCast]
    · rwa [Int.natAbs_natCast]
  | _ => cases answer

/-- The nearest integer to a number of the format has 1024 bits at most. -/
theorem round_bounds (canonical : x.Canonical) (answer : x.round = .ok k) :
    k.natAbs ≤ integerBound := by
  cases x with
  | finite s m e =>
    have size := divRoundEven_le (magnitude_spec m e).1 canonical.magnitude_le
    cases answer
    split
    · rwa [Int.natAbs_neg, Int.natAbs_natCast]
    · rwa [Int.natAbs_natCast]
  | _ => cases answer

/-- What is less than half a unit away from an integer is rounded to it. -/
theorem round_eq {k : Nat} (near : |(m : ℚ) * 2 ^ e - k| < 1 / 2) :
    (finite false m e).round = .ok k := by
  obtain ⟨positive, ratio⟩ := magnitude_spec m e
  have rounded := abs_divRoundEven_sub_le (magnitude m e).1 positive
  rw [ratio] at rounded
  generalize whole : divRoundEven (magnitude m e).1 (magnitude m e).2 = q at rounded
  have close : |((q : Int) - (k : Int) : ℚ)| < 1 := by
    calc |((q : Int) - (k : Int) : ℚ)| ≤ |(q : ℚ) - m * 2 ^ e| + |(m : ℚ) * 2 ^ e - k| :=
          abs_sub_le _ _ _
      _ < 1 / 2 + 1 / 2 := add_lt_add_of_le_of_lt rounded near
      _ = 1 := add_halves 1
  have same : (q : Int) = k := sub_eq_zero.mp (Int.abs_lt_one_iff.mp (by exact_mod_cast close))
  rw [← same, ← whole]
  rfl

/-- A ratio that reaches one is rounded to a positive integer, unless it overflows. -/
theorem one_le_round {a b : Nat} (bottom : 0 < b) (reached : (1 : ℚ) ≤ a / b)
    (fits : (a : ℚ) / b < overflowBound) :
    ∃ k, (ofRatio false a b).round = .ok k ∧ 1 ≤ k ∧ k.natAbs ≤ integerBound := by
  have top : 0 < a := by
    refine Nat.pos_of_ne_zero fun zero => ?_
    rw [zero, Nat.cast_zero, zero_div] at reached
    exact absurd reached (by norm_num)
  obtain ⟨m, e, answer, units⟩ := ofRatio_eq_finite false bottom fits
  obtain ⟨positive, ratio⟩ := magnitude_spec m e
  have least : 1 ≤ divRoundEven (magnitude m e).1 (magnitude m e).2 := by
    refine le_divRoundEven positive ?_
    have large : (1 : ℚ) ≤ m * 2 ^ e := by
      rw [units, ← zpow_zero (2 : ℚ)]
      exact two_zpow_le_units top bottom (by decide) (by rwa [zpow_zero])
    rw [← ratio, one_le_div (Nat.cast_pos.mpr positive), Nat.cast_le] at large
    rwa [Nat.one_mul]
  have canonical := ofRatio_canonical false a bottom
  rw [answer] at canonical ⊢
  exact ⟨_, rfl, Int.ofNat_le.mpr least, round_bounds canonical rfl⟩

/-- What has no integer part. -/
theorem truncate_eq_error_iff {cause : NoInteger} :
    x.truncate = .error cause ↔
      x = .nan ∧ cause = .notANumber ∨ x.isInfinite = true ∧ cause = .infinite := by
  cases x <;> simp [truncate, isInfinite, eq_comm]

/-- A product with a finite number other than zero is a number if the factor is one. -/
theorem mul_eq_nan_iff (factor : 0 < n) : x.mul (.finite t n f) = .nan ↔ x = .nan := by
  cases x with
  | nan => exact iff_of_true rfl rfl
  | infinite s =>
    have product : (infinite s).mul (.finite t n f) = .infinite (s != t) :=
      if_neg (Nat.ne_of_gt factor)
    rw [product]
    exact iff_of_false nofun nofun
  | finite s m e =>
    obtain ⟨a, b, bottom, -, product⟩ := exists_mul s t m n e f
    rw [product]
    refine iff_of_false (fun undefined => ?_) nofun
    rcases le_or_gt overflowBound ((a : ℚ) / b) with overflows | fits
    · cases (ofRatio_eq_infinite _ bottom overflows).symm.trans undefined
    · obtain ⟨_, _, answer, -⟩ := ofRatio_eq_finite (s != t) bottom fits
      cases answer.symm.trans undefined

/-- When a product with a finite number other than zero overflows. -/
theorem isInfinite_mul_iff (factor : 0 < n) :
    (x.mul (.finite t n f)).isInfinite = true ↔
      x.isInfinite = true ∨ overflowBound ≤ |x.value| * (n * 2 ^ f) := by
  have zero : ¬overflowBound ≤ |(0 : ℚ)| * (n * 2 ^ f) := by
    rw [abs_zero, zero_mul]
    exact not_le.mpr overflowBound_pos
  cases x with
  | nan => exact iff_of_false Bool.false_ne_true (not_or_intro Bool.false_ne_true zero)
  | infinite s =>
    have product : (infinite s).mul (.finite t n f) = .infinite (s != t) :=
      if_neg (Nat.ne_of_gt factor)
    rw [product]
    exact iff_of_true rfl (.inl rfl)
  | finite s m e =>
    obtain ⟨a, b, bottom, ratio, product⟩ := exists_mul s t m n e f
    rw [product, isInfinite_ofRatio_iff _ a bottom, ratio, abs_value]
    exact (or_iff_right Bool.false_ne_true).symm

/-- A product is rounded by one part in `2 ^ 53` at most, unless it is too small or too large. -/
theorem mul_near (s t : Bool) (normal : (2 : ℚ) ^ (leastExponent + 52) ≤ m * 2 ^ e * (n * 2 ^ f))
    (fits : m * 2 ^ e * (n * 2 ^ f) < overflowBound) :
    ∃ k g, mul (.finite s m e) (.finite t n f) = .finite (s != t) k g ∧
      |(k : ℚ) * 2 ^ g - m * 2 ^ e * (n * 2 ^ f)| ≤ m * 2 ^ e * (n * 2 ^ f) / 2 ^ 53 := by
  obtain ⟨a, b, bottom, ratio, product⟩ := exists_mul s t m n e f
  rw [← ratio] at normal fits ⊢
  rw [product]
  exact ofRatio_near _ bottom normal fits

/-- Products are numbers of the format. -/
theorem mul_canonical (x y : Binary64) : (x.mul y).Canonical := by
  cases x <;> cases y
  case finite.finite s m e t n f =>
    obtain ⟨a, b, positive, -, product⟩ := exists_mul s t m n e f
    rw [product]
    exact ofRatio_canonical _ a positive
  case finite.infinite s m e t | infinite.finite t s m e =>
    change (if m = 0 then nan else _).Canonical
    split <;> trivial
  all_goals trivial

end Binary64

namespace Number

/-- A positive number that is not too large for 53 bits has a binary number of its value. -/
theorem toBinary64_of_pos {x : Number} (finite : x.IsFinite) (positive : 0 < x.value)
    (small : x.value < (2 ^ 53 : Nat)) :
    ∃ m e, x.toBinary64 = .ok (.finite false m e) ∧ 0 < m ∧ (m : ℚ) * 2 ^ e = x.value := by
  obtain ⟨m, e, answer, same⟩ :
      ∃ m e, x.toBinary64 = .ok (.finite false m e) ∧ (m : ℚ) * 2 ^ e = x.value := by
    cases x with
    | int k =>
      have natural : 0 < k := Int.cast_pos.mp positive
      have short : k < (2 ^ 53 : Nat) := by
        change (k : ℚ) < (2 ^ 53 : Nat) at small
        exact_mod_cast small
      obtain ⟨m, e, answer, same⟩ := Binary64.ofInt_exact (k := k) (by omega)
      rw [decide_eq_false (not_lt.mpr natural.le)] at answer
      refine ⟨m, e, ?_, ?_⟩
      · simp only [toBinary64, answer]
        rfl
      · rw [answer] at same
        simpa [Binary64.value, value] using same
    | real x =>
      cases x with
      | finite negative m e =>
        cases negative with
        | false => exact ⟨m, e, rfl, by simp [value, Binary64.value]⟩
        | true =>
          have size : (0 : ℚ) ≤ m * 2 ^ e := by positivity
          have below : (Number.real (.finite true m e)).value ≤ 0 := by
            simpa [value, Binary64.value] using size
          exact absurd positive (not_lt.mpr below)
      | _ => exact finite.elim
  refine ⟨m, e, answer, Nat.pos_of_ne_zero fun zero => ?_, same⟩
  rw [← same, zero, Nat.cast_zero, zero_mul] at positive
  exact lt_irrefl _ positive

/-- A quotient by a binary number is that of the binary numbers. -/
theorem div_real {x : Number} {a b q : Binary64} (binary : x.toBinary64 = .ok a)
    (quotient : Binary64.div? a b = some q) : x.div (.real b) = .ok q := by
  cases x <;>
  · simp only [div]
    rw [binary]
    simp only [toBinary64, bind, Except.bind, quotient]

/-- A product with an integer is that of the binary numbers. -/
theorem mul_int {x b : Binary64} {k : Int} (binary : (int k).toBinary64 = .ok b) :
    (real x).mul (.int k) = .ok (.real (x.mul b)) := by
  simp only [mul]
  rw [binary]
  rfl

/-- A quotient of integers that is not too large is a rounded ratio. -/
theorem div_int {a b : Int} (divisor : b ≠ 0)
    (small : (a.natAbs : ℚ) / b.natAbs < Binary64.overflowBound) :
    div (.int a) (.int b) =
      .ok (.ofRatio ((a < 0) != (b < 0)) a.natAbs b.natAbs) := by
  have bottom : 0 < b.natAbs := Int.natAbs_pos.mpr divisor
  have finite : (Binary64.ofRatio ((a < 0) != (b < 0)) a.natAbs b.natAbs).isInfinite = false := by
    rw [← Bool.not_eq_true, Binary64.isInfinite_ofRatio_iff _ _ bottom]
    exact not_le.mpr small
  simp only [div]
  rw [if_neg divisor, finite]
  rfl

/-- A quotient of positive integers of 50 bits is rounded by one part in `2 ^ 53` at most. -/
theorem div_near {n d : Nat} (dividend : 0 < n) (short : n ≤ 2 ^ 50) (divisor : 0 < d)
    (small : d ≤ 2 ^ 50) :
    ∃ m e, div (.int n) (.int d) = .ok (.finite false m e) ∧
      |(m : ℚ) * 2 ^ e - n / d| ≤ n / d / 2 ^ 53 := by
  have top : (1 : ℚ) ≤ n := by exact_mod_cast dividend
  have bottom : (1 : ℚ) ≤ d := by exact_mod_cast divisor
  have top' : (n : ℚ) ≤ 2 ^ 50 := by exact_mod_cast short
  have bottom' : (d : ℚ) ≤ 2 ^ 50 := by exact_mod_cast small
  have low : 1 / 2 ^ 52 ≤ (n : ℚ) / d :=
    div_le_div₀ (by linarith) top (by linarith) (bottom'.trans (by norm_num))
  have high : (n : ℚ) / d ≤ 2 ^ 52 :=
    (div_le_self (by linarith) bottom).trans (top'.trans (by norm_num))
  obtain ⟨m, e, rounded, near⟩ := Binary64.ofRatio_near false divisor
    (Binary64.two_zpow_least_le low) (Binary64.lt_overflowBound high)
  refine ⟨m, e, ?_, near⟩
  rw [div_int (a := n) (b := d) (by omega) (Binary64.lt_overflowBound (by simpa using high)),
    Int.natAbs_natCast, Int.natAbs_natCast, decide_eq_false (by omega), decide_eq_false (by omega),
    ← rounded]
  rfl

/-- **A quotient of integers times its divisor is rounded to the dividend**, if 50 bits are enough
for both of them. -/
theorem round_div_mul {n d : Nat} (dividend : 0 < n) (short : n ≤ 2 ^ 50) (divisor : 0 < d)
    (small : d ≤ 2 ^ 50) :
    ∃ q, div (.int n) (.int d) = .ok q ∧ (q.mul (.ofInt d)).round = .ok (n : Int) := by
  obtain ⟨m, e, quotient, near⟩ := div_near dividend short divisor small
  obtain ⟨k, f, factor, value⟩ := Binary64.ofInt_exact (k := d) (by omega)
  rw [decide_eq_false (by omega)] at factor
  have value : (k : ℚ) * 2 ^ f = d := by
    rw [factor] at value
    simpa [Binary64.value] using value
  -- Before it is rounded, the product is as near to the dividend as the quotient was.
  have positive : (0 : ℚ) < d := Nat.cast_pos.mpr divisor
  have again : (n : ℚ) / d * d = n := div_mul_cancel₀ _ positive.ne'
  have close : |m * 2 ^ e * d - (n : ℚ)| ≤ n / 2 ^ 53 := by
    calc |m * 2 ^ e * d - (n : ℚ)| = |m * 2 ^ e - (n : ℚ) / d| * d := by
          rw [← abs_of_pos positive, ← abs_mul, abs_of_pos positive, sub_mul, again]
      _ ≤ n / d / 2 ^ 53 * d := mul_le_mul_of_nonneg_right near positive.le
      _ = n / 2 ^ 53 := by rw [div_mul_eq_mul_div, again]
  have top : (1 : ℚ) ≤ n := by exact_mod_cast dividend
  have top' : (n : ℚ) ≤ 2 ^ 50 := by exact_mod_cast short
  have tiny : (n : ℚ) / 2 ^ 53 ≤ 1 / 8 := by
    rw [div_le_iff₀ (by norm_num)]
    exact top'.trans (by norm_num)
  generalize (n : ℚ) / 2 ^ 53 = error at close tiny
  obtain ⟨below, above⟩ := abs_le.mp close
  have low : 1 / 2 ^ 52 ≤ m * 2 ^ e * (d : ℚ) :=
    le_trans (by norm_num) (show 7 / 8 ≤ m * 2 ^ e * (d : ℚ) by linarith)
  have high : m * 2 ^ e * (d : ℚ) ≤ 2 ^ 51 :=
    le_trans (show m * 2 ^ e * (d : ℚ) ≤ 2 ^ 50 + 1 by linarith) (by norm_num)
  obtain ⟨l, g, product, near'⟩ := Binary64.mul_near (m := m) (n := k) (e := e) (f := f) false false
    (Binary64.two_zpow_least_le (by rwa [value]))
    (Binary64.lt_overflowBound (by rw [value]; exact high.trans (by norm_num)))
  rw [value] at near'
  refine ⟨_, quotient, ?_⟩
  rw [factor, product]
  refine Binary64.round_eq ?_
  calc |(l : ℚ) * 2 ^ g - n| ≤ |(l : ℚ) * 2 ^ g - m * 2 ^ e * d| + |m * 2 ^ e * d - (n : ℚ)| :=
        abs_sub_le _ _ _
    _ ≤ 1 / 4 + 1 / 8 := by
      refine add_le_add (near'.trans ?_) (close.trans tiny)
      rw [div_le_iff₀ (by norm_num)]
      exact high.trans (by norm_num)
    _ < 1 / 2 := by norm_num

end Number

end ChipEight
