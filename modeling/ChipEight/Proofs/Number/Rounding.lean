import ChipEight.Binary64.Basic
import Mathlib.Algebra.Order.Field.Power
import Mathlib.Data.Rat.Cast.Order
import Mathlib.Tactic.FieldSimp
import Mathlib.Tactic.Linarith
import Mathlib.Tactic.NormNum
import Mathlib.Tactic.Positivity
import Mathlib.Tactic.Ring

/-!
# Rounding to binary numbers

Every operation on binary numbers ends in one rounding, `ofRatio`. A ratio is brought to a unit, a
power of two, and the number of units is rounded to an integer. Here the value of a binary number is
a rational, and rounding is described by it:

* what is answered is a number of the format (`ofRatio_canonical`);
* it is an infinity exactly from `overflowBound` on, halfway from the greatest number of the format
  to the next power of two (`isInfinite_ofRatio_iff`), and below the bound it has the value of the
  units (`ofRatio_eq_finite`);
* the units do not fall below a power of two that the ratio reaches (`two_zpow_le_units`);
* what is answered differs from the ratio by one part in `2 ^ 53` of it at most (`ofRatio_near`);
* an integer of 53 bits is not rounded at all (`ofInt_exact`).
-/

namespace ChipEight.Binary64

/-- The value of a finite number; zero stands for the value of the others. -/
def value : Binary64 → ℚ
  | .finite negative m e => (if negative then -1 else 1) * (m * 2 ^ e)
  | _ => 0

/-- From here on, a ratio is rounded to an infinity. -/
def overflowBound : ℚ := 2 ^ 1024 - 2 ^ 970

variable {n d m : Nat} {e : Int}

/-! ## Ratios -/

/-- A ratio in units of a power of two. -/
theorem scaleDown_spec (n : Nat) (positive : 0 < d) (e : Int) :
    0 < (scaleDown 2 n d e).2 ∧
      ((scaleDown 2 n d e).1 : ℚ) / (scaleDown 2 n d e).2 = n / d * 2 ^ (-e) := by
  unfold scaleDown
  have power (k : Nat) : 0 < Nat.pow 2 k := Nat.two_pow_pos k
  split
  case isTrue up =>
    obtain ⟨k, rfl⟩ := Int.eq_ofNat_of_zero_le up
    refine ⟨Nat.mul_pos positive (power _), ?_⟩
    rw [Int.toNat_natCast, zpow_neg, zpow_natCast, Nat.cast_mul, Nat.pow_eq, Nat.cast_pow]
    field_simp
    norm_num
  case isFalse down =>
    obtain ⟨k, hk⟩ := Int.eq_ofNat_of_zero_le (a := -e) (by omega)
    refine ⟨positive, ?_⟩
    rw [hk, Int.toNat_natCast, zpow_natCast, Nat.cast_mul, Nat.pow_eq, Nat.cast_pow]
    push_cast
    ring

/-- The ratio of a finite number is its value without the sign. -/
theorem magnitude_spec (m : Nat) (e : Int) :
    0 < (magnitude m e).2 ∧ ((magnitude m e).1 : ℚ) / (magnitude m e).2 = m * 2 ^ e := by
  unfold magnitude
  split
  case isTrue up =>
    obtain ⟨k, rfl⟩ := Int.eq_ofNat_of_zero_le up
    refine ⟨Nat.one_pos, ?_⟩
    rw [Int.toNat_natCast, zpow_natCast, Nat.cast_mul, Nat.pow_eq, Nat.cast_pow]
    norm_num
  case isFalse down =>
    obtain ⟨k, hk⟩ := Int.eq_ofNat_of_zero_le (a := -e) (by omega)
    have exponent : e = -(k : Int) := by omega
    refine ⟨Nat.two_pow_pos _, ?_⟩
    rw [hk, exponent, Int.toNat_natCast, zpow_neg, zpow_natCast, Nat.pow_eq, Nat.cast_pow,
      div_eq_mul_inv]
    norm_num

/-- A ratio, brought to a unit, is compared as it is. -/
theorem scaleDown_lt_iff (n : Nat) (positive : 0 < d) (e : Int) :
    (scaleDown 2 n d e).1 < (scaleDown 2 n d e).2 ↔ (n : ℚ) / d < 2 ^ e := by
  obtain ⟨denominator, ratio⟩ := scaleDown_spec n positive e
  have unit : (0 : ℚ) < 2 ^ e := by positivity
  have scaled : ((scaleDown 2 n d e).1 : ℚ) / (scaleDown 2 n d e).2 < 1 ↔ (n : ℚ) / d < 2 ^ e := by
    rw [ratio, zpow_neg, ← div_eq_mul_inv, div_lt_one unit]
  rw [← scaled, div_lt_one (Nat.cast_pos.mpr denominator), Nat.cast_lt]

/-- The logarithms of numerator and denominator tell a ratio up to a factor of two. -/
theorem log2_bracket (numerator : 0 < n) (denominator : 0 < d) :
    (2 : ℚ) ^ ((n.log2 : Int) - d.log2 - 1) ≤ n / d ∧
      (n : ℚ) / d < 2 ^ ((n.log2 : Int) - d.log2 + 1) := by
  have above (k : Nat) : (k : ℚ) < 2 ^ ((k.log2 : Int) + 1) := by
    have bound : k < 2 ^ (k.log2 + 1) := Nat.lt_log2_self
    exact_mod_cast bound
  have below {k : Nat} (positive : 0 < k) : (2 : ℚ) ^ (k.log2 : Int) ≤ k := by
    have bound : 2 ^ k.log2 ≤ k := Nat.log2_self_le (Nat.ne_of_gt positive)
    exact_mod_cast bound
  have base : (2 : ℚ) ≠ 0 := two_ne_zero
  have positive : (0 : ℚ) < d := Nat.cast_pos.mpr denominator
  constructor
  · calc (2 : ℚ) ^ ((n.log2 : Int) - d.log2 - 1)
        = 2 ^ (n.log2 : Int) / 2 ^ ((d.log2 : Int) + 1) := by rw [← zpow_sub₀ base, sub_sub]
      _ ≤ n / d := div_le_div₀ (Nat.cast_nonneg n) (below numerator) positive (above d).le
  · calc (n : ℚ) / d < 2 ^ ((n.log2 : Int) + 1) / 2 ^ (d.log2 : Int) :=
          div_lt_div₀ (above n) (below denominator) (by positivity) (by positivity)
      _ = 2 ^ ((n.log2 : Int) - d.log2 + 1) := by rw [← zpow_sub₀ base, add_sub_right_comm]

/-- A ratio lies between two powers of two. -/
theorem floorLog2_spec (numerator : 0 < n) (denominator : 0 < d) :
    (2 : ℚ) ^ floorLog2 n d ≤ n / d ∧ (n : ℚ) / d < 2 ^ (floorLog2 n d + 1) := by
  obtain ⟨low, high⟩ := log2_bracket numerator denominator
  have compare := scaleDown_lt_iff n denominator ((n.log2 : Int) - d.log2)
  unfold floorLog2
  dsimp only
  by_cases less : (n : ℚ) / d < 2 ^ ((n.log2 : Int) - d.log2)
  · rw [if_pos (compare.mpr less), sub_add_cancel]
    exact ⟨low, less⟩
  · rw [if_neg (mt compare.mp less)]
    exact ⟨not_lt.mp less, high⟩

/-! ## The nearest integer -/

/-- The nearest integer does not fall below an integer that the ratio reaches. -/
theorem le_divRoundEven (positive : 0 < d) (reached : m * d ≤ n) : m ≤ divRoundEven n d := by
  have floor : m ≤ n / d := (Nat.le_div_iff_mul_le positive).mpr reached
  unfold divRoundEven
  dsimp only
  split
  · exact floor
  · split <;> omega

/-- The nearest integer does not exceed an integer that the ratio does not exceed. -/
theorem divRoundEven_le (positive : 0 < d) (bounded : n ≤ m * d) : divRoundEven n d ≤ m := by
  have split := Nat.div_add_mod n d
  have rest := Nat.mod_lt n positive
  have floor : n / d ≤ m := Nat.div_le_of_le_mul (by rwa [Nat.mul_comm])
  unfold divRoundEven
  dsimp only
  by_cases exactly : n / d = m
  · -- There is no rest, so that nothing is added.
    have none : n % d = 0 := by
      rw [exactly, Nat.mul_comm] at split
      omega
    rw [none, if_pos (by omega)]
    exact floor
  · split
    · exact floor
    · split <;> omega

/-- An even integer is reached from halfway below it on, since a tie goes to it. -/
theorem even_le_divRoundEven_iff (positive : 0 < d) (even : m % 2 = 0) :
    m ≤ divRoundEven n d ↔ 2 * (m * d) ≤ 2 * n + d := by
  have split := Nat.div_add_mod n d
  have rest := Nat.mod_lt n positive
  rw [Nat.mul_comm] at split
  have less {a b : Nat} (small : a ≤ b) : a * d ≤ b * d := Nat.mul_le_mul_right d small
  unfold divRoundEven
  dsimp only
  generalize n / d = q at *
  generalize n % d = r at *
  rcases Nat.lt_or_ge q m with above | below
  · have next : (q + 1) * d ≤ m * d := less above
    rw [Nat.succ_mul] at next
    rcases Nat.lt_or_ge (q + 1) m with far | near
    · have further : (q + 2) * d ≤ m * d := less far
      rw [Nat.add_mul] at further
      split
      · omega
      · split <;> omega
    · obtain rfl : m = q + 1 := Nat.le_antisymm near above
      rw [Nat.succ_mul q d]
      split
      · omega
      · split <;> omega
  · have reached : m * d ≤ q * d := less below
    refine iff_of_true ?_ (by omega)
    split
    · exact below
    · split <;> omega

/-- The nearest integer is half a unit away at most. -/
theorem divRoundEven_near (n : Nat) (positive : 0 < d) :
    2 * (divRoundEven n d * d) ≤ 2 * n + d ∧ 2 * n ≤ 2 * (divRoundEven n d * d) + d := by
  have split := Nat.div_add_mod n d
  have rest := Nat.mod_lt n positive
  have next : (n / d + 1) * d = n / d * d + d := Nat.succ_mul ..
  rw [Nat.mul_comm] at split
  unfold divRoundEven
  dsimp only
  split
  case isTrue low => omega
  case isFalse high =>
    split
    case isTrue => omega
    case isFalse low =>
      -- At a tie, both neighbours are half a unit away.
      rcases Nat.mod_two_eq_zero_or_one (n / d) with even | odd
      · rw [even, Nat.add_zero]
        omega
      · rw [odd]
        omega

theorem abs_divRoundEven_sub_le (n : Nat) (positive : 0 < d) :
    |(divRoundEven n d : ℚ) - n / d| ≤ 1 / 2 := by
  obtain ⟨high, low⟩ := divRoundEven_near n positive
  have high' : 2 * ((divRoundEven n d : ℚ) * d) ≤ 2 * n + d := by exact_mod_cast high
  have low' : 2 * (n : ℚ) ≤ 2 * (divRoundEven n d * d) + d := by exact_mod_cast low
  have positive' : (0 : ℚ) < d := Nat.cast_pos.mpr positive
  rw [abs_sub_le_iff, sub_le_iff_le_add, sub_le_iff_le_add, ← sub_le_iff_le_add',
    le_div_iff₀ positive', div_le_iff₀ positive']
  constructor <;> linarith

/-! ## The unit of a ratio -/

/-- The exponent of the unit in which a ratio is rounded. -/
def unitExponent (n d : Nat) : Int := max leastExponent (floorLog2 n d - 52)

/-- The number of units to which a ratio is rounded. -/
def units (n d : Nat) : Nat :=
  divRoundEven (scaleDown 2 n d (unitExponent n d)).1 (scaleDown 2 n d (unitExponent n d)).2

/-- A ratio is rounded to a number of units; as many as need one bit too much are brought to the
next greater unit. -/
theorem ofRatio_eq (negative : Bool) (numerator : 0 < n) (d : Nat) :
    ofRatio negative n d =
      if units n d = 2 ^ 53 then
        if greatestExponent < unitExponent n d + 1 then .infinite negative
        else .finite negative (2 ^ 52) (unitExponent n d + 1)
      else if greatestExponent < unitExponent n d then .infinite negative
      else .finite negative (units n d) (unitExponent n d) := by
  unfold ofRatio
  rw [if_neg (Nat.ne_of_gt numerator)]
  have counted : divRoundEven (scaleDown 2 n d (max leastExponent (floorLog2 n d - 52))).1
      (scaleDown 2 n d (max leastExponent (floorLog2 n d - 52))).2 = units n d := rfl
  dsimp only
  rw [counted, Nat.pow_eq]
  by_cases carried : units n d = 2 ^ 53
  · rw [if_pos carried, if_pos carried]
    rfl
  · rw [if_neg carried, if_neg carried]
    rfl

/-- A number of units is reached if the ratio reaches it. -/
theorem le_units (n : Nat) (denominator : 0 < d)
    (reached : (m : ℚ) * 2 ^ unitExponent n d ≤ n / d) : m ≤ units n d := by
  obtain ⟨positive, ratio⟩ := scaleDown_spec n denominator (unitExponent n d)
  refine le_divRoundEven positive ?_
  have scaled : (m : ℚ) ≤ n / d * 2 ^ (-unitExponent n d) := by
    rwa [zpow_neg, ← div_eq_mul_inv, le_div_iff₀ (by positivity)]
  rw [← ratio, le_div_iff₀ (Nat.cast_pos.mpr positive)] at scaled
  exact_mod_cast scaled

/-- A number of units is not exceeded unless the ratio exceeds it. -/
theorem units_le (n : Nat) (denominator : 0 < d)
    (bounded : (n : ℚ) / d ≤ m * 2 ^ unitExponent n d) : units n d ≤ m := by
  obtain ⟨positive, ratio⟩ := scaleDown_spec n denominator (unitExponent n d)
  refine divRoundEven_le positive ?_
  have scaled : (n : ℚ) / d * 2 ^ (-unitExponent n d) ≤ m := by
    rwa [zpow_neg, ← div_eq_mul_inv, div_le_iff₀ (by positivity)]
  rw [← ratio, div_le_iff₀ (Nat.cast_pos.mpr positive)] at scaled
  exact_mod_cast scaled

/-- A ratio that is a number of units is not rounded. -/
theorem units_eq (n : Nat) (denominator : 0 < d)
    (exactly : (n : ℚ) / d = m * 2 ^ unitExponent n d) : units n d = m :=
  Nat.le_antisymm (units_le n denominator exactly.le) (le_units n denominator exactly.ge)

/-- An even number of units is reached from half a unit below it on. -/
theorem even_le_units_iff (n : Nat) (denominator : 0 < d) (even : m % 2 = 0) :
    m ≤ units n d ↔ ((m : ℚ) - 1 / 2) * 2 ^ unitExponent n d ≤ n / d := by
  obtain ⟨positive, ratio⟩ := scaleDown_spec n denominator (unitExponent n d)
  have positive' : (0 : ℚ) < (scaleDown 2 n d (unitExponent n d)).2 := Nat.cast_pos.mpr positive
  have scaled : ((m : ℚ) - 1 / 2) * 2 ^ unitExponent n d ≤ n / d ↔
      (m : ℚ) - 1 / 2 ≤ n / d * 2 ^ (-unitExponent n d) := by
    have unit : (0 : ℚ) < 2 ^ unitExponent n d := by positivity
    rw [zpow_neg, ← div_eq_mul_inv, le_div_iff₀ unit]
  rw [units, even_le_divRoundEven_iff positive even, scaled, ← ratio, le_div_iff₀ positive']
  have halves : ((m : ℚ) - 1 / 2) * (scaleDown 2 n d (unitExponent n d)).2 ≤
      (scaleDown 2 n d (unitExponent n d)).1 ↔
      2 * ((m : ℚ) * (scaleDown 2 n d (unitExponent n d)).2) ≤
        2 * (scaleDown 2 n d (unitExponent n d)).1 + (scaleDown 2 n d (unitExponent n d)).2 := by
    constructor <;> intro h <;> linarith
  rw [halves]
  exact_mod_cast Iff.rfl

/-- The units of a ratio are half a unit away at most. -/
theorem abs_units_sub_le (n : Nat) (denominator : 0 < d) :
    |(units n d : ℚ) * 2 ^ unitExponent n d - n / d| ≤ 2 ^ unitExponent n d / 2 := by
  obtain ⟨positive, ratio⟩ := scaleDown_spec n denominator (unitExponent n d)
  have near := abs_divRoundEven_sub_le (scaleDown 2 n d (unitExponent n d)).1 positive
  have unit : (0 : ℚ) < 2 ^ unitExponent n d := by positivity
  have scaled : (n : ℚ) / d = n / d * 2 ^ (-unitExponent n d) * 2 ^ unitExponent n d := by
    rw [mul_assoc, ← zpow_add₀ two_ne_zero, neg_add_cancel, zpow_zero, mul_one]
  rw [ratio] at near
  calc |(units n d : ℚ) * 2 ^ unitExponent n d - n / d|
      = |(units n d : ℚ) - n / d * 2 ^ (-unitExponent n d)| * 2 ^ unitExponent n d := by
        rw [← abs_of_pos unit, ← abs_mul, abs_of_pos unit, sub_mul, ← scaled]
    _ ≤ 1 / 2 * 2 ^ unitExponent n d := mul_le_mul_of_nonneg_right near unit.le
    _ = 2 ^ unitExponent n d / 2 := by ring

/-- A ratio has 53 bits of units at most, and the carry. -/
theorem units_le_two_pow (numerator : 0 < n) (denominator : 0 < d) : units n d ≤ 2 ^ 53 := by
  refine units_le n denominator ?_
  calc (n : ℚ) / d ≤ 2 ^ (floorLog2 n d + 1) := (floorLog2_spec numerator denominator).2.le
    _ ≤ 2 ^ (53 + unitExponent n d) := by
      refine zpow_le_zpow_right₀ one_le_two ?_
      unfold unitExponent
      omega
    _ = ((2 ^ 53 : Nat) : ℚ) * 2 ^ unitExponent n d := by
      rw [zpow_add₀ two_ne_zero]
      norm_num

/-- A ratio that is not too small has 53 bits of units. -/
theorem two_pow_le_units (numerator : 0 < n) (denominator : 0 < d)
    (normal : leastExponent + 52 ≤ floorLog2 n d) :
    unitExponent n d = floorLog2 n d - 52 ∧ 2 ^ 52 ≤ units n d := by
  have exponent : unitExponent n d = floorLog2 n d - 52 := max_eq_right (by omega)
  have low := (floorLog2_spec numerator denominator).1
  refine ⟨exponent, le_units n denominator ?_⟩
  rw [exponent]
  calc ((2 ^ 52 : Nat) : ℚ) * 2 ^ (floorLog2 n d - 52) = 2 ^ floorLog2 n d := by
        rw [zpow_sub₀ two_ne_zero]
        norm_num
        ring
    _ ≤ n / d := low

/-- A power of two that the ratio reaches is reached by its units, unless it is too small. -/
theorem two_zpow_le_units {j : Int} (numerator : 0 < n) (denominator : 0 < d)
    (normal : leastExponent + 52 ≤ j) (reached : (2 : ℚ) ^ j ≤ n / d) :
    (2 : ℚ) ^ j ≤ units n d * 2 ^ unitExponent n d := by
  have high := (floorLog2_spec numerator denominator).2
  have less : j < floorLog2 n d + 1 :=
    (zpow_lt_zpow_iff_right₀ one_lt_two).mp (lt_of_le_of_lt reached high)
  obtain ⟨exponent, many⟩ := two_pow_le_units numerator denominator (by omega)
  calc (2 : ℚ) ^ j ≤ 2 ^ floorLog2 n d := zpow_le_zpow_right₀ one_le_two (by omega)
    _ = (2 ^ 52 : Nat) * 2 ^ unitExponent n d := by
      rw [exponent, zpow_sub₀ two_ne_zero]
      norm_num
      ring
    _ ≤ units n d * 2 ^ unitExponent n d :=
      mul_le_mul_of_nonneg_right (by exact_mod_cast many) (by positivity)

/-! ## What rounding answers -/

/-- **Rounding answers numbers of the format.** -/
theorem ofRatio_canonical (negative : Bool) (n : Nat) (denominator : 0 < d) :
    (ofRatio negative n d).Canonical := by
  rcases Nat.eq_zero_or_pos n with rfl | numerator
  · exact ⟨by decide, le_refl _, by decide, .inr rfl⟩
  have least : leastExponent ≤ unitExponent n d := le_max_left ..
  have most := units_le_two_pow numerator denominator
  rw [ofRatio_eq negative numerator]
  split
  case isTrue carried =>
    split
    · trivial
    · refine ⟨by decide, by omega, by omega, .inl (le_refl _)⟩
  case isFalse fits =>
    split
    · trivial
    · refine ⟨lt_of_le_of_ne most fits, least, by omega, ?_⟩
      rcases le_or_gt (leastExponent + 52) (floorLog2 n d) with normal | small
      · exact .inl (two_pow_le_units numerator denominator normal).2
      · exact .inr (max_eq_left (by omega))

/-- The bound lies half a unit below the next power of two after the numbers of the format. -/
theorem overflowBound_eq : overflowBound = ((2 ^ 53 : Nat) - 1 / 2) * 2 ^ (971 : Int) := by
  rw [overflowBound, show (1024 : Nat) = 53 + 971 from rfl, pow_add, pow_succ _ 970,
    show (971 : Int) = ((970 + 1 : Nat) : Int) from rfl, zpow_natCast, pow_succ _ 970]
  generalize (2 : ℚ) ^ 970 = unit
  push_cast
  ring

theorem overflowBound_pos : 0 < overflowBound := by
  rw [overflowBound_eq]
  exact mul_pos (by norm_num) (by positivity)

/-- The bound is far above what has 53 bits. -/
theorem two_pow_le_overflowBound : ((2 ^ 53 : Nat) : ℚ) ≤ overflowBound := by
  rw [overflowBound_eq]
  calc ((2 ^ 53 : Nat) : ℚ) ≤ ((2 ^ 53 : Nat) - 1 / 2) * 2 := by norm_num
    _ ≤ ((2 ^ 53 : Nat) - 1 / 2) * 2 ^ (971 : Int) := by
      refine mul_le_mul_of_nonneg_left ?_ (by norm_num)
      exact le_trans (zpow_one (2 : ℚ)).ge (zpow_le_zpow_right₀ one_le_two (by decide))

theorem lt_overflowBound {q : ℚ} (small : q ≤ 2 ^ 52) : q < overflowBound :=
  lt_of_lt_of_le (lt_of_le_of_lt small (by norm_num)) two_pow_le_overflowBound

/-- **Rounding overflows** from half a unit below the next power of two after the numbers of the
format. -/
theorem isInfinite_ofRatio_iff (negative : Bool) (n : Nat) (denominator : 0 < d) :
    (ofRatio negative n d).isInfinite = true ↔ overflowBound ≤ n / d := by
  rcases Nat.eq_zero_or_pos n with rfl | numerator
  · refine iff_of_false Bool.false_ne_true (not_le.mpr ?_)
    rw [Nat.cast_zero, zero_div]
    exact overflowBound_pos
  obtain ⟨low, high⟩ := floorLog2_spec numerator denominator
  have unit : unitExponent n d = max (-1074) (floorLog2 n d - 52) := rfl
  have greatest : greatestExponent = 971 := rfl
  rw [ofRatio_eq negative numerator, greatest]
  rcases lt_trichotomy (floorLog2 n d) 1023 with small | exactly | large
  · -- Even with the carry, the exponent is one of the format.
    have below : (n : ℚ) / d < overflowBound :=
      calc (n : ℚ) / d < 2 ^ (floorLog2 n d + 1) := high
        _ ≤ 2 ^ (52 + 971 : Int) := zpow_le_zpow_right₀ one_le_two (by omega)
        _ = 2 ^ 52 * 2 ^ (971 : Int) := zpow_add₀ two_ne_zero ..
        _ ≤ overflowBound := by
          rw [overflowBound_eq]
          exact mul_le_mul_of_nonneg_right (by norm_num) (by positivity)
    refine iff_of_false ?_ (not_le.mpr below)
    rw [if_neg (show ¬ 971 < unitExponent n d + 1 by omega),
      if_neg (show ¬ 971 < unitExponent n d by omega)]
    split <;> exact Bool.false_ne_true
  · -- The exponent is the greatest one, and the carry overflows.
    have exponent : unitExponent n d = 971 := by omega
    have most := units_le_two_pow numerator denominator
    have carried := even_le_units_iff n denominator (m := 2 ^ 53) (by decide)
    rw [exponent, ← overflowBound_eq] at carried
    rw [exponent, ← carried]
    by_cases full : units n d = 2 ^ 53
    · rw [if_pos full, full]
      exact iff_of_true rfl (le_refl _)
    · rw [if_neg full]
      exact iff_of_false Bool.false_ne_true (by omega)
  · have above : overflowBound ≤ n / d :=
      calc overflowBound ≤ 2 ^ (53 : Int) * 2 ^ (971 : Int) := by
            rw [overflowBound_eq]
            exact mul_le_mul_of_nonneg_right (by norm_num) (by positivity)
        _ = 2 ^ (53 + 971 : Int) := (zpow_add₀ two_ne_zero ..).symm
        _ ≤ 2 ^ floorLog2 n d := zpow_le_zpow_right₀ one_le_two (by omega)
        _ ≤ n / d := low
    refine iff_of_true ?_ above
    rw [if_pos (show 971 < unitExponent n d + 1 by omega),
      if_pos (show 971 < unitExponent n d by omega)]
    split <;> rfl

/-- Past the bound, an infinity is answered. -/
theorem ofRatio_eq_infinite (negative : Bool) (denominator : 0 < d)
    (large : overflowBound ≤ (n : ℚ) / d) : ofRatio negative n d = .infinite negative := by
  have overflows := (isInfinite_ofRatio_iff negative n denominator).mpr large
  have numerator : 0 < n := by
    refine Nat.pos_of_ne_zero fun zero => ?_
    rw [zero, Nat.cast_zero, zero_div] at large
    exact absurd overflowBound_pos (not_lt.mpr large)
  rw [ofRatio_eq negative numerator] at overflows ⊢
  split at overflows <;> split at overflows
  case isTrue.isTrue carried past => rw [if_pos carried, if_pos past]
  case isFalse.isTrue fits past => rw [if_neg fits, if_pos past]
  all_goals cases overflows

/-- Below the bound, the units of the ratio are answered. -/
theorem ofRatio_eq_finite (negative : Bool) (denominator : 0 < d)
    (small : (n : ℚ) / d < overflowBound) :
    ∃ m e, ofRatio negative n d = .finite negative m e ∧
      (m : ℚ) * 2 ^ e = units n d * 2 ^ unitExponent n d := by
  have fits := mt (isInfinite_ofRatio_iff negative n denominator).mp (not_le.mpr small)
  rcases Nat.eq_zero_or_pos n with rfl | numerator
  · refine ⟨0, leastExponent, rfl, ?_⟩
    have none : units 0 d = 0 := Nat.le_zero.mp (units_le 0 denominator (by simp))
    rw [none]
    norm_num
  rw [ofRatio_eq negative numerator] at fits ⊢
  split at fits <;> split at fits
  case isTrue.isFalse carried past =>
    refine ⟨2 ^ 52, unitExponent n d + 1, by rw [if_pos carried, if_neg past], ?_⟩
    rw [carried, zpow_add_one₀ two_ne_zero]
    push_cast
    ring
  case isFalse.isFalse whole past =>
    exact ⟨units n d, unitExponent n d, by rw [if_neg whole, if_neg past], rfl⟩
  all_goals exact absurd rfl fits

/-- The least normal number of the format is far below this. -/
theorem two_zpow_least_le {q : ℚ} (large : 1 / 2 ^ 52 ≤ q) :
    (2 : ℚ) ^ (leastExponent + 52) ≤ q := by
  refine le_trans ?_ large
  rw [one_div, ← zpow_natCast, ← zpow_neg]
  exact zpow_le_zpow_right₀ one_le_two (by decide)

/-- **A ratio is rounded by one part in `2 ^ 53` at most**, unless it is too small or too large. -/
theorem ofRatio_near (negative : Bool) (denominator : 0 < d)
    (normal : (2 : ℚ) ^ (leastExponent + 52) ≤ n / d) (fits : (n : ℚ) / d < overflowBound) :
    ∃ m e, ofRatio negative n d = .finite negative m e ∧
      |(m : ℚ) * 2 ^ e - n / d| ≤ n / d / 2 ^ 53 := by
  obtain ⟨m, e, answer, counted⟩ := ofRatio_eq_finite negative denominator fits
  have numerator : 0 < n := by
    refine Nat.pos_of_ne_zero fun zero => ?_
    rw [zero, Nat.cast_zero, zero_div] at normal
    exact absurd normal (not_le.mpr (by positivity))
  obtain ⟨low, high⟩ := floorLog2_spec numerator denominator
  have less : leastExponent + 52 < floorLog2 n d + 1 :=
    (zpow_lt_zpow_iff_right₀ one_lt_two).mp (lt_of_le_of_lt normal high)
  obtain ⟨exponent, -⟩ := two_pow_le_units numerator denominator (by omega)
  refine ⟨m, e, answer, ?_⟩
  rw [counted]
  calc |(units n d : ℚ) * 2 ^ unitExponent n d - n / d|
      ≤ 2 ^ unitExponent n d / 2 := abs_units_sub_le n denominator
    _ = 2 ^ floorLog2 n d / 2 ^ 53 := by
      rw [exponent, zpow_sub₀ two_ne_zero, div_div]
      norm_num
    _ ≤ n / d / 2 ^ 53 := by gcongr

/-- An integer of 53 bits is a number of units. -/
theorem units_natCast (small : n < 2 ^ 53) : (units n 1 : ℚ) * 2 ^ unitExponent n 1 = n := by
  have one : 0 < 1 := Nat.one_pos
  rcases Nat.eq_zero_or_pos n with rfl | numerator
  · rw [units_eq (m := 0) 0 one (by norm_num)]
    norm_num
  -- The unit is one or a part of it.
  have low := (floorLog2_spec numerator one).1
  have less : floorLog2 n 1 < 53 := by
    refine (zpow_lt_zpow_iff_right₀ (one_lt_two (α := ℚ))).mp (lt_of_le_of_lt low ?_)
    rw [Nat.cast_one, div_one]
    exact_mod_cast small
  obtain ⟨parts, unit⟩ : ∃ parts : Nat, unitExponent n 1 = -(parts : Int) := by
    refine ⟨(-unitExponent n 1).toNat, ?_⟩
    have exponent : unitExponent n 1 = max (-1074) (floorLog2 n 1 - 52) := rfl
    omega
  have exactly : (n : ℚ) = (n * 2 ^ parts : Nat) * 2 ^ unitExponent n 1 := by
    rw [unit, zpow_neg, zpow_natCast]
    push_cast
    field_simp
  rw [units_eq n one (m := n * 2 ^ parts) (by rw [← exactly, Nat.cast_one, div_one]), ← exactly]

/-- **An integer of 53 bits is not rounded.** -/
theorem ofInt_exact {k : Int} (small : k.natAbs < 2 ^ 53) :
    ∃ m e, ofInt k = .finite (k < 0) m e ∧ (ofInt k).value = k := by
  have below : ((k.natAbs : Nat) : ℚ) / (1 : Nat) < overflowBound := by
    rw [Nat.cast_one, div_one]
    exact lt_of_lt_of_le (by exact_mod_cast small) two_pow_le_overflowBound
  obtain ⟨m, e, answer, counted⟩ := ofRatio_eq_finite (k < 0) Nat.one_pos below
  refine ⟨m, e, answer, ?_⟩
  rw [ofInt, answer, value, counted, units_natCast small, Nat.cast_natAbs]
  rcases lt_or_ge k 0 with negative | positive
  · rw [abs_of_neg negative]
    simp [negative]
  · rw [abs_of_nonneg positive]
    simp [not_lt.mpr positive]

end ChipEight.Binary64
