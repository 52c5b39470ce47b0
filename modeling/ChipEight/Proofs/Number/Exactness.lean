import ChipEight.Binary64.Decimal
import ChipEight.Proofs.Number.Rounding

/-!
# Numbers that are not rounded

Rounding looks at the value of a ratio only, not at its terms (`ofRatio_congr`), and a number of the
format is answered as it is (`ofRatio_exact`). A decimal is rounded as the ratio that it is, also
where its exponent lies far outside the format and no power is computed (`ofDecimal_eq`). So the
shortest decimal of a number reads back as that number (`shortestDecimal_reads_back`), whichever of
its candidates was found.
-/

namespace ChipEight.Binary64

variable {n d n' d' m : Nat} {e : Int} {negative : Bool}

/-! ## Rounding looks at the value -/

theorem divRoundEven_mul_right (n d : Nat) {k : Nat} (positive : 0 < k) :
    divRoundEven (n * k) (d * k) = divRoundEven n d := by
  have low : 2 * (n % d * k) < d * k ↔ 2 * (n % d) < d := by
    rw [← Nat.mul_assoc]
    exact Nat.mul_lt_mul_right positive
  have high : d * k < 2 * (n % d * k) ↔ d < 2 * (n % d) := by
    rw [← Nat.mul_assoc]
    exact Nat.mul_lt_mul_right positive
  unfold divRoundEven
  dsimp only
  rw [Nat.mul_div_mul_right _ _ positive, Nat.mul_mod_mul_right]
  simp only [low, high]

theorem divRoundEven_congr (denominator : 0 < d) (denominator' : 0 < d')
    (same : (n : ℚ) / d = n' / d') : divRoundEven n d = divRoundEven n' d' := by
  have crossed : n * d' = n' * d := by
    rw [div_eq_div_iff (Nat.cast_pos.mpr denominator).ne' (Nat.cast_pos.mpr denominator').ne']
      at same
    exact_mod_cast same
  calc divRoundEven n d = divRoundEven (n * d') (d * d') :=
        (divRoundEven_mul_right n d denominator').symm
    _ = divRoundEven (n' * d) (d' * d) := by rw [crossed, Nat.mul_comm d d']
    _ = divRoundEven n' d' := divRoundEven_mul_right n' d' denominator

/-- The power of two below a ratio is determined. -/
theorem floorLog2_eq {k : Int} (numerator : 0 < n) (denominator : 0 < d)
    (low : (2 : ℚ) ^ k ≤ n / d) (high : (n : ℚ) / d < 2 ^ (k + 1)) : floorLog2 n d = k := by
  obtain ⟨low', high'⟩ := floorLog2_spec numerator denominator
  have base : (1 : ℚ) < 2 := one_lt_two
  have above := (zpow_lt_zpow_iff_right₀ base).mp (lt_of_le_of_lt low high')
  have below := (zpow_lt_zpow_iff_right₀ base).mp (lt_of_le_of_lt low' high)
  omega

theorem floorLog2_congr (numerator : 0 < n) (denominator : 0 < d) (denominator' : 0 < d')
    (numerator' : 0 < n') (same : (n : ℚ) / d = n' / d') : floorLog2 n d = floorLog2 n' d' := by
  obtain ⟨low, high⟩ := floorLog2_spec numerator' denominator'
  exact floorLog2_eq numerator denominator (same ▸ low) (same ▸ high)

/-- **Rounding looks at the value of a ratio only.** -/
theorem ofRatio_congr (negative : Bool) (denominator : 0 < d) (denominator' : 0 < d')
    (same : (n : ℚ) / d = n' / d') : ofRatio negative n d = ofRatio negative n' d' := by
  have below : (0 : ℚ) < d := Nat.cast_pos.mpr denominator
  have below' : (0 : ℚ) < d' := Nat.cast_pos.mpr denominator'
  rcases Nat.eq_zero_or_pos n with rfl | numerator
  · rw [Nat.cast_zero, zero_div, eq_comm, div_eq_zero_iff, or_iff_left below'.ne'] at same
    rw [Nat.cast_eq_zero.mp same]
    rfl
  · have numerator' : 0 < n' := by
      have positive : (0 : ℚ) < n' / d' := same ▸ div_pos (Nat.cast_pos.mpr numerator) below
      exact Nat.cast_pos.mp ((div_pos_iff_of_pos_right below').mp positive)
    have exponent : unitExponent n d = unitExponent n' d' := by
      rw [unitExponent, unitExponent,
        floorLog2_congr numerator denominator denominator' numerator' same]
    have counted : units n d = units n' d' := by
      obtain ⟨positive, ratio⟩ := scaleDown_spec n denominator (unitExponent n d)
      obtain ⟨positive', ratio'⟩ := scaleDown_spec n' denominator' (unitExponent n d)
      rw [units, units, ← exponent]
      exact divRoundEven_congr positive positive' (by rw [ratio, ratio', same])
    rw [ofRatio_eq negative numerator, ofRatio_eq negative numerator', exponent, counted]

/-! ## Numbers of the format -/

/-- **A number of the format is not rounded.** -/
theorem ofRatio_exact (canonical : (finite negative m e).Canonical) (denominator : 0 < d)
    (exactly : (n : ℚ) / d = m * 2 ^ e) : ofRatio negative n d = .finite negative m e := by
  obtain ⟨short, least, greatest, full⟩ := canonical
  rw [Nat.pow_eq] at short full
  have below : (0 : ℚ) < d := Nat.cast_pos.mpr denominator
  have unit : (0 : ℚ) < 2 ^ e := by positivity
  rcases Nat.eq_zero_or_pos m with rfl | some
  · have exponent : e = leastExponent := full.resolve_left (by decide)
    rw [Nat.cast_zero, zero_mul, div_eq_zero_iff, or_iff_left below.ne'] at exactly
    rw [Nat.cast_eq_zero.mp exactly, exponent]
    rfl
  · have numerator : 0 < n := by
      have positive : (0 : ℚ) < n / d := exactly ▸ mul_pos (Nat.cast_pos.mpr some) unit
      exact Nat.cast_pos.mp ((div_pos_iff_of_pos_right below).mp positive)
    obtain ⟨low, high⟩ := floorLog2_spec numerator denominator
    have base : (2 : ℚ) ≠ 0 := two_ne_zero
    have top : (n : ℚ) / d < 2 ^ (e + 53) := by
      rw [exactly, add_comm, zpow_add₀ base]
      refine mul_lt_mul_of_pos_right ?_ unit
      exact_mod_cast short
    have most : floorLog2 n d < e + 53 :=
      (zpow_lt_zpow_iff_right₀ one_lt_two).mp (lt_of_le_of_lt low top)
    have exponent : unitExponent n d = e := by
      unfold unitExponent
      rcases full with full | rfl
      · have bottom : (2 : ℚ) ^ (e + 52) ≤ n / d := by
          rw [exactly, add_comm, zpow_add₀ base]
          refine mul_le_mul_of_nonneg_right ?_ unit.le
          exact_mod_cast full
        have less := (zpow_lt_zpow_iff_right₀ one_lt_two).mp (lt_of_le_of_lt bottom high)
        omega
      · omega
    have counted : units n d = m := units_eq n denominator (by rw [exactly, exponent])
    rw [ofRatio_eq negative numerator, exponent, counted, if_neg short.ne,
      if_neg (not_lt.mpr greatest)]

/-- What is less than half the least number of the format is rounded to zero. -/
theorem ofRatio_eq_zero (negative : Bool) (denominator : 0 < d)
    (tiny : (n : ℚ) / d < 2 ^ (leastExponent - 1)) : ofRatio negative n d = zero negative := by
  rcases Nat.eq_zero_or_pos n with rfl | numerator
  · rfl
  · obtain ⟨low, -⟩ := floorLog2_spec numerator denominator
    have less := (zpow_lt_zpow_iff_right₀ one_lt_two).mp (lt_of_le_of_lt low tiny)
    have exponent : unitExponent n d = leastExponent := max_eq_left (by omega)
    have none : units n d = 0 := by
      have near := (abs_le.mp (abs_units_sub_le n denominator)).2
      have unit : (0 : ℚ) < 2 ^ leastExponent := by positivity
      rw [exponent] at near
      rw [zpow_sub_one₀ two_ne_zero] at tiny
      have small : (units n d : ℚ) * 2 ^ leastExponent < 1 * 2 ^ leastExponent := by linarith
      exact Nat.lt_one_iff.mp (by exact_mod_cast (mul_lt_mul_iff_of_pos_right unit).mp small)
    rw [ofRatio_eq negative numerator, exponent, none, if_neg (by decide), if_neg (by decide)]
    rfl

/-! ## Decimals -/

/-- The value of a decimal. -/
def Decimal.value (x : Decimal) : ℚ := x.digits * 10 ^ x.exponent

/-- A decimal whose exponent is this far below its digits is less than half the least number of the
format: a power of ten goes into every three bits of the digits. -/
theorem Decimal.value_lt {x : Decimal}
    (small : ((x.digits.log2 / 3 + 400 : Nat) : Int) < -x.exponent) :
    x.value < 2 ^ (leastExponent - 1) := by
  obtain ⟨k, exponent⟩ : ∃ k : Nat, x.exponent = -((x.digits.log2 / 3 + 401 + k : Nat) : Int) :=
    ⟨(-x.exponent).toNat - (x.digits.log2 / 3 + 401), by omega⟩
  have short : x.digits < 8 ^ (x.digits.log2 / 3 + 1) :=
    calc x.digits < 2 ^ (x.digits.log2 + 1) := Nat.lt_log2_self
      _ ≤ 2 ^ (3 * (x.digits.log2 / 3 + 1)) := Nat.pow_le_pow_right two_pos (by omega)
      _ = 8 ^ (x.digits.log2 / 3 + 1) := Nat.pow_mul 2 3 _
  have digits : (x.digits : ℚ) ≤ 10 ^ (x.digits.log2 / 3 + 1) :=
    calc (x.digits : ℚ) ≤ 8 ^ (x.digits.log2 / 3 + 1) := by exact_mod_cast short.le
      _ ≤ 10 ^ (x.digits.log2 / 3 + 1) := by gcongr; norm_num
  generalize x.digits.log2 / 3 = l at digits exponent
  rw [Decimal.value, exponent, zpow_neg, zpow_natCast, ← div_eq_mul_inv,
    div_lt_iff₀ (by positivity)]
  calc (x.digits : ℚ) ≤ 10 ^ (l + 1) := digits
    _ ≤ 10 ^ (l + 1 + k) := pow_le_pow_right₀ (by norm_num) (by omega)
    _ < 2 ^ (leastExponent - 1) * 10 ^ 400 * 10 ^ (l + 1 + k) := by
      refine lt_mul_of_one_lt_left (by positivity) ?_
      have power : (2 : ℚ) ^ 1075 < 10 ^ 400 := by
        exact_mod_cast (by decide +kernel : 2 ^ 1075 < 10 ^ 400)
      rw [show leastExponent - 1 = -((1075 : Nat) : Int) from rfl, zpow_neg, zpow_natCast,
        ← div_eq_inv_mul, one_lt_div (by positivity)]
      exact power
    _ = 2 ^ (leastExponent - 1) * 10 ^ (l + 401 + k) := by
      rw [mul_assoc, ← pow_add]
      congr 2
      omega

/-- A decimal whose exponent is this large overflows. -/
theorem Decimal.le_value {x : Decimal} (some : x.digits ≠ 0) (large : 400 < x.exponent) :
    overflowBound ≤ x.value := by
  have one : (1 : ℚ) ≤ x.digits := by exact_mod_cast Nat.one_le_iff_ne_zero.mpr some
  calc overflowBound ≤ 2 ^ 1024 := sub_le_self _ (by positivity)
    _ ≤ 10 ^ 400 := by exact_mod_cast (by decide +kernel : 2 ^ 1024 ≤ 10 ^ 400)
    _ ≤ 10 ^ x.exponent := by
      rw [← zpow_natCast]
      exact zpow_le_zpow_right₀ (by norm_num) large.le
    _ ≤ x.digits * 10 ^ x.exponent := le_mul_of_one_le_left (by positivity) one

/-- **A decimal is rounded as the ratio that it is.** -/
theorem ofDecimal_eq (negative : Bool) (x : Decimal) (denominator : 0 < d)
    (same : (n : ℚ) / d = x.value) :
    ofDecimal negative x.digits x.exponent = ofRatio negative n d := by
  unfold ofDecimal
  split
  case isTrue none =>
    refine ofRatio_congr negative (n := 0) Nat.one_pos denominator ?_
    rw [same, Decimal.value, none, Nat.cast_zero, zero_div, zero_mul]
  case isFalse some =>
    split
    case isTrue large =>
      exact (ofRatio_eq_infinite negative denominator (same ▸ Decimal.le_value some large)).symm
    case isFalse =>
      split
      case isTrue small =>
        exact (ofRatio_eq_zero negative denominator (same ▸ Decimal.value_lt small.2)).symm
      case isFalse =>
        split
        case isTrue up =>
          obtain ⟨k, power⟩ := Int.eq_ofNat_of_zero_le up
          refine ofRatio_congr negative Nat.one_pos denominator ?_
          rw [same, Decimal.value, power, Int.toNat_natCast, zpow_natCast, Nat.pow_eq]
          push_cast
          rw [div_one]
        case isFalse down =>
          obtain ⟨k, power⟩ : ∃ k : Nat, x.exponent = -(k : Int) :=
            ⟨(-x.exponent).toNat, by omega⟩
          refine ofRatio_congr negative (Nat.pow_pos (by decide)) denominator ?_
          rw [same, Decimal.value, power, neg_neg, Int.toNat_natCast, zpow_neg, zpow_natCast,
            Nat.pow_eq]
          push_cast
          rw [div_eq_mul_inv]

/-- Every decimal is a ratio. -/
theorem Decimal.exists_ratio (x : Decimal) : ∃ n d : Nat, 0 < d ∧ (n : ℚ) / d = x.value := by
  rcases le_or_gt 0 x.exponent with up | down
  · obtain ⟨k, power⟩ := Int.eq_ofNat_of_zero_le up
    refine ⟨x.digits * 10 ^ k, 1, Nat.one_pos, ?_⟩
    rw [value, power, zpow_natCast]
    push_cast
    rw [div_one]
  · obtain ⟨k, power⟩ : ∃ k : Nat, x.exponent = -(k : Int) := ⟨(-x.exponent).toNat, by omega⟩
    refine ⟨x.digits, 10 ^ k, by positivity, ?_⟩
    rw [value, power, zpow_neg, zpow_natCast]
    push_cast
    rw [div_eq_mul_inv]

/-- **Decimals of one value are rounded alike.** -/
theorem ofDecimal_congr (negative : Bool) {x y : Decimal} (same : x.value = y.value) :
    ofDecimal negative x.digits x.exponent = ofDecimal negative y.digits y.exponent := by
  obtain ⟨n, d, denominator, ratio⟩ := y.exists_ratio
  rw [ofDecimal_eq negative y denominator ratio,
    ofDecimal_eq negative x denominator (ratio.trans same.symm)]

/-- The opposite of a ratio is rounded to the opposite number. -/
theorem ofRatio_true (n d : Nat) : ofRatio true n d = (ofRatio false n d).neg := by
  rcases Nat.eq_zero_or_pos n with rfl | numerator
  · rfl
  · rw [ofRatio_eq true numerator, ofRatio_eq false numerator]
    split <;> split <;> rfl

theorem ofDecimal_true (digits : Nat) (exponent : Int) :
    ofDecimal true digits exponent = (ofDecimal false digits exponent).neg := by
  obtain ⟨n, d, denominator, ratio⟩ := (Decimal.mk digits exponent).exists_ratio
  rw [ofDecimal_eq true ⟨digits, exponent⟩ denominator ratio,
    ofDecimal_eq false ⟨digits, exponent⟩ denominator ratio, ofRatio_true]

/-! ## The shortest decimal -/

namespace Decimal

/-- Zeros in the exponent instead of the digits do not change the value. -/
theorem value_dropZeros (fuel : Nat) (x : Decimal) : (x.dropZeros fuel).value = x.value := by
  induction fuel generalizing x with
  | zero => rfl
  | succ fuel ih =>
    rw [dropZeros]
    split
    case isFalse => rfl
    case isTrue zeros =>
      have digits : x.digits / 10 * 10 = x.digits :=
        Nat.div_mul_cancel (Nat.dvd_of_mod_eq_zero zeros.2)
      rw [ih, value, value, zpow_add_one₀ (by norm_num)]
      nth_rewrite 2 [← digits]
      push_cast
      ring

end Decimal

/-- A decimal that was found reads back. -/
theorem ofDecimal_of_nearestReadingBack? {x : Binary64} {exponent : Int} {s : Decimal}
    (found : nearestReadingBack? x n d exponent = some s) :
    ofDecimal false s.digits s.exponent = x := by
  unfold nearestReadingBack? at found
  dsimp only at found
  have reads (q : Nat) : ∀ y ∈ (if ofDecimal false q exponent = x then some ⟨q, exponent⟩ else
      none : Option Decimal), ofDecimal false y.digits y.exponent = x := by
    split
    case isTrue same =>
      rintro _ ⟨⟩
      exact same
    case isFalse => nofun
  have lower := reads ((scaleDown 10 n d exponent).1 / (scaleDown 10 n d exponent).2)
  have upper := reads ((scaleDown 10 n d exponent).1 / (scaleDown 10 n d exponent).2 + 1)
  split at found
  case h_1 l u below above =>
    rw [below] at lower
    rw [above] at upper
    obtain rfl := Option.some.inj found
    split
    · exact lower l rfl
    · exact upper u rfl
  case h_2 l below above =>
    rw [below] at lower
    obtain rfl := Option.some.inj found
    exact lower l rfl
  case h_3 => exact upper s found

/-- **The shortest decimal of a number reads back as that number.** -/
theorem shortestDecimal_reads_back (canonical : (finite false m e).Canonical) :
    ofDecimal false (shortestDecimal m e).digits (shortestDecimal m e).exponent =
      .finite false m e := by
  obtain ⟨denominator, ratio⟩ := magnitude_spec m e
  unfold shortestDecimal
  dsimp only
  split
  case h_1 s found =>
    obtain ⟨i, -, found⟩ := List.exists_of_findSome?_eq_some found
    rw [ofDecimal_congr false (s.value_dropZeros 17)]
    exact ofDecimal_of_nearestReadingBack? found
  case h_2 =>
    -- The exact value, as an integer or with a power of five for every halving.
    split
    case isTrue up =>
      rw [ofDecimal_eq false ⟨_, 0⟩ denominator ?_, ofRatio_exact canonical denominator ratio]
      obtain ⟨k, rfl⟩ := Int.eq_ofNat_of_zero_le up
      simp [Decimal.value, magnitude]
    case isFalse down =>
      rw [ofDecimal_eq false ⟨_, e⟩ denominator ?_, ofRatio_exact canonical denominator ratio]
      obtain ⟨k, rfl⟩ : ∃ k : Nat, e = -(k : Int) := ⟨(-e).toNat, by omega⟩
      have tens : (10 : ℚ) ^ k = 2 ^ k * 5 ^ k := by rw [← mul_pow]; norm_num
      rw [ratio, Decimal.value, neg_neg, Int.toNat_natCast, Nat.pow_eq, zpow_neg, zpow_neg,
        zpow_natCast, zpow_natCast, tens]
      push_cast
      field_simp

end ChipEight.Binary64
