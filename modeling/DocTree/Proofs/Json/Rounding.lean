import DocTree.Json.Double
import Mathlib.Algebra.Order.Field.Power
import Mathlib.Data.Int.Log
import Mathlib.Data.Rat.Floor

/-!
# Rounding of numbers

The integer arithmetic with which a quotient is rounded finds the nearest double. So a decimal is
read as its nearest double where its digits and its power of ten are doubles themselves, since only
their product or quotient is rounded then.

## Main definitions

* `Double.magnitude` — the absolute value of a double, as a rational number.
* `Double.Fits` — a significand and an exponent that a double can have.

## Main statements

* `Double.nearest_fits`, `Double.nearest_le` — a quotient is rounded to a double, and none is
  nearer to it.
* `Double.nearest_exact` — a quotient that is a double is rounded to it.
* `Double.nearest_congr` — rounding depends on the value of the quotient only.
* `Double.ofDecimal_fits` — what is read of a decimal is a double.
* `Double.ofDecimal_eq_nearest` — decimals that are read as the nearest double.
-/

namespace DocTree.Double

variable {negative : Bool} {n d n' d' : Nat}

/-! ## Rounding to natural numbers -/

/-- A quotient is rounded by one half at most. -/
theorem roundEven_half (n : Nat) (pos : 0 < d) :
    2 * ((d * roundEven n d : Nat) - n : Int) ≤ d ∧
      2 * ((n : Int) - (d * roundEven n d : Nat)) ≤ d := by
  have parts := Nat.div_add_mod n d
  have less := Nat.mod_lt n pos
  unfold roundEven
  dsimp only
  split_ifs
  · omega
  · rw [Nat.mul_succ]
    omega
  · rcases Nat.mod_two_eq_zero_or_one (n / d) with even | odd
    · rw [even, Nat.add_zero]
      omega
    · rw [odd, Nat.mul_succ]
      omega

/-- A distance measured in units. -/
theorem abs_sub_div_mul {unit : ℚ} (pos : 0 < unit) (x y : ℚ) :
    |x - y / unit| * unit = |x * unit - y| := by
  calc |x - y / unit| * unit = |(x - y / unit) * unit| := by rw [abs_mul, abs_of_pos pos]
    _ = |x * unit - y| := by rw [sub_mul, div_mul_cancel₀ _ pos.ne']

/-- No natural number is nearer to a quotient than the rounded one. -/
theorem roundEven_le (pos : 0 < d) (k : Nat) :
    |(roundEven n d : ℚ) - n / d| ≤ |(k : ℚ) - n / d| := by
  have above : (0 : ℚ) < d := by exact_mod_cast pos
  have scaled : ∀ k : Nat, |(k : ℚ) - n / d| * d = (|(d * k : Nat) - (n : Int)| : Int) := by
    intro k
    rw [abs_sub_div_mul above, mul_comm]
    norm_cast
  refine le_of_mul_le_mul_right ?_ above
  rw [scaled, scaled]
  have close := roundEven_half n pos
  generalize roundEven n d = m at close
  rw [Int.cast_le, abs_le']
  obtain less | rfl | more := lt_trichotomy k m
  · have apart : d * k + d ≤ d * m := by
      rw [← Nat.mul_succ]
      exact Nat.mul_le_mul_left d less
    rw [abs_of_nonpos (by omega)]
    omega
  · exact ⟨le_abs_self _, neg_le_abs _⟩
  · have apart : d * m + d ≤ d * k := by
      rw [← Nat.mul_succ]
      exact Nat.mul_le_mul_left d more
    rw [abs_of_nonneg (by omega)]
    omega

theorem roundEven_mul_right {c : Nat} (pos : 0 < c) :
    roundEven (n * c) (d * c) = roundEven n d := by
  simp only [roundEven, Nat.mul_div_mul_right _ _ pos, Nat.mul_mod_mul_right, ← Nat.mul_assoc,
    Nat.mul_lt_mul_right pos]

/-- Equal quotients are rounded to the same number. -/
theorem roundEven_congr (pos : 0 < d) (pos' : 0 < d') (eq : n * d' = n' * d) :
    roundEven n d = roundEven n' d' := by
  rw [← roundEven_mul_right pos', eq, Nat.mul_comm d, roundEven_mul_right pos]

/-! ## Powers and logarithms -/

theorem power_pos {base : Nat} (pos : 0 < base) (e : Int) : 0 < power base e := Nat.pow_pos pos

theorem power_div (base : Nat) (e : Int) :
    (power base e : ℚ) / power base (-e) = (base : ℚ) ^ e := by
  obtain ⟨k, rfl | rfl⟩ := e.eq_nat_or_neg <;> simp [power]

/-- A quotient measured in units of `2 ^ e`. -/
theorem scaled_div (n d : Nat) (e : Int) :
    ((n * power 2 (-e) : Nat) : ℚ) / (d * power 2 e : Nat) = n / d / 2 ^ e := by
  have power := power_div 2 e
  rw [Nat.cast_ofNat] at power
  rw [← power, div_div_div_eq, Nat.cast_mul, Nat.cast_mul]

theorem lt_power_iff (pos : 0 < d) (e : Int) :
    n * power 2 (-e) < d * power 2 e ↔ (n / d : ℚ) < 2 ^ e := by
  have positive : (0 : ℚ) < (d * power 2 e : Nat) := by
    exact_mod_cast Nat.mul_pos pos (power_pos two_pos e)
  rw [← @Nat.cast_lt ℚ, ← div_lt_one positive, scaled_div, div_lt_one (by positivity)]

theorem quotient_pos (nonzero : n ≠ 0) (pos : 0 < d) : (0 : ℚ) < n / d := by
  have := Nat.pos_of_ne_zero nonzero
  positivity

/-- The logarithm is exact. -/
theorem logTwo_eq (nonzero : n ≠ 0) (pos : 0 < d) : logTwo n d = Int.log 2 (n / d : ℚ) := by
  have quotient := quotient_pos nonzero pos
  -- the estimate from the lengths of the two numbers is at most one too large
  have least : (2 : ℚ) ^ ((n.log2 : Int) - d.log2 - 1) ≤ n / d := by
    calc (2 : ℚ) ^ ((n.log2 : Int) - d.log2 - 1)
        = (2 ^ n.log2 : Nat) / (2 ^ (d.log2 + 1) : Nat) := by
          rw [sub_sub, zpow_sub₀ two_ne_zero]
          norm_cast
      _ ≤ n / d := by
          gcongr
          · exact Nat.log2_self_le nonzero
          · exact Nat.lt_log2_self.le
  have most : (n / d : ℚ) < 2 ^ ((n.log2 : Int) - d.log2 + 1) := by
    calc (n / d : ℚ) ≤ n / (2 ^ d.log2 : Nat) := by
          gcongr
          exact Nat.log2_self_le pos.ne'
      _ < (2 ^ (n.log2 + 1) : Nat) / (2 ^ d.log2 : Nat) := by
          gcongr
          exact Nat.lt_log2_self
      _ = 2 ^ ((n.log2 : Int) - d.log2 + 1) := by
          rw [sub_add_eq_add_sub, zpow_sub₀ two_ne_zero]
          norm_cast
  have test := lt_power_iff (n := n) pos (n.log2 - d.log2)
  rw [← Nat.cast_ofNat (R := ℚ)] at least most test
  rw [Int.zpow_le_iff_le_log one_lt_two quotient] at least
  rw [Int.lt_zpow_iff_log_lt one_lt_two quotient] at most test
  unfold logTwo
  dsimp only
  split_ifs with below <;> rw [test] at below <;> omega

/-! ## Rounding to doubles -/

/-- The absolute value. -/
def magnitude (x : Double) : ℚ := x.significand * 2 ^ x.exponent

/-- A double whose significand has at most 53 bits and whose exponent is not below the least. -/
structure Fits (x : Double) : Prop where
  bits : x.significand < 2 ^ 53
  above : minExponent ≤ x.exponent

@[simp] theorem nearest_negative : (nearest negative n d).negative = negative := by
  unfold nearest
  dsimp only
  split_ifs <;> rfl

theorem nearest_magnitude (nonzero : n ≠ 0) :
    (nearest negative n d).magnitude = roundEven (n * power 2 (-unitExponent n d))
      (d * power 2 (unitExponent n d)) * 2 ^ unitExponent n d := by
  unfold nearest
  rw [if_neg nonzero]
  dsimp only
  split_ifs with carry
  · have double : power 2 53 = power 2 52 * 2 := by decide
    rw [carry, double, magnitude, zpow_add_one₀ two_ne_zero]
    push_cast
    ring
  · rfl

/-- Measured in its unit, a quotient has at most 53 bits before the point. -/
theorem lt_unit (nonzero : n ≠ 0) (pos : 0 < d) : (n / d : ℚ) < 2 ^ 53 * 2 ^ unitExponent n d := by
  have bound : logTwo n d + 1 ≤ unitExponent n d + 53 := by
    unfold unitExponent
    omega
  calc (n / d : ℚ) < 2 ^ (logTwo n d + 1) := by
        rw [logTwo_eq nonzero pos]
        exact_mod_cast Int.lt_zpow_succ_log_self one_lt_two (n / d : ℚ)
    _ ≤ 2 ^ (unitExponent n d + 53) := by gcongr; norm_num
    _ = 2 ^ 53 * 2 ^ unitExponent n d := by
        rw [zpow_add₀ two_ne_zero, mul_comm]
        norm_cast

/-- Measured in a unit that is not the least one, a quotient has at least 53 bits before the
point. -/
theorem unit_le (nonzero : n ≠ 0) (pos : 0 < d) (above : minExponent < unitExponent n d) :
    2 ^ 52 * 2 ^ unitExponent n d ≤ (n / d : ℚ) := by
  have exponent : unitExponent n d + 52 = logTwo n d := by
    unfold unitExponent at above ⊢
    omega
  calc (2 : ℚ) ^ 52 * 2 ^ unitExponent n d = 2 ^ (unitExponent n d + 52) := by
        rw [zpow_add₀ two_ne_zero, mul_comm]
        norm_cast
    _ ≤ n / d := by
        rw [exponent, logTwo_eq nonzero pos]
        exact_mod_cast Int.zpow_log_le_self one_lt_two (quotient_pos nonzero pos)

/-- No multiple of the unit is nearer to a quotient than the rounded one. -/
theorem nearest_le_multiple (nonzero : n ≠ 0) (pos : 0 < d) (k : Nat) :
    |(nearest negative n d).magnitude - n / d| ≤ |k * 2 ^ unitExponent n d - (n / d : ℚ)| := by
  have unit : (0 : ℚ) < 2 ^ unitExponent n d := by positivity
  rw [nearest_magnitude nonzero, ← abs_sub_div_mul unit, ← abs_sub_div_mul unit, ← scaled_div]
  refine mul_le_mul_of_nonneg_right ?_ unit.le
  exact roundEven_le (Nat.mul_pos pos (power_pos two_pos _)) k

/-- A rounded quotient has at most 53 bits, or it is the power of two above. -/
theorem roundEven_unit_le (nonzero : n ≠ 0) (pos : 0 < d) :
    roundEven (n * power 2 (-unitExponent n d)) (d * power 2 (unitExponent n d)) ≤ 2 ^ 53 := by
  have below : (n / d / 2 ^ unitExponent n d : ℚ) < 2 ^ 53 := by
    rw [div_lt_iff₀ (by positivity)]
    exact lt_unit nonzero pos
  have close := roundEven_le (Nat.mul_pos pos (power_pos two_pos (unitExponent n d))) (2 ^ 53)
    (n := n * power 2 (-unitExponent n d))
  rw [scaled_div] at close
  by_contra! more
  have more : (2 : ℚ) ^ 53 <
      roundEven (n * power 2 (-unitExponent n d)) (d * power 2 (unitExponent n d)) := by
    exact_mod_cast more
  push_cast at close
  rw [abs_of_pos (by linarith), abs_of_pos (by linarith)] at close
  linarith

theorem nearest_fits (pos : 0 < d) : (nearest negative n d).Fits := by
  have above : minExponent ≤ unitExponent n d := le_max_right _ _
  unfold nearest
  dsimp only
  split_ifs with nonzero carry
  · exact ⟨Nat.two_pow_pos 53, le_rfl⟩
  · have few : power 2 52 < 2 ^ 53 := by decide
    exact ⟨few, above.trans (Int.le_add_one le_rfl)⟩
  · have most := roundEven_unit_le nonzero pos
    exact ⟨lt_of_le_of_ne most carry, above⟩

/-- No double is nearer to a quotient than the one to which it is rounded. -/
theorem nearest_le (pos : 0 < d) {x : Double} (fits : x.Fits) :
    |(nearest negative n d).magnitude - n / d| ≤ |x.magnitude - n / d| := by
  by_cases nonzero : n = 0
  · rw [nonzero, Nat.cast_zero, zero_div, sub_zero, sub_zero]
    simp only [nearest, if_pos, zero, magnitude, Nat.cast_zero, zero_mul, abs_zero, abs_nonneg]
  obtain multiple | finer := le_or_gt (unitExponent n d) x.exponent
  · obtain ⟨k, exponent⟩ := Int.le.dest multiple
    have value : x.magnitude = (x.significand * 2 ^ k : Nat) * 2 ^ unitExponent n d := by
      rw [magnitude, ← exponent, zpow_add₀ two_ne_zero]
      push_cast
      rw [zpow_natCast]
      ring
    rw [value]
    exact nearest_le_multiple nonzero pos _
  -- a multiple of the unit lies between a double with a finer one and the quotient
  · have low := unit_le nonzero pos (fits.above.trans_lt finer)
    have value : x.magnitude ≤ 2 ^ 52 * 2 ^ unitExponent n d := by
      calc x.magnitude ≤ 2 ^ 53 * 2 ^ (unitExponent n d - 1) := by
            unfold magnitude
            gcongr
            · exact_mod_cast fits.bits.le
            · norm_num
            · omega
        _ = 2 ^ 52 * 2 ^ unitExponent n d := by
            rw [zpow_sub_one₀ two_ne_zero]
            ring
    refine (nearest_le_multiple nonzero pos (2 ^ 52)).trans ?_
    push_cast
    rw [abs_of_nonpos (by linarith), abs_of_nonpos (by linarith)]
    linarith

/-- A quotient that is a double is rounded to it. -/
theorem nearest_exact (pos : 0 < d) {x : Double} (fits : x.Fits) (eq : x.magnitude = n / d) :
    (nearest negative n d).magnitude = n / d := by
  have close : |(nearest negative n d).magnitude - n / d| ≤ |x.magnitude - n / d| :=
    nearest_le pos fits
  rw [eq, sub_self, abs_zero] at close
  exact sub_eq_zero.1 (abs_nonpos_iff.1 close)

/-- Equal quotients are rounded to the same double. -/
theorem nearest_congr (pos : 0 < d) (pos' : 0 < d') (eq : (n / d : ℚ) = n' / d') :
    nearest negative n d = nearest negative n' d' := by
  have cross : n * d' = n' * d := by
    rw [div_eq_div_iff (by positivity) (by positivity)] at eq
    exact_mod_cast eq
  have both : n = 0 ↔ n' = 0 := by
    have quotients : n * d' = 0 ↔ n' * d = 0 := by rw [cross]
    simpa [pos.ne', pos'.ne'] using quotients
  by_cases nonzero : n = 0
  · simp [nearest, nonzero, both.1 nonzero]
  have nonzero' : n' ≠ 0 := fun none => nonzero (both.2 none)
  have unit : unitExponent n d = unitExponent n' d' := by
    rw [unitExponent, unitExponent, logTwo_eq nonzero pos, logTwo_eq nonzero' pos', eq]
  have rounded :
      roundEven (n * power 2 (-unitExponent n d)) (d * power 2 (unitExponent n d)) =
        roundEven (n' * power 2 (-unitExponent n d)) (d' * power 2 (unitExponent n d)) := by
    refine roundEven_congr (Nat.mul_pos pos (power_pos two_pos _))
      (Nat.mul_pos pos' (power_pos two_pos _)) ?_
    rw [Nat.mul_mul_mul_comm, cross, Nat.mul_mul_mul_comm]
  unfold nearest
  rw [if_neg nonzero, if_neg nonzero', ← unit]
  dsimp only
  rw [rounded]

/-- Far below the least power of two that is out of range nothing is rounded out of range. -/
theorem nearest_inRange (pos : 0 < d) (below : (n / d : ℚ) < 2 ^ (1023 : Int)) :
    (nearest negative n d).inRange = true := by
  by_cases nonzero : n = 0
  · simp [nonzero, nearest, zero, inRange, minExponent, maxExponent]
  have log : logTwo n d < 1023 := by
    rw [logTwo_eq nonzero pos, ← Int.lt_zpow_iff_log_lt one_lt_two (quotient_pos nonzero pos),
      Nat.cast_ofNat]
    exact below
  have unit : unitExponent n d ≤ 970 := max_le (by omega) (by decide)
  unfold nearest inRange maxExponent
  rw [if_neg nonzero]
  dsimp only
  split_ifs <;> (rw [decide_eq_true_eq]; dsimp only; omega)

/-! ## Products and quotients -/

theorem mul_eq_nearest {x y : Double} (pos : 0 < d) (eq : x.magnitude * y.magnitude = n / d) :
    x.mul y = nearest (x.negative != y.negative) n d := by
  refine nearest_congr (power_pos two_pos _) pos ?_
  rw [← eq, magnitude, magnitude, mul_mul_mul_comm, ← zpow_add₀ two_ne_zero]
  push_cast
  rw [mul_div_assoc, power_div, Nat.cast_ofNat]

theorem div_eq_nearest {x y : Double} (pos : 0 < d) (nonzero : y.significand ≠ 0)
    (eq : x.magnitude / y.magnitude = n / d) :
    x.div y = nearest (x.negative != y.negative) n d := by
  refine nearest_congr (Nat.mul_pos (Nat.pos_of_ne_zero nonzero) (power_pos two_pos _)) pos ?_
  rw [← eq, magnitude, magnitude, mul_div_mul_comm, ← zpow_sub₀ two_ne_zero]
  push_cast
  rw [mul_div_mul_comm, power_div, Nat.cast_ofNat]

/-! ## Decimals -/

theorem nearest_digits {digits : Nat} (short : digits < 2 ^ 53) :
    (nearest negative digits 1).magnitude = digits := by
  have least : minExponent ≤ 0 := by decide
  have fits : Fits ⟨negative, digits, 0⟩ := ⟨short, least⟩
  have value : (nearest negative digits 1).magnitude = digits / (1 : Nat) :=
    nearest_exact one_pos fits (by simp [magnitude])
  simpa using value

/-- A power of ten is not rounded to zero, since one is nearer. -/
theorem tenTo_nonzero (scale : Nat) : (tenTo scale).significand ≠ 0 := by
  intro none
  have least : minExponent ≤ 0 := by decide
  have fits : Fits ⟨false, 1, 0⟩ := ⟨by decide, least⟩
  have close : |(tenTo scale).magnitude - power 10 scale / (1 : Nat)| ≤
      |magnitude ⟨false, 1, 0⟩ - power 10 scale / (1 : Nat)| := nearest_le one_pos fits
  have one : (1 : ℚ) ≤ power 10 scale := by exact_mod_cast power_pos (by decide) _
  simp only [magnitude, none, Nat.cast_zero, Nat.cast_one, zero_mul, zpow_zero, mul_one, div_one]
    at close
  rw [abs_of_nonpos (by linarith), abs_of_nonpos (by linarith)] at close
  linarith

theorem div_tenTo_fits (x : Double) (scale : Nat) : (x.div (tenTo scale)).Fits :=
  nearest_fits (Nat.mul_pos (Nat.pos_of_ne_zero (tenTo_nonzero scale)) (power_pos two_pos _))

theorem scaleDown_fits {x : Double} (fits : x.Fits) (times scale : Nat) :
    (scaleDown times x scale).Fits := by
  induction times generalizing x scale with
  | zero => exact div_tenTo_fits x scale
  | succ times ih =>
    unfold scaleDown
    split_ifs
    · exact fits
    · exact ih (div_tenTo_fits x maxScale) _

/-- What is read of any decimal is a double. -/
theorem ofDecimal_fits {decimal : Decimal} {x : Double}
    (read : ofDecimal negative decimal = some x) : x.Fits := by
  have digits : (nearest negative decimal.digits 1).Fits := nearest_fits one_pos
  simp only [ofDecimal, scaleUp] at read
  split_ifs at read <;> cases read
  · exact nearest_fits (power_pos two_pos _)
  · exact digits
  · exact scaleDown_fits digits _ _

theorem tenTo_magnitude {scale : Nat} (le : scale ≤ 22) : (tenTo scale).magnitude = 10 ^ scale := by
  have fits : Fits ⟨false, 5 ^ scale, scale⟩ := by
    refine ⟨?_, ?_⟩
    · calc 5 ^ scale ≤ 5 ^ 22 := Nat.pow_le_pow_right (by decide) le
        _ < 2 ^ 53 := by decide
    · simp only [minExponent]
      omega
  have value : (tenTo scale).magnitude = power 10 scale / (1 : Nat) := by
    refine nearest_exact one_pos fits ?_
    simp only [magnitude, power, Int.toNat_natCast, zpow_natCast, Nat.cast_pow, Nat.cast_ofNat,
      Nat.pow_eq, Nat.cast_one, div_one, ← mul_pow]
    norm_num
  simpa [power] using value

theorem mul_tenTo {digits scale : Nat} (short : digits < 2 ^ 53) (near : scale ≤ 22) :
    (nearest negative digits 1).mul (tenTo scale) =
      nearest negative (digits * power 10 scale) 1 := by
  have eq : (nearest negative digits 1).magnitude * (tenTo scale).magnitude =
      (digits * power 10 scale : Nat) / (1 : Nat) := by
    rw [nearest_digits short, tenTo_magnitude near]
    simp [power]
  simpa [tenTo] using mul_eq_nearest one_pos eq

theorem div_tenTo {digits scale : Nat} (short : digits < 2 ^ 53) (near : scale ≤ 22) :
    (nearest negative digits 1).div (tenTo scale) = nearest negative digits (power 10 scale) := by
  have eq : (nearest negative digits 1).magnitude / (tenTo scale).magnitude =
      digits / (power 10 scale : Nat) := by
    rw [nearest_digits short, tenTo_magnitude near]
    simp [power]
  simpa [tenTo] using div_eq_nearest (power_pos (by decide) _) (tenTo_nonzero scale) eq

theorem mul_tenTo_inRange {digits scale : Nat} (short : digits < 2 ^ 53) (near : scale ≤ 22) :
    ((nearest negative digits 1).mul (tenTo scale)).inRange = true := by
  rw [mul_tenTo short near]
  refine nearest_inRange one_pos ?_
  have few : digits * 10 ^ scale < 2 ^ 127 := by
    calc digits * 10 ^ scale ≤ digits * 10 ^ 22 := by gcongr; decide
      _ < 2 ^ 53 * 10 ^ 22 := by gcongr
      _ < 2 ^ 127 := by decide
  calc ((digits * power 10 scale : Nat) / (1 : Nat) : ℚ) = (digits * 10 ^ scale : Nat) := by
        simp [power]
    _ < (2 ^ 127 : Nat) := Nat.cast_lt.2 few
    _ = 2 ^ ((127 : Nat) : Int) := by rw [Nat.cast_pow, Nat.cast_ofNat, zpow_natCast]
    _ < 2 ^ (1023 : Int) := zpow_lt_zpow_right₀ one_lt_two (by decide)

/-- A decimal of at most 53 bits and a power of ten that is itself a double are read without
a second rounding. -/
theorem ofDecimal_eq_nearest {decimal : Decimal} (short : decimal.digits < 2 ^ 53)
    (near : decimal.scale.natAbs ≤ 22) :
    ofDecimal negative decimal = some (nearest negative (decimal.digits * power 10 decimal.scale)
      (power 10 (-decimal.scale))) := by
  obtain ⟨digits, scale⟩ := decimal
  dsimp only at short near ⊢
  obtain above | below := le_or_gt 0 scale
  · obtain ⟨k, rfl⟩ := Int.eq_ofNat_of_zero_le above
    rw [Int.natAbs_natCast] at near
    have scaled : k ≤ maxScale := near.trans (by decide)
    have one : power 10 (-k) = 1 := by simp [power]
    rw [ofDecimal, if_pos above, Int.natAbs_natCast, scaleUp, if_pos scaled,
      if_pos (mul_tenTo_inRange short near), mul_tenTo short near, one]
  · obtain ⟨k, rfl⟩ := Int.exists_eq_neg_ofNat below.le
    rw [Int.natAbs_neg, Int.natAbs_natCast] at near
    have times : (k - 1) / maxScale = 0 := Nat.div_eq_of_lt (by simp only [maxScale]; omega)
    have one : power 10 (-k) = 1 := by simp [power]
    rw [ofDecimal, if_neg below.not_ge, Int.natAbs_neg, Int.natAbs_natCast, times, scaleDown,
      div_tenTo short near, one, Nat.mul_one, neg_neg]

/-- The digits of the first decimal need 55 bits, so they are rounded before they are divided. The
double above its nearest one comes out, which is written with the digits of the other decimal. -/
example : ofDecimal false ⟨31245270191439438, -15⟩ = ofDecimal false ⟨3124527019143944, -14⟩ ∧
    ofDecimal false ⟨31245270191439438, -15⟩ ≠
      some (nearest false 31245270191439438 (power 10 15)) := by
  decide

end DocTree.Double
