import LeaderLease.Json.Numeral
import LeaderLease.Proofs.Number.Rounding

namespace LeaderLease.Json.Numeral

open Binary64

theorem quotient_error {m p x y : ℚ} (hm : 0 ≤ m) (hp : 0 < p) (hx : |x - m| ≤ m / 2 ^ 53) (hy : |y - p| ≤ p / 2 ^ 53) :
    |x / y - m / p| ≤ m / p * (2 / (2 ^ 53 - 1)) := by
  have hlow : p * (1 - 1 / 2 ^ 53) ≤ y := by
    have hbelow := (abs_le.mp hy).1
    linarith
  have hypos : 0 < y := lt_of_lt_of_le (mul_pos hp (by norm_num)) hlow
  have hcross : |x * p - y * m| ≤ m * p * (2 / 2 ^ 53) := by
    calc
      |x * p - y * m| = |(x - m) * p - (y - p) * m| := by
        congr 1
        ring
      _ ≤ |(x - m) * p| + |(y - p) * m| := abs_sub _ _
      _ = |x - m| * p + |y - p| * m := by rw [abs_mul, abs_mul, abs_of_pos hp, abs_of_nonneg hm]
      _ ≤ m / 2 ^ 53 * p + p / 2 ^ 53 * m :=
        add_le_add (mul_le_mul_of_nonneg_right hx hp.le) (mul_le_mul_of_nonneg_right hy hm)
      _ = m * p * (2 / 2 ^ 53) := by ring
  rw [div_sub_div _ _ hypos.ne' hp.ne', abs_div, abs_of_pos (mul_pos hypos hp), div_le_iff₀ (mul_pos hypos hp)]
  calc
    |x * p - y * m| ≤ m * p * (2 / 2 ^ 53) := hcross
    _ = m / p * (2 / (2 ^ 53 - 1)) * (p * (1 - 1 / 2 ^ 53) * p) := by
      field_simp
    _ ≤ m / p * (2 / (2 ^ 53 - 1)) * (y * p) := by
      apply mul_le_mul_of_nonneg_left (mul_le_mul_of_nonneg_right hlow hp.le)
      exact mul_nonneg (div_nonneg hm hp.le) (by norm_num)

theorem scaleDown_error {m j n : Nat} (hj : j ≤ powerLimit) (hlt : (m : ℚ) / 10 ^ j < 2 ^ n) :
    |(scaleDown (.ofNat m) j).value - m / 10 ^ j| ≤ 2 ^ n / 2 ^ 53 + 2 ^ n * (2 / (2 ^ 53 - 1)) := by
  have hpower : |(powerOfTen j).value - 10 ^ j| ≤ 10 ^ j / 2 ^ 53 := by
    have herror := ofNat_error (Nat.pow 10 j)
    rw [Nat.pow_eq] at herror
    push_cast at herror
    exact herror
  have hoperands := quotient_error (Nat.cast_nonneg m) (by positivity) (ofNat_error m) hpower
  have hquotient : |(Binary64.ofNat m).value / (powerOfTen j).value - m / 10 ^ j| ≤ 2 ^ n * (2 / (2 ^ 53 - 1)) := by
    apply le_trans hoperands
    exact mul_le_mul_of_nonneg_right hlt.le (by norm_num)
  have hticks : 0 < (powerOfTen j).ticks := by
    apply ticks_pos
    have hten : (0 : ℚ) < 10 ^ j := by positivity
    have hbelow := (abs_le.mp hpower).1
    linarith
  have hbelow : (Binary64.ofNat m).value / (powerOfTen j).value < 2 ^ (n + 1) := by
    have hhigh := (abs_le.mp hquotient).2
    have hpos : (0 : ℚ) < 2 ^ n := by positivity
    rw [pow_succ]
    norm_num at hhigh
    linarith
  have hdivision := div_error_of_lt hticks hbelow
  have hscale : scaleDown (.ofNat m) j = (Binary64.ofNat m).div (powerOfTen j) := by
    unfold scaleDown
    exact if_pos hj
  rw [hscale]
  calc
    |((Binary64.ofNat m).div (powerOfTen j)).value - m / 10 ^ j| ≤
        |((Binary64.ofNat m).div (powerOfTen j)).value - (Binary64.ofNat m).value / (powerOfTen j).value| +
          |(Binary64.ofNat m).value / (powerOfTen j).value - m / 10 ^ j| := abs_sub_le _ _ _
    _ ≤ 2 ^ (n + 1) / 2 ^ 54 + 2 ^ n * (2 / (2 ^ 53 - 1)) := add_le_add hdivision hquotient
    _ = 2 ^ n / 2 ^ 53 + 2 ^ n * (2 / (2 ^ 53 - 1)) := by ring

end LeaderLease.Json.Numeral
