import Mathlib.Algebra.Order.Field.Rat
import Mathlib.Data.Nat.Cast.Order.Field
import Mathlib.Tactic.FieldSimp
import Mathlib.Tactic.Linarith
import Mathlib.Tactic.NormNum
import Mathlib.Tactic.Positivity
import Mathlib.Tactic.Ring
import LeaderLease.Number.Binary64

/-!
# How far rounding goes

A quotient is rounded by at most a half, so a number of 53 bits is off by at most half a unit in its last place. In
terms of the values this is an absolute error below a power of two, and an error relative to the value itself unless
that is very small. The operations on numbers inherit both.
-/

namespace LeaderLease

theorem divNearestEven_bounds (num : Nat) {den : Nat} (hden : 0 < den) :
    2 * num ≤ 2 * (divNearestEven num den * den) + den ∧ 2 * (divNearestEven num den * den) ≤ 2 * num + den := by
  have hdiv : num / den * den + num % den = num := Nat.div_add_mod' num den
  have hmod : num % den < den := Nat.mod_lt num hden
  unfold divNearestEven
  dsimp only
  split
  next hdown => omega
  next hup =>
    have hnext : (num / den + 1) * den = num / den * den + den := Nat.succ_mul _ _
    omega

theorem divNearestEven_error (num : Nat) {den : Nat} (hden : 0 < den) :
    |(divNearestEven num den : ℚ) - num / den| ≤ 1 / 2 := by
  obtain ⟨hlow, hhigh⟩ := divNearestEven_bounds num hden
  have hlowCast : (2 : ℚ) * num ≤ 2 * (divNearestEven num den * den) + den := by exact_mod_cast hlow
  have hhighCast : (2 : ℚ) * (divNearestEven num den * den) ≤ 2 * num + den := by exact_mod_cast hhigh
  have hpos : (0 : ℚ) < den := by exact_mod_cast hden
  rw [abs_le]
  constructor
  · rw [neg_le_sub_iff_le_add, div_le_iff₀ hpos]
    linarith
  · rw [sub_le_iff_le_add, ← sub_le_iff_le_add', le_div_iff₀ hpos]
    linarith

theorem divNearestEven_eq {num den k : Nat} (hden : 0 < den) (hclose : |(num : ℚ) / den - k| < 1 / 2) :
    divNearestEven num den = k := by
  have herror := divNearestEven_error num hden
  have hdistance : |((divNearestEven num den : ℤ) - (k : ℤ) : ℤ)| < 1 := by
    have hcast : |((divNearestEven num den : ℤ) - (k : ℤ) : ℚ)| < 1 := by
      calc
        |((divNearestEven num den : ℤ) - (k : ℤ) : ℚ)| ≤
            |(divNearestEven num den : ℚ) - num / den| + |(num : ℚ) / den - k| := by
          push_cast
          exact abs_sub_le _ _ _
        _ < 1 := by linarith
    exact_mod_cast hcast
  have hzero := Int.abs_lt_one_iff.mp hdistance
  omega

namespace Binary64

def value (a : Binary64) : ℚ := a.ticks / one

theorem one_eq {k : Nat} (hk : k ≤ 1074) : ∃ m, one = 2 ^ m * 2 ^ k := by
  obtain ⟨m, hm⟩ : ∃ m, 1074 = m + k := ⟨1074 - k, by omega⟩
  refine ⟨m, ?_⟩
  unfold one
  rw [hm]
  exact Nat.pow_add 2 m k

theorem one_pos : (0 : ℚ) < one := by
  obtain ⟨m, hone⟩ := one_eq (Nat.zero_le 1074)
  rw [hone]
  positivity

theorem two_pow_le_one {k : Nat} (hk : k ≤ 1074) : (2 : ℚ) ^ k ≤ one := by
  obtain ⟨m, hone⟩ := one_eq hk
  rw [hone]
  exact_mod_cast Nat.le_mul_of_pos_left _ (Nat.two_pow_pos m)

theorem place_le {ticks e : Nat} (hticks : ticks < 2 ^ (53 + e)) : place ticks ≤ e := by
  by_cases hzero : ticks = 0
  · rw [hzero]
    exact Nat.zero_le e
  · have hlog : ticks.log2 < 53 + e := (Nat.log2_lt hzero).mpr hticks
    unfold place
    omega

theorem two_pow_place_le {ticks : Nat} (hticks : 2 ^ 52 ≤ ticks) : 2 ^ place ticks * 2 ^ 52 ≤ ticks := by
  have hzero : ticks ≠ 0 := Nat.ne_of_gt (Nat.lt_of_lt_of_le (Nat.two_pow_pos 52) hticks)
  have hlog : 52 ≤ ticks.log2 := (Nat.le_log2 hzero).mpr hticks
  have hexponent : place ticks + 52 = ticks.log2 := by
    unfold place
    omega
  rw [← Nat.pow_add, hexponent]
  exact Nat.log2_self_le hzero

theorem nearest_error {num den : Nat} (hden : 0 < den) :
    |((nearest num den).ticks : ℚ) - num / den| ≤ 2 ^ place (num / den) / 2 := by
  have hpos : 0 < den * 2 ^ place (num / den) := Nat.mul_pos hden (Nat.two_pow_pos _)
  have herror := divNearestEven_error num hpos
  have hunit : (0 : ℚ) < 2 ^ place (num / den) := by positivity
  have hticks : ((nearest num den).ticks : ℚ) =
      divNearestEven num (den * 2 ^ place (num / den)) * 2 ^ place (num / den) := by
    change ((divNearestEven num (den * Nat.pow 2 (place (num / den))) * Nat.pow 2 (place (num / den)) : ℕ) : ℚ) = _
    rw [Nat.pow_eq]
    push_cast
    rfl
  have hquotient : (num : ℚ) / den = num / ((den * 2 ^ place (num / den) : ℕ) : ℚ) * 2 ^ place (num / den) := by
    push_cast
    field_simp
  rw [hticks, hquotient, ← sub_mul, abs_mul, abs_of_pos hunit]
  calc
    |(divNearestEven num (den * 2 ^ place (num / den)) : ℚ) - num / ((den * 2 ^ place (num / den) : ℕ) : ℚ)| *
        2 ^ place (num / den) ≤ 1 / 2 * 2 ^ place (num / den) := by gcongr
    _ = 2 ^ place (num / den) / 2 := by ring

/-- Below a power of two the error is bounded by half a unit in the last place that the numbers there have. -/
theorem nearest_error_of_lt {num den e : Nat} (hden : 0 < den) (hlt : (num : ℚ) / den < 2 ^ (53 + e)) :
    |((nearest num den).ticks : ℚ) - num / den| ≤ 2 ^ e / 2 := by
  have hfloor : num / den < 2 ^ (53 + e) := by
    rw [Nat.div_lt_iff_lt_mul hden]
    rw [div_lt_iff₀ (by exact_mod_cast hden)] at hlt
    exact_mod_cast hlt
  calc
    |((nearest num den).ticks : ℚ) - num / den| ≤ 2 ^ place (num / den) / 2 := nearest_error hden
    _ ≤ 2 ^ e / 2 := by
      have hplace := place_le hfloor
      gcongr
      norm_num

theorem nearest_error_of_ge {num den : Nat} (hden : 0 < den) (hge : 2 ^ 52 ≤ (num : ℚ) / den) :
    |((nearest num den).ticks : ℚ) - num / den| ≤ num / den / 2 ^ 53 := by
  have hfloor : 2 ^ 52 ≤ num / den := by
    rw [Nat.le_div_iff_mul_le hden]
    rw [le_div_iff₀ (by exact_mod_cast hden)] at hge
    exact_mod_cast hge
  have hplace : (2 : ℚ) ^ place (num / den) * 2 ^ 52 ≤ num / den := by
    calc
      (2 : ℚ) ^ place (num / den) * 2 ^ 52 ≤ ((num / den : ℕ) : ℚ) := by exact_mod_cast two_pow_place_le hfloor
      _ ≤ num / den := Nat.cast_div_le ..
  calc
    |((nearest num den).ticks : ℚ) - num / den| ≤ 2 ^ place (num / den) / 2 := nearest_error hden
    _ = 2 ^ place (num / den) * 2 ^ 52 / 2 ^ 53 := by ring
    _ ≤ num / den / 2 ^ 53 := by gcongr

theorem nearest_exact {num den m e : Nat} (hden : 0 < den) (hm : m < 2 ^ 53) (hnum : num = m * 2 ^ e * den) :
    (nearest num den).ticks = m * 2 ^ e := by
  have hquotient : num / den = m * 2 ^ e := by
    rw [hnum]
    exact Nat.mul_div_cancel _ hden
  have hplace : place (num / den) ≤ e := by
    apply place_le
    rw [hquotient, Nat.pow_add]
    exact Nat.mul_lt_mul_of_pos_right hm (Nat.two_pow_pos e)
  have hsplit : 2 ^ e = 2 ^ (e - place (num / den)) * 2 ^ place (num / den) := by
    rw [← Nat.pow_add, Nat.sub_add_cancel hplace]
  have hpos : 0 < den * 2 ^ place (num / den) := Nat.mul_pos hden (Nat.two_pow_pos _)
  have hinteger : divNearestEven num (den * 2 ^ place (num / den)) = m * 2 ^ (e - place (num / den)) := by
    apply divNearestEven_eq hpos
    have hexact : (num : ℚ) =
        ((m * 2 ^ (e - place (num / den)) : ℕ) : ℚ) * ((den * 2 ^ place (num / den) : ℕ) : ℚ) := by
      have hproduct : num = m * 2 ^ (e - place (num / den)) * (den * 2 ^ place (num / den)) := by
        calc
          num = m * (2 ^ (e - place (num / den)) * 2 ^ place (num / den)) * den := by rw [← hsplit, ← hnum]
          _ = m * 2 ^ (e - place (num / den)) * (den * 2 ^ place (num / den)) := by ring
      exact_mod_cast hproduct
    rw [hexact, mul_div_cancel_right₀ _ (by exact_mod_cast hpos.ne'), sub_self, abs_zero]
    norm_num
  change divNearestEven num (den * 2 ^ place (num / den)) * 2 ^ place (num / den) = _
  rw [hinteger, Nat.mul_assoc, ← hsplit]

section Operations

variable {a b : Binary64} {n : Nat}

theorem exists_one_eq : ∃ m, (one : ℚ) = 2 ^ m * 2 ^ 53 := by
  obtain ⟨m, hm⟩ := one_eq (show 53 ≤ 1074 by decide)
  exact ⟨m, by exact_mod_cast hm⟩

theorem ticks_lt_of_lt {m : Nat} (hone : (one : ℚ) = 2 ^ m * 2 ^ 53) {ticks : ℚ} (hlt : ticks / one < 2 ^ n) :
    ticks < 2 ^ (53 + (n + m)) := by
  calc
    ticks < 2 ^ n * one := (div_lt_iff₀ one_pos).mp hlt
    _ = 2 ^ (53 + (n + m)) := by
      rw [hone]
      ring

theorem value_error_of_lt {num den : Nat} (hden : 0 < den) (hlt : (num : ℚ) / den / one < 2 ^ n) :
    |(nearest num den).value - num / den / one| ≤ 2 ^ n / 2 ^ 54 := by
  have hpos := one_pos
  obtain ⟨m, hone⟩ := exists_one_eq
  have herror := nearest_error_of_lt hden (ticks_lt_of_lt hone hlt)
  rw [value, ← sub_div, abs_div, abs_of_pos hpos, div_le_iff₀ hpos]
  calc
    |((nearest num den).ticks : ℚ) - num / den| ≤ 2 ^ (n + m) / 2 := herror
    _ = 2 ^ n / 2 ^ 54 * one := by
      rw [hone]
      ring

theorem value_error_of_ge {num den : Nat} (hden : 0 < den) (hge : 2 ^ 52 ≤ (num : ℚ) / den) :
    |(nearest num den).value - num / den / one| ≤ num / den / one / 2 ^ 53 := by
  have hone := one_pos
  have herror := nearest_error_of_ge hden hge
  rw [value, ← sub_div, abs_div, abs_of_pos hone, div_le_iff₀ hone]
  calc
    |((nearest num den).ticks : ℚ) - num / den| ≤ num / den / 2 ^ 53 := herror
    _ = num / den / one / 2 ^ 53 * one := by field_simp

theorem value_nonneg (a : Binary64) : 0 ≤ a.value := div_nonneg (Nat.cast_nonneg _) one_pos.le

theorem ticks_pos (ha : 0 < a.value) : 0 < a.ticks := by
  have hticks : (0 : ℚ) < a.ticks := (div_pos_iff_of_pos_right one_pos).mp ha
  exact_mod_cast hticks

theorem ofNat_exact (hn : n < 2 ^ 53) : (ofNat n).value = n := by
  obtain ⟨m, hone⟩ := one_eq (Nat.zero_le 1074)
  have hnum : n * one = n * 2 ^ m * 1 := by
    rw [hone]
    ring
  have hticks : (ofNat n).ticks = n * one := by
    calc
      (ofNat n).ticks = n * 2 ^ m := nearest_exact Nat.one_pos hn hnum
      _ = n * one := by rw [hnum, Nat.mul_one]
  rw [value, hticks]
  push_cast
  exact mul_div_cancel_right₀ _ one_pos.ne'

theorem ofNat_error (n : Nat) : |(ofNat n).value - n| ≤ n / 2 ^ 53 := by
  have hpos := one_pos
  have hquotient : ((n * one : ℕ) : ℚ) / (1 : ℕ) / one = n := by
    push_cast
    field_simp
  by_cases hzero : n = 0
  · rw [hzero, ofNat_exact (by norm_num)]
    norm_num
  · have hge : (2 : ℚ) ^ 52 ≤ ((n * one : ℕ) : ℚ) / (1 : ℕ) := by
      have hn : (1 : ℚ) ≤ n := by exact_mod_cast Nat.one_le_iff_ne_zero.mpr hzero
      have hone := two_pow_le_one (show 52 ≤ 1074 by decide)
      push_cast
      nlinarith
    have herror := value_error_of_ge Nat.one_pos hge
    rw [hquotient] at herror
    exact herror

theorem add_error (hlt : a.value + b.value < 2 ^ n) : |(a.add b).value - (a.value + b.value)| ≤ 2 ^ n / 2 ^ 54 := by
  have hquotient : ((a.ticks + b.ticks : ℕ) : ℚ) / (1 : ℕ) / one = a.value + b.value := by
    unfold value
    push_cast
    ring
  rw [← hquotient] at hlt ⊢
  exact value_error_of_lt Nat.one_pos hlt

theorem div_quotient (hb : 0 < b.ticks) : ((a.ticks * one : ℕ) : ℚ) / b.ticks / one = a.value / b.value := by
  have hone := one_pos
  have hpos : (0 : ℚ) < b.ticks := by exact_mod_cast hb
  unfold value
  push_cast
  field_simp

theorem div_error_of_lt (hb : 0 < b.ticks) (hlt : a.value / b.value < 2 ^ n) :
    |(a.div b).value - a.value / b.value| ≤ 2 ^ n / 2 ^ 54 := by
  rw [← div_quotient hb] at hlt ⊢
  exact value_error_of_lt hb hlt

end Operations

end Binary64

end LeaderLease
