import Mathlib.Algebra.Order.Field.Power
import LeaderLease.Number.Scientific
import LeaderLease.Proofs.Number.Rounding
import LeaderLease.Proofs.Text.Decimal

/-!
# The shortest notation reads back

Between the two midpoints around a number of 53 bits there is always a decimal number of seventeen digits. So the search
for a short notation finds one, and what it finds is within half a unit in the last place of the number.
-/

namespace LeaderLease

theorem ten_zpow (e : Int) : (10 : ℚ) ^ e = (Nat.pow 10 e.toNat : ℕ) / (Nat.pow 10 (-e).toNat : ℕ) := by
  obtain ⟨n, rfl | rfl⟩ := e.eq_nat_or_neg
  · simp
  · simp

namespace Scientific

def value (s : Scientific) : ℚ := s.significand * (10 : ℚ) ^ s.exponent

theorem denominator_pos (s : Scientific) : (0 : ℚ) < s.denominator := by
  unfold denominator
  rw [Nat.pow_eq]
  positivity

theorem value_eq (s : Scientific) : s.value = s.numerator / s.denominator := by
  unfold value numerator denominator
  rw [ten_zpow]
  push_cast
  ring

end Scientific

namespace Binary64

variable {a : Binary64} {s : Scientific}

theorem two_one_value (a : Binary64) : 2 * one * a.value = 2 * a.ticks := by
  have hpos := one_pos
  unfold value
  field_simp

theorem upperBound_eq (a : Binary64) : (a.upperBound : ℚ) = 2 * a.ticks + 2 ^ place a.ticks := by
  unfold upperBound
  rw [Nat.pow_eq]
  push_cast
  rfl

theorem le_lowerBound (a : Binary64) : (2 : ℚ) * a.ticks - 2 ^ place a.ticks ≤ a.lowerBound := by
  have hle : 2 * a.ticks ≤ a.lowerBound + 2 ^ place a.ticks := by
    have hhalf : 2 ^ (place a.ticks - 1) ≤ 2 ^ place a.ticks := Nat.pow_le_pow_right (by decide) (Nat.sub_le ..)
    unfold lowerBound
    simp only [Nat.pow_eq]
    split <;> omega
  have hcast : (2 : ℚ) * a.ticks ≤ a.lowerBound + 2 ^ place a.ticks := by exact_mod_cast hle
  linarith

theorem position_eq (s : Scientific) : ((s.numerator * (2 * one) : ℕ) : ℚ) = 2 * one * s.value * s.denominator := by
  have hpos := s.denominator_pos
  rw [s.value_eq]
  push_cast
  rw [mul_assoc (2 * (one : ℚ)), div_mul_cancel₀ _ hpos.ne', mul_comm]

theorem ReadsBackFrom.bounds (h : ReadsBackFrom s a) :
    (a.lowerBound : ℚ) ≤ 2 * one * s.value ∧ 2 * one * s.value ≤ a.upperBound := by
  have hpos := s.denominator_pos
  have hle : a.lowerBound * s.denominator ≤ s.numerator * (2 * one) ∧
      s.numerator * (2 * one) ≤ a.upperBound * s.denominator := by
    unfold ReadsBackFrom at h
    dsimp only at h
    split at h
    · exact h
    · exact ⟨h.1.le, h.2.le⟩
  have hlow : (a.lowerBound : ℚ) * s.denominator ≤ ((s.numerator * (2 * one) : ℕ) : ℚ) := by exact_mod_cast hle.1
  have hhigh : ((s.numerator * (2 * one) : ℕ) : ℚ) ≤ a.upperBound * s.denominator := by exact_mod_cast hle.2
  rw [position_eq] at hlow hhigh
  exact ⟨le_of_mul_le_mul_right hlow hpos, le_of_mul_le_mul_right hhigh hpos⟩

theorem readsBackFrom_of_between (hlow : (a.lowerBound : ℚ) < 2 * one * s.value)
    (hhigh : 2 * one * s.value < a.upperBound) : ReadsBackFrom s a := by
  have hpos := s.denominator_pos
  have hlowCast : (a.lowerBound : ℚ) * s.denominator < ((s.numerator * (2 * one) : ℕ) : ℚ) := by
    rw [position_eq]
    exact mul_lt_mul_of_pos_right hlow hpos
  have hhighCast : ((s.numerator * (2 * one) : ℕ) : ℚ) < a.upperBound * s.denominator := by
    rw [position_eq]
    exact mul_lt_mul_of_pos_right hhigh hpos
  have hlowNat : a.lowerBound * s.denominator < s.numerator * (2 * one) := by exact_mod_cast hlowCast
  have hhighNat : s.numerator * (2 * one) < a.upperBound * s.denominator := by exact_mod_cast hhighCast
  unfold ReadsBackFrom
  dsimp only
  split
  · exact ⟨hlowNat.le, hhighNat.le⟩
  · exact ⟨hlowNat, hhighNat⟩

theorem ReadsBackFrom.close (h : ReadsBackFrom s a) : |s.value - a.value| * (2 * one) ≤ 2 ^ place a.ticks := by
  have hone := one_pos
  have hpos : (0 : ℚ) < 2 * one := by linarith
  obtain ⟨hlow, hhigh⟩ := h.bounds
  have hlower := a.le_lowerBound
  rw [upperBound_eq] at hhigh
  have hscaled : |s.value - a.value| * (2 * one) = |2 * one * s.value - 2 * a.ticks| := by
    rw [← two_one_value, ← mul_sub, abs_mul, abs_of_pos hpos, mul_comm]
  rw [hscaled, abs_le]
  constructor
  · linarith
  · linarith

theorem ReadsBackFrom.error_of_lt {n : Nat} (h : ReadsBackFrom s a) (hlt : a.value < 2 ^ n) :
    |s.value - a.value| ≤ 2 ^ n / 2 ^ 54 := by
  have hpos := one_pos
  obtain ⟨m, hone⟩ := exists_one_eq
  have hticks : a.ticks < 2 ^ (53 + (n + m)) := by exact_mod_cast ticks_lt_of_lt hone hlt
  have hplace : (2 : ℚ) ^ place a.ticks ≤ 2 ^ (n + m) := pow_le_pow_right₀ (by norm_num) (place_le hticks)
  have hclose := h.close.trans hplace
  rw [← le_div_iff₀ (by linarith), hone] at hclose
  calc
    |s.value - a.value| ≤ 2 ^ (n + m) / (2 * (2 ^ m * 2 ^ 53)) := hclose
    _ = 2 ^ n / 2 ^ 54 := by
      rw [pow_add]
      field_simp

theorem leading_bounds {k length : Nat} (ha : 0 < a.ticks) (hk : one ≤ Nat.pow 10 k)
    (hlength : (Decimal.digits (a.ticks * Nat.pow 10 k / one)).length = length) :
    (10 : ℚ) ^ ((length : Int) - (k + 1)) ≤ a.value ∧ a.value < (10 : ℚ) ^ ((length : Int) - k) := by
  rw [Nat.pow_eq] at hk hlength
  have hone := one_pos
  have honeNat : 0 < one := by exact_mod_cast hone
  have hscaled : a.ticks * 10 ^ k / one ≠ 0 := by
    have hle : one ≤ a.ticks * 10 ^ k := Nat.le_trans hk (Nat.le_mul_of_pos_left _ ha)
    exact Nat.ne_of_gt (Nat.div_pos hle honeNat)
  have hpos : 1 ≤ length := by
    rw [← hlength]
    exact List.length_pos_iff.mpr (Decimal.digits_ne_nil _)
  obtain ⟨hlow, hhigh⟩ := Decimal.length_digits_bounds hscaled
  rw [hlength] at hlow hhigh
  have hvalue : ((a.ticks * 10 ^ k : ℕ) : ℚ) / one = a.value * 10 ^ k := by
    unfold value
    push_cast
    ring
  have htail : (0 : ℚ) < 10 ^ k := by positivity
  constructor
  · have hfloor : (10 : ℚ) ^ (length - 1) ≤ a.value * 10 ^ k := by
      calc
        (10 : ℚ) ^ (length - 1) ≤ ((a.ticks * 10 ^ k / one : ℕ) : ℚ) := by exact_mod_cast hlow
        _ ≤ ((a.ticks * 10 ^ k : ℕ) : ℚ) / one := Nat.cast_div_le ..
        _ = a.value * 10 ^ k := hvalue
    have hpower : (10 : ℚ) ^ ((length : Int) - (k + 1)) = 10 ^ (length - 1) / 10 ^ k := by
      have hexponent : (length : Int) - (k + 1) = ((length - 1 : ℕ) : Int) - k := by omega
      rw [hexponent, zpow_sub₀ (by norm_num), zpow_natCast, zpow_natCast]
    rw [hpower, div_le_iff₀ htail]
    exact hfloor
  · have hceil : a.value * 10 ^ k < (10 : ℚ) ^ length := by
      have hnext : a.ticks * 10 ^ k < 10 ^ length * one := by
        calc
          a.ticks * 10 ^ k < one * (a.ticks * 10 ^ k / one + 1) := Nat.lt_mul_div_succ _ honeNat
          _ ≤ one * 10 ^ length := Nat.mul_le_mul_left _ hhigh
          _ = 10 ^ length * one := Nat.mul_comm ..
      rw [← hvalue, div_lt_iff₀ hone]
      exact_mod_cast hnext
    have hpower : (10 : ℚ) ^ ((length : Int) - k) = 10 ^ length / 10 ^ k := by
      rw [← zpow_natCast, ← zpow_natCast, ← zpow_sub₀ (by norm_num)]
    rw [hpower, lt_div_iff₀ htail]
    exact hceil

theorem leadingPower_bounds (ha : 0 < a.ticks) :
    (10 : ℚ) ^ a.leadingPower ≤ a.value ∧ a.value < (10 : ℚ) ^ (a.leadingPower + 1) := by
  have hone : one ≤ Nat.pow 10 324 := by decide +kernel
  obtain ⟨hlow, hhigh⟩ := leading_bounds ha hone rfl
  have hnext : a.leadingPower + 1 = ((Decimal.digits (a.ticks * Nat.pow 10 324 / one)).length : Int) - (324 : ℕ) := by
    unfold leadingPower
    omega
  rw [hnext]
  exact ⟨hlow, hhigh⟩

theorem floorAt_bounds (e : Int) (a : Binary64) :
    (a.floorAt e).value ≤ a.value ∧ a.value < (a.floorAt e).value + (10 : ℚ) ^ e := by
  have hone := one_pos
  have hunit : (0 : ℚ) < (10 : ℚ) ^ e := by positivity
  have hden : 0 < one * Nat.pow 10 e.toNat := Nat.mul_pos (by exact_mod_cast hone) (Nat.pow_pos (by decide))
  have hquotient : ((a.ticks * Nat.pow 10 (-e).toNat : ℕ) : ℚ) / ((one * Nat.pow 10 e.toNat : ℕ) : ℚ) * 10 ^ e =
      a.value := by
    have hup : (0 : ℚ) < (Nat.pow 10 e.toNat : ℕ) := by exact_mod_cast Nat.pow_pos (by decide)
    have hdown : (0 : ℚ) < (Nat.pow 10 (-e).toNat : ℕ) := by exact_mod_cast Nat.pow_pos (by decide)
    rw [ten_zpow, value, Nat.cast_mul, Nat.cast_mul]
    field_simp
  constructor
  · calc
      (a.floorAt e).value ≤ ((a.ticks * Nat.pow 10 (-e).toNat : ℕ) : ℚ) /
          ((one * Nat.pow 10 e.toNat : ℕ) : ℚ) * 10 ^ e := mul_le_mul_of_nonneg_right (Nat.cast_div_le ..) hunit.le
      _ = a.value := hquotient
  · have hceil := Nat.lt_mul_div_succ (a.ticks * Nat.pow 10 (-e).toNat) hden
    have hquotientLt : ((a.ticks * Nat.pow 10 (-e).toNat : ℕ) : ℚ) / ((one * Nat.pow 10 e.toNat : ℕ) : ℚ) <
        (a.floorAt e).significand + 1 := by
      have hfloor : (a.floorAt e).significand =
        a.ticks * Nat.pow 10 (-e).toNat / (one * Nat.pow 10 e.toNat) := rfl
      rw [← hfloor] at hceil
      rw [div_lt_iff₀ (by exact_mod_cast hden), mul_comm ((a.floorAt e).significand + 1 : ℚ)]
      exact_mod_cast hceil
    calc
      a.value = _ := hquotient.symm
      _ < ((a.floorAt e).significand + 1) * 10 ^ e := mul_lt_mul_of_pos_right hquotientLt hunit
      _ = (a.floorAt e).value + 10 ^ e := by
        rw [Scientific.value, add_mul, one_mul]
        rfl

/-! ### Seventeen digits -/

theorem ticks_lt (a : Binary64) : a.ticks < 2 ^ (53 + place a.ticks) := by
  calc
    a.ticks < 2 ^ (a.ticks.log2 + 1) := Nat.lt_log2_self
    _ ≤ 2 ^ (53 + place a.ticks) := by
      apply Nat.pow_le_pow_right (by decide)
      unfold place
      omega

theorem two_pow_place_le_ticks (ha : 0 < a.ticks) : 2 ^ place a.ticks ≤ a.ticks := by
  calc
    2 ^ place a.ticks ≤ 2 ^ a.ticks.log2 := Nat.pow_le_pow_right (by decide) (Nat.sub_le ..)
    _ ≤ a.ticks := Nat.log2_self_le ha.ne'

theorem ReadsBackFrom.significand_ne_zero (h : ReadsBackFrom s a) (ha : 0 < a.ticks) : s.significand ≠ 0 := by
  intro hzero
  have hone := one_pos
  have hvalue : s.value = 0 := by
    rw [Scientific.value, hzero, Nat.cast_zero, zero_mul]
  have hclose := h.close
  have hplace : (2 : ℚ) ^ place a.ticks ≤ a.ticks := by exact_mod_cast two_pow_place_le_ticks ha
  have hticks : (0 : ℚ) < a.ticks := by exact_mod_cast ha
  rw [hvalue, zero_sub, abs_neg, abs_of_nonneg a.value_nonneg, mul_comm, two_one_value] at hclose
  linarith

theorem between (ha : 0 < a.ticks) :
    (a.lowerBound : ℚ) < 2 * one * a.value ∧ 2 * one * a.value < (a.upperBound : ℚ) := by
  have hunit : (0 : ℚ) < 2 ^ place a.ticks := by positivity
  have hlow : a.lowerBound < 2 * a.ticks := by
    have hplace := Nat.two_pow_pos (place a.ticks)
    have hhalf := Nat.two_pow_pos (place a.ticks - 1)
    unfold lowerBound
    simp only [Nat.pow_eq]
    split <;> omega
  rw [two_one_value, upperBound_eq]
  exact ⟨by exact_mod_cast hlow, by linarith⟩

/-- The gap between the midpoints is wider than a unit in the seventeenth digit. -/
theorem unit_lt_gap (ha : 0 < a.ticks) :
    2 * one * (10 : ℚ) ^ (a.leadingPower - 16) < a.upperBound - a.lowerBound := by
  have hone := one_pos
  have hunit : (0 : ℚ) < 2 ^ place a.ticks := by positivity
  have hleading := (leadingPower_bounds ha).1
  have hsmall : 2 * one * (10 : ℚ) ^ (a.leadingPower - 16) ≤ 2 * a.ticks / 10 ^ 16 := by
    calc
      2 * one * (10 : ℚ) ^ (a.leadingPower - 16) = 2 * one * 10 ^ a.leadingPower / 10 ^ 16 := by
        rw [zpow_sub₀ (by norm_num), ← mul_div_assoc, zpow_ofNat]
      _ ≤ 2 * one * a.value / 10 ^ 16 := by
        apply div_le_div_of_nonneg_right _ (by norm_num)
        exact mul_le_mul_of_nonneg_left hleading (by linarith)
      _ = 2 * a.ticks / 10 ^ 16 := by rw [two_one_value]
  rw [upperBound_eq]
  by_cases hpower : place a.ticks > 0 ∧ a.ticks = Nat.pow 2 (place a.ticks + 52)
  · -- Below a power of two the gap is narrower, but the number is as small as it can be for its last place.
    obtain ⟨hplace, hticks⟩ := hpower
    have hlower : a.lowerBound = 2 * a.ticks - 2 ^ (place a.ticks - 1) := if_pos ⟨hplace, hticks⟩
    have hhalf : 2 ^ place a.ticks = 2 * 2 ^ (place a.ticks - 1) := by
      rw [← Nat.pow_succ', Nat.succ_eq_add_one, Nat.sub_add_cancel hplace]
    have hfull := two_pow_place_le_ticks ha
    have hsum : 2 * a.lowerBound + 2 ^ place a.ticks = 4 * a.ticks := by omega
    have hsumCast : (2 : ℚ) * a.lowerBound + 2 ^ place a.ticks = 4 * a.ticks := by exact_mod_cast hsum
    have hticksCast : (a.ticks : ℚ) = 2 ^ 52 * 2 ^ place a.ticks := by
      have hproduct : a.ticks = 2 ^ 52 * 2 ^ place a.ticks := by
        rw [← Nat.pow_add, Nat.add_comm]
        exact hticks
      exact_mod_cast hproduct
    have hratio : 2 * (a.ticks : ℚ) / 10 ^ 16 < 2 ^ place a.ticks := by
      rw [hticksCast, div_lt_iff₀ (by norm_num)]
      norm_num
      linarith
    linarith
  · have hlower : a.lowerBound = 2 * a.ticks - 2 ^ place a.ticks := if_neg hpower
    have hfull := two_pow_place_le_ticks ha
    have hsum : a.lowerBound + 2 ^ place a.ticks = 2 * a.ticks := by omega
    have hsumCast : (a.lowerBound : ℚ) + 2 ^ place a.ticks = 2 * a.ticks := by exact_mod_cast hsum
    have hticksCast : (a.ticks : ℚ) < 2 ^ 53 * 2 ^ place a.ticks := by
      have hproduct : a.ticks < 2 ^ 53 * 2 ^ place a.ticks := by
        rw [← Nat.pow_add]
        exact a.ticks_lt
      exact_mod_cast hproduct
    have hratio : 2 * (a.ticks : ℚ) / 10 ^ 16 < 2 * 2 ^ place a.ticks := by
      rw [div_lt_iff₀ (by norm_num)]
      norm_num at hticksCast ⊢
      linarith
    linarith

/-! ### The search -/

theorem onGrid?_spec {e : Int} (h : a.onGrid? e = some s) :
    ReadsBackFrom s a ∧ s.exponent = e ∧ s.significand ≤ (a.floorAt e).significand + 1 := by
  unfold onGrid? at h
  dsimp only at h
  split at h
  next hlower =>
    split at h
    next hupper =>
      obtain rfl := Option.some.inj h
      exact ⟨hupper.1, rfl, Nat.le_refl _⟩
    next =>
      obtain rfl := Option.some.inj h
      exact ⟨hlower, rfl, Nat.le_succ _⟩
  next =>
    split at h
    next hupper =>
      obtain rfl := Option.some.inj h
      exact ⟨hupper, rfl, Nat.le_refl _⟩
    next => cases h

/-- On a grid that is finer than the gap between the midpoints, one of the two neighbours reads back. -/
theorem onGrid?_isSome {e : Int} (ha : 0 < a.ticks)
    (hgap : 2 * one * (10 : ℚ) ^ e < a.upperBound - a.lowerBound) : (a.onGrid? e).isSome = true := by
  have hone := one_pos
  obtain ⟨hlow, hhigh⟩ := between ha
  obtain ⟨hfloor, hceil⟩ := a.floorAt_bounds e
  have hfloorScaled : 2 * one * (a.floorAt e).value ≤ 2 * one * a.value :=
    mul_le_mul_of_nonneg_left hfloor (by linarith)
  have hceilScaled : 2 * one * a.value < 2 * one * (a.floorAt e).value + 2 * one * (10 : ℚ) ^ e := by
    rw [← mul_add]
    exact mul_lt_mul_of_pos_left hceil (by linarith)
  have hneighbour : Scientific.value { a.floorAt e with significand := (a.floorAt e).significand + 1 } =
      (a.floorAt e).value + (10 : ℚ) ^ e := by
    unfold Scientific.value
    push_cast
    exact add_one_mul ..
  have hsome : ReadsBackFrom (a.floorAt e) a ∨
      ReadsBackFrom { a.floorAt e with significand := (a.floorAt e).significand + 1 } a := by
    by_cases hreads : (a.lowerBound : ℚ) < 2 * one * (a.floorAt e).value
    · exact .inl (readsBackFrom_of_between hreads (by linarith))
    · right
      apply readsBackFrom_of_between
      · rw [hneighbour, mul_add]
        linarith
      · rw [hneighbour, mul_add]
        linarith
  unfold onGrid?
  dsimp only
  split
  next => split <;> rfl
  next hnot => rw [if_pos (hsome.resolve_left hnot), Option.isSome_some]

theorem significand_le {n : Nat} (ha : 0 < a.ticks) :
    (a.floorAt (a.leadingPower - n)).significand + 1 ≤ 10 ^ (n + 1) := by
  have hunit : (0 : ℚ) < (10 : ℚ) ^ (a.leadingPower - n) := by positivity
  have hfloor := (a.floorAt_bounds (a.leadingPower - n)).1
  have hleading := (leadingPower_bounds ha).2
  have hpower : (10 : ℚ) ^ (a.leadingPower + 1) = 10 ^ (n + 1) * 10 ^ (a.leadingPower - n) := by
    rw [← zpow_natCast, ← zpow_add₀ (by norm_num)]
    congr 1
    push_cast
    ring
  have hlt : ((a.floorAt (a.leadingPower - n)).significand : ℚ) < 10 ^ (n + 1) := by
    rw [hpower] at hleading
    exact lt_of_mul_lt_mul_right (lt_of_le_of_lt hfloor hleading) hunit.le
  exact_mod_cast hlt

/-- **Seventeen digits.** The shortest notation of a number reads back, and takes no more than seventeen digits or is
the next power of ten. -/
theorem shortest_spec (ha : 0 < a.ticks) : ReadsBackFrom a.shortest a ∧ a.shortest.significand ≤ 10 ^ 17 := by
  have hlast : (a.onGrid? (a.leadingPower - (16 : Nat))).isSome = true := onGrid?_isSome ha (unit_lt_gap ha)
  have hfound : ((List.range 17).findSome? fun (n : Nat) => a.onGrid? (a.leadingPower - n)).isSome = true :=
    List.findSome?_isSome_iff.mpr ⟨16, by decide, hlast⟩
  obtain ⟨s, hs⟩ := Option.isSome_iff_exists.mp hfound
  have hshortest : a.shortest = s := by
    unfold shortest
    dsimp only
    rw [hs, Option.getD_some]
  obtain ⟨n, hn, hgrid⟩ := List.exists_of_findSome?_eq_some hs
  obtain ⟨hreads, -, hsignificand⟩ := onGrid?_spec hgrid
  rw [hshortest]
  refine ⟨hreads, ?_⟩
  calc
    s.significand ≤ 10 ^ (n + 1) := Nat.le_trans hsignificand (significand_le ha)
    _ ≤ 10 ^ 17 := Nat.pow_le_pow_right (by decide) (List.mem_range.mp hn)

end Binary64

end LeaderLease
