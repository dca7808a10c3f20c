import LeaderLease.Duration.Seconds
import LeaderLease.Proofs.Number.Rounding

namespace LeaderLease.Duration

open Binary64

variable {d : Duration} {y : Binary64}

theorem nanosPerSecond_eq : (nanosPerSecond : ℚ) = 10 ^ 9 := by norm_num [nanosPerSecond]

theorem nanos_eq (d : Duration) :
    (d.nanos : ℚ) / nanosPerSecond = d.wholeSeconds + (d.subsecondNanos : ℚ) / nanosPerSecond := by
  have hsplit : d.nanos = d.wholeSeconds * nanosPerSecond + d.subsecondNanos := (Nat.div_add_mod' _ _).symm
  have hpos : (nanosPerSecond : ℚ) ≠ 0 := by norm_num [nanosPerSecond]
  rw [hsplit]
  push_cast
  field_simp

theorem subsecondNanos_le (d : Duration) : (d.subsecondNanos : ℚ) / nanosPerSecond ≤ 1 - 1 / 10 ^ 9 := by
  have hlt : d.subsecondNanos < nanosPerSecond := Nat.mod_lt _ (by decide)
  have hle : (d.subsecondNanos : ℚ) ≤ 10 ^ 9 - 1 := by
    have hnext : d.subsecondNanos + 1 ≤ 10 ^ 9 := hlt
    have hcast : (d.subsecondNanos : ℚ) + 1 ≤ 10 ^ 9 := by exact_mod_cast hnext
    linarith
  rw [nanosPerSecond_eq, div_le_iff₀ (by norm_num)]
  linarith

theorem fraction_error (d : Duration) :
    |((Binary64.ofNat d.subsecondNanos).div (Binary64.ofNat nanosPerSecond)).value -
      d.subsecondNanos / nanosPerSecond| ≤ 1 / 2 ^ 54 := by
  have hlt : d.subsecondNanos < nanosPerSecond := Nat.mod_lt _ (by decide)
  have hpart : (Binary64.ofNat d.subsecondNanos).value = d.subsecondNanos :=
    ofNat_exact (Nat.lt_trans hlt (by decide))
  have hunit : (Binary64.ofNat nanosPerSecond).value = nanosPerSecond := ofNat_exact (by decide)
  have hpos : 0 < (Binary64.ofNat nanosPerSecond).ticks := by
    have hvalue : (0 : ℚ) < (Binary64.ofNat nanosPerSecond).value := by
      rw [hunit]
      norm_num [nanosPerSecond]
    exact ticks_pos hvalue
  have hbelow : (Binary64.ofNat d.subsecondNanos).value / (Binary64.ofNat nanosPerSecond).value < 2 ^ 0 := by
    rw [hpart, hunit]
    have hle := d.subsecondNanos_le
    norm_num at hle ⊢
    linarith
  have herror := div_error_of_lt hpos hbelow
  rw [hpart, hunit, pow_zero] at herror
  exact herror

theorem seconds_error (hd : d.nanos < 2 ^ 20 * nanosPerSecond) :
    |d.seconds.value - d.nanos / nanosPerSecond| ≤ 1 / 2 ^ 34 + 1 / 2 ^ 54 := by
  have hwhole : d.wholeSeconds < 2 ^ 20 := Nat.div_lt_of_lt_mul (by rwa [Nat.mul_comm] at hd)
  have hexact : (Binary64.ofNat d.wholeSeconds).value = d.wholeSeconds :=
    ofNat_exact (Nat.lt_trans hwhole (by decide))
  have hfraction := d.fraction_error
  have hle := d.subsecondNanos_le
  have hbelow : (Binary64.ofNat d.wholeSeconds).value +
      ((Binary64.ofNat d.subsecondNanos).div (Binary64.ofNat nanosPerSecond)).value < 2 ^ 20 := by
    have hnext : (d.wholeSeconds : ℚ) + 1 ≤ 2 ^ 20 := by exact_mod_cast hwhole
    rw [hexact]
    have hupper := (abs_le.mp hfraction).2
    norm_num at hle hupper ⊢
    linarith
  have hsum := add_error hbelow
  rw [hexact] at hsum
  rw [nanos_eq]
  unfold seconds
  calc
    |_ - (d.wholeSeconds + (d.subsecondNanos : ℚ) / nanosPerSecond)| ≤ 2 ^ 20 / 2 ^ 54 + 1 / 2 ^ 54 := by
      rw [abs_le] at hsum hfraction ⊢
      constructor
      · linarith
      · linarith
    _ = 1 / 2 ^ 34 + 1 / 2 ^ 54 := by norm_num

theorem seconds_le (hd : d.nanos < 2 ^ 20 * nanosPerSecond) : d.seconds.value ≤ 2 ^ 20 - 1 / 2 ^ 31 := by
  have hupper := (abs_le.mp (seconds_error hd)).2
  have hle : (d.nanos : ℚ) / nanosPerSecond ≤ 2 ^ 20 - 1 / 10 ^ 9 := by
    have hnext : (d.nanos : ℚ) + 1 ≤ 2 ^ 20 * 10 ^ 9 := by exact_mod_cast hd
    rw [nanosPerSecond_eq, div_le_iff₀ (by norm_num)]
    linarith
  norm_num at hupper hle ⊢
  linarith

theorem le_seconds (hzero : d.nanos ≠ 0) (hd : d.nanos < 2 ^ 20 * nanosPerSecond) : 1 / 2 ^ 31 ≤ d.seconds.value := by
  have hlower := (abs_le.mp (seconds_error hd)).1
  have hle : 1 / 10 ^ 9 ≤ (d.nanos : ℚ) / nanosPerSecond := by
    have hone : (1 : ℚ) ≤ d.nanos := by exact_mod_cast Nat.one_le_iff_ne_zero.mpr hzero
    rw [nanosPerSecond_eq]
    gcongr
  norm_num at hlower hle ⊢
  linarith

theorem seconds_of_nanos_eq_zero (hzero : d.nanos = 0) : d.seconds.ticks = 0 := by
  have hd : d = zero := Duration.ext hzero
  rw [hd]
  decide +kernel

/-- Half a nanosecond decides. -/
theorem ofSeconds?_eq (hclose : |y.value - d.nanos / nanosPerSecond| < 1 / (2 * nanosPerSecond)) :
    ofSeconds? false y = .ok d := by
  have hpos : (0 : ℚ) < nanosPerSecond := by norm_num [nanosPerSecond]
  have hone := one_pos
  have hcount : y.countOf nanosPerSecond = d.nanos := by
    apply divNearestEven_eq (by exact_mod_cast hone)
    have hscaled : ((y.ticks * nanosPerSecond : ℕ) : ℚ) / one - d.nanos =
        (y.value - d.nanos / nanosPerSecond) * nanosPerSecond := by
      unfold value
      push_cast
      rw [sub_mul, div_mul_eq_mul_div, div_mul_cancel₀ _ hpos.ne']
    rw [hscaled, abs_mul, abs_of_pos hpos]
    calc
      |y.value - d.nanos / nanosPerSecond| * nanosPerSecond < 1 / (2 * nanosPerSecond) * nanosPerSecond := by gcongr
      _ = 1 / 2 := by field_simp
  have hnanos : ofNanos? (y.countOf nanosPerSecond) = some d := by
    rw [hcount]
    exact dif_pos d.nanos_lt
  unfold ofSeconds?
  rw [if_neg fun h => Bool.false_ne_true h.1, hnanos]

end LeaderLease.Duration
