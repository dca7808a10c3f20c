import LeaderLease.Proofs.Timing.Outage
import Mathlib.Order.Bounds.Basic

/-!
# No takeover before the holder has given up

Contenders take a lock over when the lease that is written for it has run out, in whole seconds. The lease is rounded
up, so in a consistent profile the holder has given up before that, and there is at least the tolerated clock skew in
between.
-/

namespace LeaderLease

namespace Profile

variable {p : Profile}

theorem clockSkewTolerance_pos_iff (p : Profile) :
    .zero < p.clockSkewTolerance ↔ p.renewDeadline < p.leaseDuration := Nat.sub_pos_iff_lt

theorem one_le_renewAttempts_iff (p : Profile) : 1 ≤ p.renewAttempts ↔ p.Renews := by
  constructor
  · intro hsome
    by_contra hnone
    rw [renewAttempts_eq_zero hnone] at hsome
    exact absurd hsome (Nat.not_succ_le_zero 0)
  · intro h
    rw [h.renewAttempts_eq]
    exact Nat.le_min.mpr ⟨h.one_le, by decide⟩

theorem isConsistent_iff (p : Profile) : p.isConsistent = true ↔ p.Renews ∧ p.renewDeadline < p.leaseDuration := by
  unfold isConsistent
  rw [Bool.and_eq_true, Bool.and_eq_true, decide_eq_true_iff, decide_eq_true_iff, Bool.not_eq_true']
  refine and_congr_left fun _ => ⟨?_, fun h => ⟨Duration.isZero_of_pos h.pos, h.le⟩⟩
  rintro ⟨hzero, hle⟩
  refine ⟨Nat.pos_of_ne_zero fun heq => ?_, hle⟩
  exact Bool.false_ne_true (hzero.symm.trans (Duration.isZero_iff.mpr (Duration.ext heq)))

/-- The lease can be written without cutting it off. -/
def WritesLease (p : Profile) : Prop := p.leaseDuration.nanos ≤ secondsLimit * Duration.nanosPerSecond

theorem leaseDuration_nanos (p : Profile) :
    p.leaseDuration.nanos =
      p.leaseDuration.wholeSeconds * Duration.nanosPerSecond + p.leaseDuration.subsecondNanos :=
  (Nat.div_add_mod' _ _).symm

theorem leaseDurationSeconds_of_whole (hwhole : p.leaseDuration.subsecondNanos = 0) :
    p.leaseDurationSeconds = max p.leaseDuration.wholeSeconds 1 := by
  unfold leaseDurationSeconds
  rw [hwhole]
  rfl

theorem leaseDurationSeconds_of_fraction (hfraction : 0 < p.leaseDuration.subsecondNanos) :
    p.leaseDurationSeconds = min (p.leaseDuration.wholeSeconds + 1) secondsLimit := by
  unfold leaseDurationSeconds
  dsimp only
  rw [if_pos hfraction]
  exact Nat.max_eq_left (Nat.le_min.mpr ⟨Nat.le_add_left 1 _, by decide⟩)

theorem WritesLease.leaseDurationSeconds_le_iff (h : p.WritesLease) {seconds : Nat} (hone : 1 ≤ seconds) :
    p.leaseDurationSeconds ≤ seconds ↔ p.leaseDuration.nanos ≤ seconds * Duration.nanosPerSecond := by
  have hpos : 0 < Duration.nanosPerSecond := by decide
  have hnanos := p.leaseDuration_nanos
  obtain hwhole | hfraction := Nat.eq_zero_or_pos p.leaseDuration.subsecondNanos
  · rw [leaseDurationSeconds_of_whole hwhole, Nat.max_le, and_iff_left hone, hnanos, hwhole, Nat.add_zero]
    exact (Nat.mul_le_mul_right_iff hpos).symm
  · have hlt : p.leaseDuration.subsecondNanos < Duration.nanosPerSecond := Nat.mod_lt _ hpos
    -- Some seconds are more than the whole ones just if they are enough for the fraction, too.
    have hmore : ∀ n, p.leaseDuration.wholeSeconds + 1 ≤ n ↔
        p.leaseDuration.nanos ≤ n * Duration.nanosPerSecond := by
      intro n
      rw [hnanos]
      unfold Duration.nanosPerSecond at hlt ⊢
      omega
    have hfits : p.leaseDuration.wholeSeconds + 1 ≤ secondsLimit := (hmore secondsLimit).mpr h
    rw [leaseDurationSeconds_of_fraction hfraction, Nat.min_eq_left hfits]
    exact hmore seconds

theorem one_le_leaseDurationSeconds (p : Profile) : 1 ≤ p.leaseDurationSeconds := Nat.le_max_right _ _

theorem WritesLease.isLeast (h : p.WritesLease) :
    IsLeast {seconds | 1 ≤ seconds ∧ p.leaseDuration.nanos ≤ seconds * Duration.nanosPerSecond}
      p.leaseDurationSeconds where
  left := ⟨p.one_le_leaseDurationSeconds,
    (h.leaseDurationSeconds_le_iff p.one_le_leaseDurationSeconds).mp (Nat.le_refl _)⟩
  right _ hseconds := (h.leaseDurationSeconds_le_iff hseconds.1).mpr hseconds.2

theorem leaseDurationSeconds_of_longer (hlonger : ¬ p.WritesLease) : p.leaseDurationSeconds = secondsLimit := by
  have hnanos := p.leaseDuration_nanos
  have hlimit := p.leaseDuration.nanos_lt
  have hlt : p.leaseDuration.subsecondNanos < Duration.nanosPerSecond := Nat.mod_lt _ (by decide)
  have hlonger' := Nat.lt_of_not_le hlonger
  unfold secondsLimit Duration.nanosPerSecond at hlonger'
  unfold Duration.limit at hlimit
  unfold Duration.nanosPerSecond at hnanos hlt
  have hwhole : secondsLimit ≤ p.leaseDuration.wholeSeconds + 1 := by
    unfold secondsLimit
    omega
  have hfraction : 0 < p.leaseDuration.subsecondNanos := by omega
  rw [leaseDurationSeconds_of_fraction hfraction, Nat.min_eq_right hwhole]

theorem Renews.downtimeTolerance_add_le (h : p.Renews) :
    p.downtimeTolerance.nanos + p.retryPeriod.nanos ≤ p.renewDeadline.nanos := by
  rw [h.downtimeTolerance_add]
  exact p.renewAttempts_mul_le

theorem clockSkewTolerance_add (hlt : p.renewDeadline < p.leaseDuration) :
    p.clockSkewTolerance.nanos + p.renewDeadline.nanos = p.leaseDuration.nanos :=
  Nat.sub_add_cancel (Nat.le_of_lt hlt)

theorem Renews.graceful_lt_nonGraceful (h : p.Renews) (hlt : p.renewDeadline < p.leaseDuration) :
    p.worstGracefulReacquisition < p.worstNonGracefulReacquisition := by
  have hbelow : p.retryPeriod.nanos < p.leaseDuration.nanos := Nat.lt_of_le_of_lt h.le hlt
  have hlongest : p.retryPeriod.nanos < Duration.limit - 1 :=
    Nat.lt_of_lt_of_le hbelow (Nat.le_pred_of_lt p.leaseDuration.nanos_lt)
  change p.retryPeriod.nanos < min (p.leaseDuration.nanos + p.retryPeriod.nanos) (Duration.limit - 1)
  exact Nat.lt_min.mpr ⟨Nat.lt_of_lt_of_le hbelow (Nat.le_add_right _ _), hlongest⟩

end Profile

open Profile in
/-- **No early takeover.** A profile is consistent just if it tolerates some skew of the clocks and leaves time for an
attempt to renew. The lease is written as the least number of seconds that covers it, and at least one, as far as the
number can be written. So in a consistent profile the written lease outlasts the holder's attempts to renew it, by the
tolerated skew at least. -/
theorem written_lease_outlasts_renewal (p : Profile) :
    (p.isConsistent = true ↔ .zero < p.clockSkewTolerance ∧ 1 ≤ p.renewAttempts) ∧
    (p.leaseDuration.nanos ≤ 18446744073709551615 * 1000000000 →
      IsLeast {seconds | 1 ≤ seconds ∧ p.leaseDuration.nanos ≤ seconds * 1000000000} p.leaseDurationSeconds) ∧
    (18446744073709551615 * 1000000000 < p.leaseDuration.nanos → p.leaseDurationSeconds = 18446744073709551615) ∧
    (p.isConsistent = true → p.leaseDuration.nanos ≤ 18446744073709551615 * 1000000000 →
      let margin : ℤ := p.leaseDurationSeconds * 1000000000 - p.renewDeadline.nanos
      p.clockSkewTolerance.nanos ≤ margin ∧ 0 < margin ∧
        p.downtimeTolerance.nanos + p.retryPeriod.nanos ≤ p.renewDeadline.nanos ∧
        p.clockSkewTolerance.nanos + p.renewDeadline.nanos = p.leaseDuration.nanos ∧
        p.worstGracefulReacquisition < p.worstNonGracefulReacquisition ∧
        p.worstNonGracefulReacquisition.nanos =
          min (p.leaseDuration.nanos + p.retryPeriod.nanos) Duration.longest.nanos) := by
  refine ⟨?_, WritesLease.isLeast, fun hlonger => leaseDurationSeconds_of_longer (Nat.not_le_of_lt hlonger), ?_⟩
  · rw [isConsistent_iff, clockSkewTolerance_pos_iff, one_le_renewAttempts_iff, and_comm]
  · intro hconsistent hwrites margin
    obtain ⟨h, hlt⟩ := p.isConsistent_iff.mp hconsistent
    have hcovers : p.leaseDuration.nanos ≤ p.leaseDurationSeconds * 1000000000 := (WritesLease.isLeast hwrites).1.2
    have hskew := clockSkewTolerance_add hlt
    have hskewPos : 0 < p.clockSkewTolerance.nanos := p.clockSkewTolerance_pos_iff.mpr hlt
    have hmargin : (p.clockSkewTolerance.nanos : ℤ) ≤ margin := by omega
    exact ⟨hmargin, by omega, h.downtimeTolerance_add_le, hskew, h.graceful_lt_nonGraceful hlt, rfl⟩

/-- A lease of a second and a half, which is written as two seconds. -/
def Profile.brief : Profile := ⟨⟨1500000000, by decide⟩, ⟨1200000000, by decide⟩, ⟨500000000, by decide⟩⟩

theorem written_lease_outlasts_renewal_brief_restless :
    let brief := Profile.brief
    let restless := Profile.restless
    (brief.isConsistent = true ∧ brief.leaseDuration.nanos ≤ 18446744073709551615 * 1000000000 ∧
      IsLeast {seconds | 1 ≤ seconds ∧ 1500000000 ≤ seconds * 1000000000} 2 ∧
      brief.clockSkewTolerance.nanos = 300000000 ∧ brief.downtimeTolerance.nanos + 500000000 ≤ 1200000000 ∧
      brief.worstNonGracefulReacquisition.nanos = 2000000000) ∧
    18446744073709551615 * 1000000000 < restless.leaseDuration.nanos ∧
      restless.leaseDurationSeconds = 18446744073709551615 := by
  intro brief restless
  have hconsistent : brief.isConsistent = true := by decide
  have hwrites : brief.leaseDuration.nanos ≤ 18446744073709551615 * 1000000000 := by decide
  have hlonger : 18446744073709551615 * 1000000000 < restless.leaseDuration.nanos := by decide
  obtain ⟨-, hleast, -, hmargin⟩ := written_lease_outlasts_renewal brief
  obtain ⟨-, -, hdowntime, -, -, hreacquired⟩ := hmargin hconsistent hwrites
  obtain ⟨-, -, hcut, -⟩ := written_lease_outlasts_renewal restless
  have hwritten : brief.leaseDurationSeconds = 2 := by decide
  have hlatest : min (brief.leaseDuration.nanos + brief.retryPeriod.nanos) Duration.longest.nanos = 2000000000 := by
    decide +kernel
  refine ⟨⟨hconsistent, hwrites, ?_, by decide, hdowntime, hreacquired.trans hlatest⟩, hlonger, hcut hlonger⟩
  rw [← hwritten]
  exact hleast hwrites

end LeaderLease
