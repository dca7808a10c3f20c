import LeaderLease.Timing.Preset
import Mathlib.Data.Real.Basic
import Mathlib.Tactic.Linarith

/-!
# Outages that a schedule survives

After a renewal, a holder tries the next one once in every retry period until its renew deadline. It keeps its lease
through an outage of the backend when some attempt is made while the backend is there. An outage that begins with the
first attempt does the most harm, so how long an outage may be at the most is the time from the first attempt to the
last.
-/

namespace LeaderLease

/-- The backend is away from an instant on for so many nanoseconds, and back at the end of them. -/
structure Outage where
  start : ℝ
  length : ℕ

def Outage.window (o : Outage) : Set ℝ := Set.Ico o.start (o.start + o.length)

theorem Duration.isZero_of_pos {d : Duration} (hpos : 0 < d.nanos) : d.isZero = false :=
  Bool.eq_false_iff.mpr fun hzero => absurd (congrArg nanos (isZero_iff.mp hzero)) (Nat.ne_of_gt hpos)

namespace Profile

/-- The nanoseconds after a renewal at which the next one is tried. -/
def attempts (p : Profile) : Set ℕ :=
  {t | ∃ k, 1 ≤ k ∧ t = k * p.retryPeriod.nanos ∧ t ≤ p.renewDeadline.nanos}

/-- An attempt is made outside the outage. -/
def Survives (p : Profile) (o : Outage) : Prop := ∃ t ∈ p.attempts, (t : ℝ) ∉ o.window

/-- At least one attempt is made before the deadline. -/
structure Renews (p : Profile) : Prop where
  pos : 0 < p.retryPeriod.nanos
  le : p.retryPeriod.nanos ≤ p.renewDeadline.nanos

/-- The attempts as they are, however many bits it takes to count them. -/
def exactAttempts (p : Profile) : Nat := p.renewDeadline.nanos / p.retryPeriod.nanos

variable {p : Profile}

theorem exactAttempts_mul_le (p : Profile) : p.exactAttempts * p.retryPeriod.nanos ≤ p.renewDeadline.nanos :=
  Nat.div_mul_le_self _ _

theorem Renews.one_le (h : p.Renews) : 1 ≤ p.exactAttempts := (Nat.one_le_div_iff h.pos).mpr h.le

theorem Renews.first_mem (h : p.Renews) : p.retryPeriod.nanos ∈ p.attempts :=
  ⟨1, Nat.le_refl 1, (Nat.one_mul _).symm, h.le⟩

theorem Renews.last_mem (h : p.Renews) : p.exactAttempts * p.retryPeriod.nanos ∈ p.attempts :=
  ⟨p.exactAttempts, h.one_le, rfl, p.exactAttempts_mul_le⟩

theorem Renews.mem_bounds (h : p.Renews) {t : ℕ} (ht : t ∈ p.attempts) :
    p.retryPeriod.nanos ≤ t ∧ t ≤ p.exactAttempts * p.retryPeriod.nanos := by
  obtain ⟨k, hk, rfl, hle⟩ := ht
  refine ⟨Nat.le_mul_of_pos_left _ hk, ?_⟩
  exact Nat.mul_le_mul_right _ ((Nat.le_div_iff_mul_le h.pos).mpr hle)

/-- Either the first attempt comes before the outage or the last comes after it. -/
theorem Renews.survives_iff (h : p.Renews) (o : Outage) :
    p.Survives o ↔
      (p.retryPeriod.nanos : ℝ) < o.start ∨ o.start + o.length ≤ (p.exactAttempts * p.retryPeriod.nanos : ℕ) := by
  constructor
  · rintro ⟨t, ht, hout⟩
    obtain ⟨hfirst, hlast⟩ := h.mem_bounds ht
    have hfirst' : (p.retryPeriod.nanos : ℝ) ≤ t := Nat.cast_le.mpr hfirst
    have hlast' : (t : ℝ) ≤ (p.exactAttempts * p.retryPeriod.nanos : ℕ) := Nat.cast_le.mpr hlast
    by_cases hbefore : (t : ℝ) < o.start
    · exact .inl (hfirst'.trans_lt hbefore)
    · have hafter : o.start + o.length ≤ t := not_lt.mp fun hlt => hout ⟨not_lt.mp hbefore, hlt⟩
      exact .inr (hafter.trans hlast')
  · rintro (hbefore | hafter)
    · exact ⟨_, h.first_mem, fun hin => absurd hbefore (not_lt.mpr hin.1)⟩
    · exact ⟨_, h.last_mem, fun hin => absurd hin.2 (not_lt.mpr hafter)⟩

/-- Outages of this length are survived whenever they begin. -/
def SurvivesAll (p : Profile) (length : ℕ) : Prop := ∀ start : ℝ, 0 ≤ start → p.Survives ⟨start, length⟩

theorem Renews.survivesAll_iff (h : p.Renews) (length : ℕ) :
    p.SurvivesAll length ↔ length + p.retryPeriod.nanos ≤ p.exactAttempts * p.retryPeriod.nanos := by
  constructor
  · intro hall
    have hworst := (h.survives_iff _).mp (hall p.retryPeriod.nanos (Nat.cast_nonneg _))
    dsimp only at hworst
    obtain hbefore | hafter := hworst
    · exact absurd hbefore (lt_irrefl _)
    · rw [Nat.add_comm]
      exact_mod_cast hafter
  · intro hlength start _
    rw [h.survives_iff]
    by_cases hbefore : (p.retryPeriod.nanos : ℝ) < start
    · exact .inl hbefore
    · have hlength' : (length + p.retryPeriod.nanos : ℝ) ≤ (p.exactAttempts * p.retryPeriod.nanos : ℕ) := by
        exact_mod_cast hlength
      right
      dsimp only
      linarith

theorem Renews.renewAttempts_eq (h : p.Renews) : p.renewAttempts = min p.exactAttempts attemptLimit := by
  unfold renewAttempts
  rw [Duration.isZero_of_pos h.pos]
  rfl

theorem renewAttempts_le (p : Profile) : p.renewAttempts ≤ p.exactAttempts := by
  unfold renewAttempts
  split
  · exact Nat.zero_le _
  · exact Nat.min_le_left _ _

theorem renewAttempts_mul_le (p : Profile) : p.renewAttempts * p.retryPeriod.nanos ≤ p.renewDeadline.nanos :=
  (Nat.mul_le_mul_right _ p.renewAttempts_le).trans p.exactAttempts_mul_le

theorem nanos_times_renewAttempts (p : Profile) :
    (p.retryPeriod.times p.renewAttempts).nanos = p.renewAttempts * p.retryPeriod.nanos := by
  rw [Duration.nanos_times]
  exact Nat.min_eq_left (p.renewAttempts_mul_le.trans (Nat.le_pred_of_lt p.renewDeadline.nanos_lt))

theorem nanos_downtimeTolerance (p : Profile) :
    p.downtimeTolerance.nanos = p.renewAttempts * p.retryPeriod.nanos - p.retryPeriod.nanos := by
  unfold downtimeTolerance
  rw [Duration.nanos_sub, nanos_times_renewAttempts]

theorem Renews.downtimeTolerance_add (h : p.Renews) :
    p.downtimeTolerance.nanos + p.retryPeriod.nanos = p.renewAttempts * p.retryPeriod.nanos := by
  have hsome : 1 ≤ p.renewAttempts := by
    rw [h.renewAttempts_eq]
    exact Nat.le_min.mpr ⟨h.one_le, by decide⟩
  rw [nanos_downtimeTolerance]
  exact Nat.sub_add_cancel (Nat.le_mul_of_pos_left _ hsome)

theorem renewAttempts_eq_zero (hnone : ¬ p.Renews) : p.renewAttempts = 0 := by
  unfold renewAttempts
  split
  next => rfl
  next hzero =>
    have hpos : 0 < p.retryPeriod.nanos := Nat.pos_of_ne_zero fun heq => hzero (by simp [Duration.isZero, heq])
    have hlt : p.renewDeadline.nanos < p.retryPeriod.nanos := Nat.lt_of_not_le fun hle => hnone ⟨hpos, hle⟩
    rw [Nat.div_eq_of_lt hlt, Nat.zero_min]

theorem downtimeTolerance_eq_zero (hnone : ¬ p.Renews) : p.downtimeTolerance = .zero := by
  apply Duration.ext
  rw [nanos_downtimeTolerance, renewAttempts_eq_zero hnone, Nat.zero_mul, Nat.zero_sub]
  rfl

/-- The tolerance is the longest outage if the attempts can be counted, and less otherwise. -/
theorem Renews.survivesAll_iff_le (h : p.Renews) (length : ℕ) (hcounted : p.exactAttempts ≤ attemptLimit) :
    p.SurvivesAll length ↔ length ≤ p.downtimeTolerance.nanos := by
  rw [h.survivesAll_iff, ← Nat.min_eq_left hcounted, ← h.renewAttempts_eq, ← h.downtimeTolerance_add]
  exact Nat.add_le_add_iff_right

theorem Renews.survivesAll_downtimeTolerance (h : p.Renews) : p.SurvivesAll p.downtimeTolerance.nanos := by
  rw [h.survivesAll_iff, h.downtimeTolerance_add]
  exact Nat.mul_le_mul_right _ p.renewAttempts_le

theorem Renews.survivesAll_longer (h : p.Renews) (huncounted : attemptLimit < p.exactAttempts) :
    p.SurvivesAll (p.downtimeTolerance.nanos + 1) := by
  have hcount : p.renewAttempts + 1 ≤ p.exactAttempts := by
    rw [h.renewAttempts_eq, Nat.min_eq_right (Nat.le_of_lt huncounted)]
    exact huncounted
  rw [h.survivesAll_iff]
  calc
    p.downtimeTolerance.nanos + 1 + p.retryPeriod.nanos = p.renewAttempts * p.retryPeriod.nanos + 1 := by
      rw [← h.downtimeTolerance_add, Nat.add_right_comm]
    _ ≤ p.renewAttempts * p.retryPeriod.nanos + p.retryPeriod.nanos := Nat.add_le_add_left h.pos _
    _ = (p.renewAttempts + 1) * p.retryPeriod.nanos := (Nat.succ_mul _ _).symm
    _ ≤ p.exactAttempts * p.retryPeriod.nanos := Nat.mul_le_mul_right _ hcount

end Profile

open Profile in
/-- **The longest outage.** With a retry period that is not zero and not beyond the renew deadline, an outage as long as
the downtime tolerance is survived whenever it begins. No longer outage is survived whenever it begins, just if there
are fewer attempts than `2 ^ 32`; with more, the tolerance is too small. Nothing saturates on the way to it. With any
other retry period the tolerance is zero. -/
theorem downtimeTolerance_is_longest_outage (p : Profile) :
    (.zero < p.retryPeriod → p.retryPeriod ≤ p.renewDeadline →
      let tolerance := p.downtimeTolerance.nanos
      let product := p.renewAttempts * p.retryPeriod.nanos
      (∀ start : ℝ, 0 ≤ start → p.Survives ⟨start, tolerance⟩) ∧
      ((∀ length : ℕ, tolerance < length → ∃ start : ℝ, 0 ≤ start ∧ ¬ p.Survives ⟨start, length⟩) ↔
        p.renewDeadline.nanos / p.retryPeriod.nanos < 4294967296) ∧
      (4294967296 ≤ p.renewDeadline.nanos / p.retryPeriod.nanos →
        ∃ length : ℕ, tolerance < length ∧ ∀ start : ℝ, 0 ≤ start → p.Survives ⟨start, length⟩) ∧
      (product ≤ p.renewDeadline.nanos ∧ (p.retryPeriod.times p.renewAttempts).nanos = product ∧
        tolerance + p.retryPeriod.nanos = product)) ∧
    (p.retryPeriod = .zero ∨ p.renewDeadline < p.retryPeriod → p.downtimeTolerance = .zero) := by
  refine ⟨?_, ?_⟩
  · intro hpos hle tolerance product
    have h : p.Renews := ⟨hpos, hle⟩
    have hmore : 4294967296 ≤ p.exactAttempts → p.SurvivesAll (tolerance + 1) := h.survivesAll_longer
    refine ⟨h.survivesAll_downtimeTolerance, ⟨?_, ?_⟩, ?_, p.renewAttempts_mul_le, p.nanos_times_renewAttempts,
      h.downtimeTolerance_add⟩
    · intro htight
      apply Nat.lt_of_not_le
      intro hmany
      obtain ⟨start, hstart, hlost⟩ := htight (tolerance + 1) (Nat.lt_succ_self tolerance)
      exact hlost (hmore hmany start hstart)
    · intro hfew length hlonger
      have hnot : ¬ p.SurvivesAll length := by
        rw [h.survivesAll_iff_le length (Nat.le_of_lt_succ hfew)]
        exact Nat.not_le_of_lt hlonger
      unfold SurvivesAll at hnot
      push Not at hnot
      exact hnot
    · exact fun hmany => ⟨tolerance + 1, Nat.lt_succ_self tolerance, hmore hmany⟩
  · rintro (hzero | hbeyond)
    · exact downtimeTolerance_eq_zero fun h => absurd h.pos (by rw [hzero]; decide)
    · exact downtimeTolerance_eq_zero fun h => absurd h.le (Nat.not_le_of_lt hbeyond)

/-- More attempts than can be counted: one every nanosecond for as long as there is. -/
def Profile.restless : Profile := ⟨.longest, .longest, ⟨1, by decide⟩⟩

theorem downtimeTolerance_is_longest_outage_standard_restless :
    let standard := Preset.standard.profile
    let restless := Profile.restless
    (.zero < standard.retryPeriod ∧ standard.retryPeriod ≤ standard.renewDeadline ∧
      standard.downtimeTolerance = .ofSeconds 78 ∧
      (∀ start : ℝ, 0 ≤ start → standard.Survives ⟨start, 78000000000⟩) ∧
      ∃ start : ℝ, 0 ≤ start ∧ ¬ standard.Survives ⟨start, 78000000001⟩) ∧
    .zero < restless.retryPeriod ∧ restless.retryPeriod ≤ restless.renewDeadline ∧
      4294967296 ≤ restless.renewDeadline.nanos / restless.retryPeriod.nanos ∧
      restless.downtimeTolerance.nanos = 4294967294 ∧
      ∃ length : ℕ, 4294967294 < length ∧ ∀ start : ℝ, 0 ≤ start → restless.Survives ⟨start, length⟩ := by
  intro standard restless
  refine ⟨?_, ?_⟩
  · have hpos : .zero < standard.retryPeriod := by decide
    have hle : standard.retryPeriod ≤ standard.renewDeadline := by decide
    obtain ⟨hsound, htight, -⟩ := (downtimeTolerance_is_longest_outage standard).1 hpos hle
    have hfew : standard.renewDeadline.nanos / standard.retryPeriod.nanos < 4294967296 := by decide
    have htolerance : standard.downtimeTolerance.nanos = 78000000000 := by decide +kernel
    rw [htolerance] at hsound htight
    exact ⟨hpos, hle, by decide, hsound, htight.mpr hfew 78000000001 (Nat.lt_succ_self _)⟩
  · have hpos : .zero < restless.retryPeriod := by decide
    have hle : restless.retryPeriod ≤ restless.renewDeadline := by decide
    have hmany : 4294967296 ≤ restless.renewDeadline.nanos / restless.retryPeriod.nanos := by decide
    have htolerance : restless.downtimeTolerance.nanos = 4294967294 := by decide +kernel
    obtain ⟨-, -, hunderestimate, -⟩ := (downtimeTolerance_is_longest_outage restless).1 hpos hle
    rw [htolerance] at hunderestimate
    exact ⟨hpos, hle, hmany, htolerance, hunderestimate hmany⟩

end LeaderLease
