import LeaderLease.Proofs.Duration.Seconds
import LeaderLease.Proofs.Json.Object
import LeaderLease.Proofs.Json.Real

/-!
# Durations come back as they were written

A duration below `2 ^ 20` seconds is rounded to a number of 53 bits, which is written in its shortest notation, read as
a number close by and rounded to nanoseconds. All steps before the last one are off by less than half a nanosecond
together, so the last one restores the duration.
-/

namespace LeaderLease.Duration

open Json

variable {d : Duration}

theorem seconds_isFraction (hd : d.nanos < 2 ^ 20 * nanosPerSecond) :
    ∃ q : ℚ, IsFraction (Number.writeReal false d.seconds) q ∧ |q - d.seconds.value| ≤ 1 / 2 ^ 34 := by
  by_cases hzero : d.nanos = 0
  · have hticks := seconds_of_nanos_eq_zero hzero
    refine ⟨0, writeReal_zero_isFraction hticks, ?_⟩
    rw [Binary64.value, hticks, Nat.cast_zero, zero_div, sub_zero, abs_zero]
    norm_num
  · have hle := seconds_le hd
    have hge := le_seconds hzero hd
    have hticks : 0 < d.seconds.ticks := Binary64.ticks_pos (lt_of_lt_of_le (by norm_num) hge)
    have hclose : |d.seconds.shortest.value - d.seconds.value| ≤ 2 ^ 20 / 2 ^ 54 :=
      (Binary64.shortest_spec hticks).1.error_of_lt (lt_of_le_of_lt hle (by norm_num))
    obtain ⟨hbelow, habove⟩ := abs_le.mp hclose
    refine ⟨d.seconds.shortest.value, Json.writeReal_isFraction hticks ?_ ?_, hclose.trans (by norm_num)⟩
    · norm_num at hge hbelow ⊢
      linarith
    · norm_num at hle habove ⊢
      linarith

theorem readUnsigned_writeReal (hd : d.nanos < 2 ^ 20 * nanosPerSecond) :
    ∃ y, ofSeconds? false y = .ok d ∧ ∀ rest, EndsNumber rest →
      Numeral.readUnsigned false (Utf8.encode (Number.writeReal false d.seconds) ++ rest) =
        .ok (.real false y, rest) := by
  obtain ⟨q, hfraction, hq⟩ := seconds_isFraction hd
  have hseconds := seconds_error hd
  have hlt : q < 2 ^ 20 := by
    have hle := seconds_le hd
    have habove := (abs_le.mp hq).2
    norm_num at hle habove ⊢
    linarith
  obtain ⟨y, hy, hread⟩ := hfraction.reads hlt
  refine ⟨y, ofSeconds?_eq ?_, hread false⟩
  -- In units of `2 ^ (-34)` seconds the reader is off by six, the notation and the seconds by one each. Half a
  -- nanosecond is more than eight of them.
  calc
    |y.value - d.nanos / nanosPerSecond| ≤ |y.value - q| + |q - d.nanos / nanosPerSecond| := abs_sub_le _ _ _
    _ ≤ |y.value - q| + (|q - d.seconds.value| + |d.seconds.value - d.nanos / nanosPerSecond|) :=
      add_le_add le_rfl (abs_sub_le _ _ _)
    _ ≤ 2 ^ 20 / 2 ^ 53 + 2 ^ 20 * (2 / (2 ^ 53 - 1)) + (1 / 2 ^ 34 + (1 / 2 ^ 34 + 1 / 2 ^ 54)) :=
      add_le_add hy (add_le_add hq hseconds)
    _ < 1 / (2 * nanosPerSecond) := by norm_num [nanosPerSecond]

/-- **Round trip.** A duration below `2 ^ 20` seconds is read from the number of seconds that was written for it. -/
theorem duration_reads (hd : d.nanos < 2 ^ 20 * nanosPerSecond) :
    Reader.duration.Reads (Number.writeReal false d.seconds) d := by
  obtain ⟨y, hy, hread⟩ := readUnsigned_writeReal hd
  have hnumber : (Reader.number .real).Reads (Number.writeReal false d.seconds) (.real false y) :=
    fun rest hrest => Reader.number_run_of_readUnsigned .real (hread rest hrest)
  refine hnumber.check ?_
  dsimp only
  rw [hy]
  rfl

theorem optional_duration_reads (hd : d.nanos < 2 ^ 20 * nanosPerSecond) :
    Reader.duration.optional.Reads (Number.writeReal false d.seconds) (some d) := by
  intro rest hrest
  obtain ⟨y, -, hread⟩ := readUnsigned_writeReal hd
  obtain ⟨b, bs, hbytes, hb⟩ := isDigit_of_readUnsigned (hread rest hrest)
  have hduration := duration_reads hd rest hrest
  rw [hbytes] at hduration ⊢
  exact Reader.optional_run_of_isDigit hb hduration

end LeaderLease.Duration
