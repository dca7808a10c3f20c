import LeaderLease.Proofs.Duration.Seconds
import LeaderLease.Proofs.Json.Members
import LeaderLease.Proofs.Json.Scale

/-!
# Numbers that are durations

A number of seconds is a duration if it is below `2 ^ 64` and not below zero: the greatest such number of 53 bits is so
far below that no rounding to nanoseconds leads out of the durations. A numeral in plain notation, below `2 ^ 20` and
with at most nine digits after the point, is read as a number so close that rounding leads to just what it says.
-/

namespace LeaderLease

namespace Binary64

theorem ticks_add_one_le {y : Binary64} (hy : y.ticks < 2 ^ 64 * one) : y.ticks + one ≤ 2 ^ 64 * one := by
  obtain ⟨m, place, hm, hticks⟩ := y.significant
  obtain ⟨k, hone⟩ := one_eq (Nat.zero_le 1074)
  rw [pow_zero, Nat.mul_one] at hone
  rw [Nat.pow_eq] at hm hticks
  -- Either the last bit is worth a whole number, or all 53 bits together are worth less than `2 ^ 53`.
  by_cases hplace : k ≤ place
  · obtain ⟨e, rfl⟩ := Nat.exists_eq_add_of_le hplace
    have hmultiple : y.ticks = m * 2 ^ e * one := by
      rw [hticks, hone, Nat.mul_assoc, Nat.pow_add, Nat.mul_comm (2 ^ e)]
    rw [hmultiple] at hy ⊢
    have hlt : m * 2 ^ e < 2 ^ 64 := Nat.lt_of_mul_lt_mul_right hy
    calc
      m * 2 ^ e * one + one = (m * 2 ^ e + 1) * one := (Nat.succ_mul _ _).symm
      _ ≤ 2 ^ 64 * one := Nat.mul_le_mul_right one hlt
  · have hle : 2 ^ place ≤ one := by
      rw [hone]
      exact Nat.pow_le_pow_right (by decide) (by omega)
    calc
      y.ticks + one = m * 2 ^ place + one := by rw [hticks]
      _ ≤ m * one + one := Nat.add_le_add_right (Nat.mul_le_mul_left m hle) one
      _ = (m + 1) * one := (Nat.succ_mul _ _).symm
      _ ≤ 2 ^ 64 * one := Nat.mul_le_mul_right one (Nat.le_trans hm (by decide))

theorem value_lt_iff {y : Binary64} {n : Nat} : y.value < n ↔ y.ticks < n * one := by
  rw [value, div_lt_iff₀ one_pos]
  exact_mod_cast Iff.rfl

theorem value_eq_zero_iff {y : Binary64} : y.value = 0 ↔ y.ticks = 0 := by
  rw [value, div_eq_zero_iff, Nat.cast_eq_zero]
  exact or_iff_left one_pos.ne'

theorem nearest_zero (den : Nat) : (nearest 0 den).ticks = 0 := by
  have hround (den : Nat) : divNearestEven 0 den = 0 := by
    unfold divNearestEven
    rw [Nat.zero_div, Nat.zero_mod]
    exact if_pos (by omega)
  change divNearestEven 0 _ * _ = 0
  rw [hround, Nat.zero_mul]

end Binary64

namespace Duration

open Binary64

theorem countOf_lt_limit_iff {y : Binary64} : y.countOf nanosPerSecond < limit ↔ y.value < 2 ^ 64 := by
  have hpos : 0 < one := by exact_mod_cast one_pos
  have hlimit : limit = 2 ^ 64 * nanosPerSecond := by decide
  have hvalue : y.value < 2 ^ 64 ↔ y.ticks < 2 ^ 64 * one := by exact_mod_cast y.value_lt_iff (n := 2 ^ 64)
  rw [hvalue, hlimit]
  constructor
  · intro hcount
    by_contra hge
    have hquotient : 2 ^ 64 * nanosPerSecond ≤ y.ticks * nanosPerSecond / one := by
      rw [Nat.le_div_iff_mul_le hpos, Nat.mul_right_comm]
      exact Nat.mul_le_mul_right nanosPerSecond (Nat.not_lt.mp hge)
    exact absurd hcount (Nat.not_lt.mpr (Nat.le_trans hquotient (div_le_divNearestEven _ _)))
  · intro hticks
    have hbelow := Nat.mul_le_mul_right nanosPerSecond (ticks_add_one_le hticks)
    obtain ⟨-, hround⟩ := divNearestEven_bounds (y.ticks * nanosPerSecond) hpos
    change divNearestEven (y.ticks * nanosPerSecond) one < _
    by_contra hge
    have hlarge := Nat.mul_le_mul_right one (Nat.not_lt.mp hge)
    have hunit : one ≤ one * nanosPerSecond := Nat.le_mul_of_pos_right one (by decide)
    rw [Nat.add_mul] at hbelow
    rw [Nat.mul_right_comm] at hlarge
    omega

theorem ofNanos?_ok_iff {nanos : Nat} : (∃ d, ofNanos? nanos = some d) ↔ nanos < limit := by
  unfold ofNanos?
  split
  next hlt => exact ⟨fun _ => hlt, fun _ => ⟨⟨nanos, hlt⟩, rfl⟩⟩
  next hge =>
    refine ⟨?_, fun hlt => absurd hlt hge⟩
    rintro ⟨d, hd⟩
    cases hd

theorem ofSeconds?_ok_iff {isNegative : Bool} {y : Binary64} :
    (∃ d, ofSeconds? isNegative y = .ok d) ↔ y.value < 2 ^ 64 ∧ (isNegative = true → y.value = 0) := by
  rw [← countOf_lt_limit_iff, value_eq_zero_iff, ← ofNanos?_ok_iff]
  unfold ofSeconds?
  by_cases hsign : isNegative = true ∧ y.ticks ≠ 0
  · rw [if_pos hsign]
    exact ⟨nofun, fun h => absurd (h.2 hsign.1) hsign.2⟩
  · have hzero : isNegative = true → y.ticks = 0 := fun hnegative => not_not.mp fun hne => hsign ⟨hnegative, hne⟩
    rw [if_neg hsign]
    cases ofNanos? (y.countOf nanosPerSecond) with
    | none => exact ⟨nofun, fun h => nomatch h.1⟩
    | some d => exact ⟨fun _ => ⟨⟨d, rfl⟩, hzero⟩, fun _ => ⟨d, rfl⟩⟩

theorem ofSeconds?_of_zero {y : Binary64} (hzero : y.ticks = 0) (isNegative : Bool) :
    ofSeconds? isNegative y = ofSeconds? false y := by
  unfold ofSeconds?
  rw [if_neg fun h => h.2 hzero, if_neg fun h => h.2 hzero]

theorem nanos_eq_zero_of_close {y : Binary64} {d : Duration} (hzero : y.ticks = 0)
    (hclose : |y.value - d.nanos / nanosPerSecond| < 1 / (2 * nanosPerSecond)) : d.nanos = 0 := by
  by_contra hne
  have hone : (1 : ℚ) ≤ d.nanos := by exact_mod_cast Nat.one_le_iff_ne_zero.mpr hne
  rw [value_eq_zero_iff.mpr hzero, zero_sub, abs_neg, nanosPerSecond_eq, abs_of_nonneg (by positivity),
    div_lt_iff₀ (by norm_num)] at hclose
  norm_num at hclose
  linarith

theorem exists_of_parts {whole nanos : Nat} (hwhole : whole < 2 ^ 20) (hnanos : nanos < nanosPerSecond) :
    ∃ d : Duration, d.wholeSeconds = whole ∧ d.subsecondNanos = nanos := by
  have hlt : nanosPerSecond * whole + nanos < limit := by
    calc
      nanosPerSecond * whole + nanos < nanosPerSecond * whole + nanosPerSecond := Nat.add_lt_add_left hnanos _
      _ = nanosPerSecond * (whole + 1) := (Nat.mul_succ _ _).symm
      _ ≤ nanosPerSecond * 2 ^ 20 := Nat.mul_le_mul_left _ hwhole
      _ < limit := by decide
  refine ⟨⟨nanosPerSecond * whole + nanos, hlt⟩, ?_, ?_⟩
  · rw [wholeSeconds, Nat.mul_add_div (by decide), Nat.div_eq_of_lt hnanos, Nat.add_zero]
  · rw [subsecondNanos, Nat.mul_add_mod, Nat.mod_eq_of_lt hnanos]

end Duration

namespace Json

namespace Number

def isNegative : Number → Bool
  | natural _ => false
  | negative _ => true
  | real isNegative _ => isNegative

def magnitude : Number → Binary64
  | natural n => .ofNat n
  | negative n => .ofNat n
  | real _ magnitude => magnitude

/-- A number of seconds that some duration has, within half a nanosecond. -/
def IsSeconds (x : Number) : Prop := x.magnitude.value < 2 ^ 64 ∧ (x.isNegative = true → x.magnitude.value = 0)

def duration (x : Number) : Except Error Duration :=
  (Duration.ofSeconds? x.isNegative x.magnitude).mapError .noDuration

theorem duration_ok_iff {x : Number} : (∃ d, x.duration = .ok d) ↔ x.IsSeconds := by
  rw [IsSeconds, ← Duration.ofSeconds?_ok_iff, duration]
  cases Duration.ofSeconds? x.isNegative x.magnitude with
  | error reason => exact ⟨nofun, nofun⟩
  | ok d => exact ⟨fun _ => ⟨d, rfl⟩, fun _ => ⟨d, rfl⟩⟩

end Number

namespace Numeral

def duration (n : Numeral) : Except Error Duration := n.number >>= Number.duration

/-- The number that the numeral is read as is a number of seconds. -/
def IsSeconds (n : Numeral) : Prop := ∃ x, n.number = .ok x ∧ x.IsSeconds

theorem duration_ok_iff {n : Numeral} : (∃ d, n.duration = .ok d) ↔ n.IsSeconds := by
  unfold IsSeconds duration
  cases n.number with
  | error e => exact ⟨nofun, nofun⟩
  | ok x =>
      change (∃ d, x.duration = .ok d) ↔ _
      rw [Number.duration_ok_iff]
      constructor
      · exact fun hx => ⟨x, rfl, hx⟩
      · rintro ⟨y, heq, hy⟩
        cases heq
        exact hy

end Numeral

namespace Reader

theorem duration_eq : duration = (number .real).check Number.duration := by
  unfold duration
  congr 1
  funext x
  cases x <;> rfl

theorem duration_gives (n : Numeral) : duration.Gives (.number n) n.duration := by
  rw [duration_eq]
  exact (number_gives .real n).check Number.duration

end Reader

namespace Numeral

def fractionDigits (n : Numeral) : List Char := (n.fraction.map Digits.chars).getD []

/-- The number `whole` and, after the point, so many digits of the number `part`. -/
structure IsPlain (n : Numeral) (whole places part : Nat) : Prop where
  noExponent : n.exponent = none
  whole : Decimal.value 0 n.whole = whole
  places : n.fractionDigits.length = places
  part : Decimal.value 0 n.fractionDigits = part

variable {n : Numeral} {whole places part : Nat}

theorem ofInteger_parts (isNegative : Bool) (m : Nat) :
    (ofInteger isNegative m).isNegative = isNegative ∧ (ofInteger isNegative m).magnitude = .ofNat m := by
  cases isNegative with
  | false => exact ⟨rfl, rfl⟩
  | true =>
      unfold ofInteger
      rw [if_neg (by decide)]
      split <;> exact ⟨rfl, rfl⟩

theorem scaleDown_zero {places : Nat} (hplaces : places ≤ powerLimit) : (scaleDown (.ofNat 0) places).ticks = 0 := by
  have hvalue : (Binary64.ofNat 0).value = 0 := Binary64.ofNat_exact (by decide)
  have hzero : (Binary64.ofNat 0).ticks = 0 := Binary64.value_eq_zero_iff.mp hvalue
  unfold scaleDown
  rw [if_pos hplaces, Binary64.div, hzero, Nat.zero_mul, Binary64.nearest_zero]

theorem fractionDigits_areDigits (n : Numeral) : ∀ c ∈ n.fractionDigits, Decimal.isDigit c = true := by
  unfold fractionDigits
  cases n.fraction with
  | none => exact nofun
  | some digits => exact digits.areDigits

namespace IsPlain

theorem part_lt (h : n.IsPlain whole places part) : part < 10 ^ places := by
  have hlt := Decimal.value_lt (fractionDigits_areDigits n) 0
  rwa [h.part, h.places, Nat.zero_add, Nat.one_mul] at hlt

theorem number_eq (h : n.IsPlain whole places part) (hfits : whole * 10 ^ places + part < significandLimit) :
    n.number = if n.fraction = none then .ok (ofInteger n.isNegative whole)
      else ofParts n.isNegative (whole * 10 ^ places + part) (-places) := by
  have hall : Decimal.value whole n.fractionDigits = whole * 10 ^ places + part := by
    rw [Decimal.value_eq_add, h.places, h.part]
  have hle : whole ≤ whole * 10 ^ places + part := hall ▸ le_value whole n.fractionDigits
  have hwhole : gather 0 (Utf8.encode n.whole) = (whole, n.whole.length) := by
    rw [gather_encode n.isWhole.digits, h.whole]
    rw [h.whole]
    exact Nat.lt_of_le_of_lt hle hfits
  have hpart : gather whole (Utf8.encode n.fractionDigits) = (whole * 10 ^ places + part, places) := by
    rw [gather_encode (fractionDigits_areDigits n), hall, h.places]
    rwa [hall]
  unfold number
  unfold fractionDigits at hpart
  rw [hwhole, h.noExponent]
  cases hfraction : n.fraction with
  | none =>
      dsimp only
      rw [if_pos (Nat.sub_self _), if_pos rfl]
  | some digits =>
      rw [hfraction] at hpart
      dsimp only [Option.map_some, Option.getD_some] at hpart ⊢
      rw [hpart, if_neg nofun, Nat.sub_self]
      congr 1
      simp

theorem number_close (h : n.IsPlain whole places part) (hwhole : whole < 2 ^ 20) (hplaces : places ≤ 9) :
    ∃ x, n.number = .ok x ∧ x.isNegative = n.isNegative ∧
      |x.magnitude.value - (whole + part / 10 ^ places)| ≤ 2 ^ 20 / 2 ^ 53 + 2 ^ 20 * (2 / (2 ^ 53 - 1)) ∧
      (whole = 0 → part = 0 → x.magnitude.ticks = 0) := by
  have hpart := h.part_lt
  have hsmall : whole * 10 ^ places + part < 2 ^ 20 * 10 ^ places := by
    calc
      whole * 10 ^ places + part < whole * 10 ^ places + 10 ^ places := Nat.add_lt_add_left hpart _
      _ = (whole + 1) * 10 ^ places := (Nat.succ_mul _ _).symm
      _ ≤ 2 ^ 20 * 10 ^ places := Nat.mul_le_mul_right _ hwhole
  have hfits : whole * 10 ^ places + part < significandLimit := by
    calc
      whole * 10 ^ places + part < 2 ^ 20 * 10 ^ places := hsmall
      _ ≤ 2 ^ 20 * 10 ^ 9 := Nat.mul_le_mul_left _ (Nat.pow_le_pow_right (by decide) hplaces)
      _ < significandLimit := by decide
  rw [h.number_eq hfits]
  by_cases hfraction : n.fraction = none
  · have hdigits : n.fractionDigits = [] := by rw [fractionDigits, hfraction]; rfl
    have hzero : part = 0 := by rw [← h.part, hdigits]; rfl
    obtain ⟨hsign, hmagnitude⟩ := ofInteger_parts n.isNegative whole
    have hexact : (Binary64.ofNat whole).value = whole := Binary64.ofNat_exact (Nat.lt_trans hwhole (by decide))
    refine ⟨_, if_pos hfraction, hsign, ?_, ?_⟩
    · rw [hmagnitude, hexact, hzero, Nat.cast_zero, zero_div, add_zero, sub_self, abs_zero]
      norm_num
    · rintro rfl -
      rw [hmagnitude, ← Binary64.value_eq_zero_iff, hexact, Nat.cast_zero]
  · have hpos : 0 < places := by
      rw [← h.places, fractionDigits]
      obtain ⟨digits, hdigits⟩ := Option.ne_none_iff_exists'.mp hfraction
      rw [hdigits]
      exact List.length_pos_iff.mpr digits.nonempty
    have hscale : ofParts n.isNegative (whole * 10 ^ places + part) (-places) =
        .ok (.real n.isNegative (scaleDown (.ofNat (whole * 10 ^ places + part)) places)) := by
      unfold ofParts scale?
      rw [if_pos (by omega), Int.natAbs_neg, Int.natAbs_natCast]
    have hquotient : ((whole * 10 ^ places + part : ℕ) : ℚ) / 10 ^ places = whole + part / 10 ^ places := by
      push_cast
      field_simp
    have hbelow : ((whole * 10 ^ places + part : ℕ) : ℚ) / 10 ^ places < 2 ^ 20 := by
      rw [div_lt_iff₀ (by positivity)]
      exact_mod_cast hsmall
    have hlimit : places ≤ powerLimit := Nat.le_trans hplaces (by decide)
    have herror := scaleDown_error hlimit hbelow
    rw [hquotient] at herror
    refine ⟨_, (if_neg hfraction).trans hscale, rfl, herror, ?_⟩
    rintro rfl rfl
    rw [Nat.zero_mul]
    exact scaleDown_zero hlimit

theorem scaled_part_lt (h : n.IsPlain whole places part) (hplaces : places ≤ 9) :
    part * 10 ^ (9 - places) < Duration.nanosPerSecond := by
  calc
    part * 10 ^ (9 - places) < 10 ^ places * 10 ^ (9 - places) :=
      Nat.mul_lt_mul_of_pos_right h.part_lt (Nat.pow_pos (by decide))
    _ = Duration.nanosPerSecond := by
      rw [← Nat.pow_add, Nat.add_sub_cancel' hplaces]
      rfl

/-- **Plain decimals are exact.** A numeral in plain notation is read as just the duration that it says, and one with a
minus sign is refused unless it says zero. -/
theorem duration_eq (h : n.IsPlain whole places part) (hwhole : whole < 2 ^ 20) (hplaces : places ≤ 9) :
    ∃ d : Duration, d.wholeSeconds = whole ∧ d.subsecondNanos = part * 10 ^ (9 - places) ∧
      n.duration = if n.isNegative = true ∧ ¬(whole = 0 ∧ part = 0) then .error (.noDuration .negative) else .ok d := by
  obtain ⟨d, hseconds, hnanos⟩ := Duration.exists_of_parts hwhole (h.scaled_part_lt hplaces)
  obtain ⟨x, hnumber, hsign, hclose, hzero⟩ := h.number_close hwhole hplaces
  have hquotient : (d.nanos : ℚ) / Duration.nanosPerSecond = whole + part / 10 ^ places := by
    have hpower : (10 : ℚ) ^ 9 = 10 ^ places * 10 ^ (9 - places) := by rw [← pow_add, Nat.add_sub_cancel' hplaces]
    rw [Duration.nanos_eq, hseconds, hnanos, Duration.nanosPerSecond_eq, hpower]
    push_cast
    rw [mul_div_mul_right _ _ (by positivity)]
  have herror : |x.magnitude.value - d.nanos / Duration.nanosPerSecond| < 1 / (2 * Duration.nanosPerSecond) := by
    rw [hquotient]
    exact lt_of_le_of_lt hclose (by norm_num [Duration.nanosPerSecond])
  refine ⟨d, hseconds, hnanos, ?_⟩
  have hduration : n.duration = (Duration.ofSeconds? n.isNegative x.magnitude).mapError .noDuration := by
    rw [duration, hnumber, ← hsign]
    rfl
  rw [hduration]
  by_cases hnegative : n.isNegative = true ∧ ¬(whole = 0 ∧ part = 0)
  · -- Only a zero passes for a number that is not below zero, and what is read is too close to `d` for that.
    have hticks : x.magnitude.ticks ≠ 0 := by
      intro hticks
      have hnone := Duration.nanos_eq_zero_of_close hticks herror
      rw [Duration.wholeSeconds, hnone, Nat.zero_div] at hseconds
      rw [Duration.subsecondNanos, hnone, Nat.zero_mod] at hnanos
      have hpower : 0 < 10 ^ (9 - places) := Nat.pow_pos (by decide)
      exact hnegative.2 ⟨hseconds.symm, (Nat.mul_eq_zero.mp hnanos.symm).resolve_right hpower.ne'⟩
    have hrefused : Duration.ofSeconds? n.isNegative x.magnitude = .error .negative := if_pos ⟨hnegative.1, hticks⟩
    rw [if_pos hnegative, hrefused]
    rfl
  · have hunsigned : Duration.ofSeconds? n.isNegative x.magnitude = Duration.ofSeconds? false x.magnitude := by
      cases hminus : n.isNegative with
      | false => rfl
      | true =>
          obtain ⟨hwholeZero, hpartZero⟩ := not_not.mp fun hne => hnegative ⟨hminus, hne⟩
          exact Duration.ofSeconds?_of_zero (hzero hwholeZero hpartZero) true
    rw [if_neg hnegative, hunsigned, Duration.ofSeconds?_eq herror]
    rfl

end IsPlain

end Numeral

end Json

end LeaderLease
