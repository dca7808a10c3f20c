import LeaderLease.Json.Number
import LeaderLease.Proofs.Json.Decimal
import LeaderLease.Proofs.Json.Scale
import LeaderLease.Proofs.Number.Shortest

/-!
# Real numbers as they are written

A number below `10 ^ 16` is written with a point or a negative exponent, so it is read back as a significand divided
by a power of ten. That quotient is the shortest notation of the number, whichever layout it has.
-/

namespace LeaderLease.Json

open Numeral NumberLayout

/-- The text is a numeral for `q` with a power of ten below zero, by which the reader divides in one go. -/
def IsFraction (written : List Char) (q : ℚ) : Prop :=
  ∃ (m : Nat) (k : Int), k < 0 ∧ -powerLimit ≤ k ∧ Denotes written m k ∧ (m : ℚ) * 10 ^ k = q

section Layout

variable {c : Char} {cs : List Char} (hdigits : ∀ x ∈ c :: cs, Decimal.isDigit x = true) (hc : c ≠ '0')
include hdigits hc

theorem isWhole_cons : IsWhole (c :: cs) where
  digits := hdigits
  nonempty := List.cons_ne_nil c cs
  noZero _ hcons := absurd (List.cons.inj hcons).1 hc

omit hdigits hc in
theorem value_zeros_append (n : Nat) (ds : List Char) :
    Decimal.value 0 (List.replicate n '0' ++ ds) = Decimal.value 0 ds := by
  rw [Decimal.value_append, Decimal.value_replicate_zero, Nat.zero_mul]

omit hc in
theorem plain_isFraction_of_nonpos {places : Int} (hplaces : places ≤ 0)
    (hfits : Decimal.value 0 (c :: cs) < significandLimit) (hrange : -powerLimit ≤ places - (c :: cs).length) :
    IsFraction (plain (c :: cs) places) (Decimal.value 0 (c :: cs) * 10 ^ (places - (c :: cs).length)) := by
  have hzero : IsWhole ['0'] := isWhole_digits 0
  have hpart : ∀ x ∈ List.replicate (-places).toNat '0' ++ c :: cs, Decimal.isDigit x = true := by
    intro x hx
    rcases List.mem_append.mp hx with hx | hx
    · rw [List.eq_of_mem_replicate hx]
      rfl
    · exact hdigits x hx
  have hvalue : Decimal.value 0 (['0'] ++ (List.replicate (-places).toNat '0' ++ c :: cs)) =
      Decimal.value 0 (c :: cs) := value_zeros_append ((-places).toNat + 1) (c :: cs)
  have hlength : -((List.replicate (-places).toNat '0' ++ c :: cs).length : Int) = places - (c :: cs).length := by
    rw [List.length_append, List.length_replicate]
    omega
  have hdenotes := denotes_point hzero hpart (by simp) (by rwa [hvalue])
  rw [hvalue, hlength] at hdenotes
  refine ⟨_, _, ?_, hrange, ?_, rfl⟩
  · rw [List.length_cons]
    omega
  · unfold plain
    rw [if_pos hplaces]
    exact hdenotes

theorem plain_isFraction_of_lt {places : Nat} (hpos : 0 < places) (hplaces : places < (c :: cs).length)
    (hfits : Decimal.value 0 (c :: cs) < significandLimit) (hrange : -powerLimit ≤ (places : Int) - (c :: cs).length) :
    IsFraction (plain (c :: cs) places) (Decimal.value 0 (c :: cs) * 10 ^ ((places : Int) - (c :: cs).length)) := by
  obtain ⟨n, rfl⟩ : ∃ n, places = n + 1 := ⟨places - 1, by omega⟩
  have hsplit : (c :: cs).take (n + 1) ++ (c :: cs).drop (n + 1) = c :: cs := List.take_append_drop _ _
  have hwhole : IsWhole ((c :: cs).take (n + 1)) :=
    isWhole_cons (fun x hx => hdigits x (List.take_subset (n + 1) (c :: cs) hx)) hc
  have hpart : ∀ x ∈ (c :: cs).drop (n + 1), Decimal.isDigit x = true := fun x hx => hdigits x (List.mem_of_mem_drop hx)
  have hne : (c :: cs).drop (n + 1) ≠ [] := mt List.drop_eq_nil_iff.mp (Nat.not_le.mpr hplaces)
  have hplain : plain (c :: cs) (n + 1 : Nat) = (c :: cs).take (n + 1) ++ '.' :: (c :: cs).drop (n + 1) := by
    unfold plain
    rw [if_neg (by omega), Int.toNat_natCast]
    dsimp only
    rw [if_neg hne, List.length_take_of_le hplaces.le, Nat.sub_self, List.replicate_zero, List.append_nil]
  have hlength : -(((c :: cs).drop (n + 1)).length : Int) = (n + 1 : Nat) - (c :: cs).length := by
    rw [List.length_drop]
    omega
  have hdenotes := denotes_point hwhole hpart hne (by rwa [hsplit])
  rw [hsplit, hlength, ← hplain] at hdenotes
  exact ⟨_, _, by omega, hrange, hdenotes, rfl⟩

theorem plain_isFraction_of_ge {places : Nat} (hlimit : places ≤ 16) (hplaces : (c :: cs).length ≤ places) :
    IsFraction (plain (c :: cs) places) (Decimal.value 0 (c :: cs) * 10 ^ ((places : Int) - (c :: cs).length)) := by
  obtain ⟨n, hn⟩ : ∃ n, places = (c :: cs).length + n := ⟨places - (c :: cs).length, by omega⟩
  have hwhole : IsWhole (c :: (cs ++ List.replicate n '0')) := by
    refine isWhole_cons (fun x hx => ?_) hc
    rw [← List.cons_append] at hx
    rcases List.mem_append.mp hx with hx | hx
    · exact hdigits x hx
    · rw [List.eq_of_mem_replicate hx]
      rfl
  have hpart : ∀ x ∈ ['0'], Decimal.isDigit x = true := List.forall_mem_singleton.mpr rfl
  have hvalue : Decimal.value 0 (c :: (cs ++ List.replicate n '0') ++ ['0']) =
      Decimal.value 0 (c :: cs) * 10 ^ (n + 1) := by
    rw [← List.cons_append, List.append_assoc, ← List.replicate_succ', Decimal.value_append,
      Decimal.value_replicate_zero]
  have hbound := Decimal.value_lt hdigits 0
  rw [Nat.zero_add, Nat.one_mul] at hbound
  have hfits : Decimal.value 0 (c :: cs) * 10 ^ (n + 1) < significandLimit := by
    calc
      Decimal.value 0 (c :: cs) * 10 ^ (n + 1) < 10 ^ (c :: cs).length * 10 ^ (n + 1) :=
        Nat.mul_lt_mul_of_pos_right hbound (Nat.pow_pos (by decide))
      _ = 10 ^ (places + 1) := by rw [← Nat.pow_add, hn, Nat.add_assoc]
      _ ≤ 10 ^ 17 := Nat.pow_le_pow_right (by decide) (by omega)
      _ < significandLimit := by decide
  have hplain : plain (c :: cs) places = c :: (cs ++ List.replicate n '0') ++ '.' :: ['0'] := by
    unfold plain
    rw [if_neg (by rw [List.length_cons] at hn; omega), Int.toNat_natCast]
    dsimp only
    rw [List.drop_eq_nil_iff.mpr hplaces, if_pos rfl, List.take_of_length_le hplaces, hn, Nat.add_sub_cancel_left]
    rfl
  have hdenotes := denotes_point hwhole hpart (by decide) (by rwa [hvalue])
  rw [hvalue, ← hplain] at hdenotes
  refine ⟨_, _, by decide, by decide, hdenotes, ?_⟩
  have hexponent : (places : Int) - (c :: cs).length = n := by omega
  rw [hexponent, zpow_natCast]
  push_cast
  rw [List.length_singleton, Nat.cast_one, zpow_neg_one, pow_succ, ← mul_assoc, mul_inv_cancel_right₀ (by norm_num)]

theorem withExponent_isFraction {power : Int} (hpower : power < 0)
    (hfits : Decimal.value 0 (c :: cs) < significandLimit) (hrange : -powerLimit ≤ power + 1 - (c :: cs).length) :
    IsFraction (withExponent (c :: cs) power) (Decimal.value 0 (c :: cs) * 10 ^ (power + 1 - (c :: cs).length)) := by
  cases cs with
  | nil =>
      have hexponent : power + 1 - ([c].length : Nat) = power := by
        rw [List.length_singleton]
        omega
      rw [hexponent] at hrange ⊢
      exact ⟨_, _, hpower, hrange, denotes_power (isWhole_cons hdigits hc) hfits power, rfl⟩
  | cons second more =>
      have hwhole : IsWhole [c] := by
        refine isWhole_cons (fun x hx => ?_) hc
        rw [List.mem_singleton.mp hx]
        exact hdigits c List.mem_cons_self
      have hpart : ∀ x ∈ second :: more, Decimal.isDigit x = true := fun x hx => hdigits x (List.mem_cons_of_mem c hx)
      have hexponent : power + 1 - ((c :: second :: more).length : Nat) = -(second :: more).length + power := by
        rw [List.length_cons]
        omega
      rw [hexponent] at hrange ⊢
      exact ⟨_, _, by omega, hrange, denotes_pointPower hwhole hpart (List.cons_ne_nil _ _) hfits power, rfl⟩

theorem plain_isFraction {places : Int} (hlimit : places ≤ 16) (hfits : Decimal.value 0 (c :: cs) < significandLimit)
    (hrange : -powerLimit ≤ places - (c :: cs).length) :
    IsFraction (plain (c :: cs) places) (Decimal.value 0 (c :: cs) * 10 ^ (places - (c :: cs).length)) := by
  rcases Int.lt_or_le 0 places with hpos | hnonpos
  · obtain ⟨n, rfl⟩ := Int.eq_ofNat_of_zero_le hpos.le
    rcases Nat.lt_or_ge n (c :: cs).length with hinside | hoverhang
    · exact plain_isFraction_of_lt hdigits hc (by omega) hinside hfits hrange
    · exact plain_isFraction_of_ge hdigits hc (by omega) hoverhang
  · exact plain_isFraction_of_nonpos hdigits hnonpos hfits hrange

end Layout

section Shortest

variable {s : Scientific}

theorem leadingPower_lt (hs : s.significand ≠ 0) {n : Int} (hlt : s.value < (10 : ℚ) ^ n) :
    s.exponent + (Decimal.digits s.significand).length - 1 < n := by
  have hpos : 0 < (Decimal.digits s.significand).length := List.length_pos_iff.mpr (Decimal.digits_ne_nil _)
  have hlow := (Decimal.length_digits_bounds hs).1
  have hexponent : s.exponent + (Decimal.digits s.significand).length - 1 =
      ((Decimal.digits s.significand).length - 1 : Nat) + s.exponent := by omega
  have hleading : (10 : ℚ) ^ (s.exponent + (Decimal.digits s.significand).length - 1) ≤ s.value := by
    rw [hexponent, zpow_add₀ (by norm_num), zpow_natCast]
    unfold Scientific.value
    apply mul_le_mul_of_nonneg_right _ (by positivity)
    exact_mod_cast hlow
  exact (zpow_lt_zpow_iff_right₀ (by norm_num)).mp (lt_of_le_of_lt hleading hlt)

theorem value_trimmed {m zeros length : Nat} (hlength : (Decimal.digits s.significand).length = length + zeros)
    (hsignificand : m * 10 ^ zeros = s.significand) :
    s.value = m * 10 ^ (s.exponent + (Decimal.digits s.significand).length - 1 + 1 - length) := by
  have hexponent : s.exponent + (Decimal.digits s.significand).length - 1 + 1 - length =
      (zeros : Int) + s.exponent := by omega
  rw [hexponent, zpow_add₀ (by norm_num), zpow_natCast, ← mul_assoc, Scientific.value, ← hsignificand]
  push_cast
  rfl

theorem exponent_ge {m : Nat} {k : Int} (hm : m < significandLimit) (hlow : 1 / 10 ^ 200 ≤ (m : ℚ) * 10 ^ k) :
    -powerLimit ≤ k := by
  have hten : (0 : ℚ) < 10 ^ k := by positivity
  have hsmall : (m : ℚ) < 10 ^ 20 := by
    exact_mod_cast Nat.lt_trans hm (show significandLimit < 10 ^ 20 by decide)
  have habove : (10 : ℚ) ^ (-220 : Int) < 10 ^ k := by
    calc
      (10 : ℚ) ^ (-220 : Int) = 1 / 10 ^ 200 / 10 ^ 20 := by norm_num
      _ ≤ m * 10 ^ k / 10 ^ 20 := div_le_div_of_nonneg_right hlow (by norm_num)
      _ < 10 ^ k := by
        rw [div_lt_iff₀ (by norm_num), mul_comm]
        exact mul_lt_mul_of_pos_left hsmall hten
  have hexponent := (zpow_lt_zpow_iff_right₀ (by norm_num)).mp habove
  exact le_trans (by decide) hexponent.le

end Shortest

theorem writeReal_false (a : Binary64) : Number.writeReal false a = Number.layout.write a := List.nil_append _

theorem writeReal_isFraction {a : Binary64} (ha : 0 < a.ticks) (hlow : 1 / 10 ^ 200 ≤ a.shortest.value)
    (hlt : a.shortest.value < 10 ^ 16) : IsFraction (Number.writeReal false a) a.shortest.value := by
  obtain ⟨hreads, hseventeen⟩ := Binary64.shortest_spec ha
  have hn := hreads.significand_ne_zero ha
  obtain ⟨c, cs, zeros, htrim, hc, hdigits, hlength, hsignificand⟩ := Decimal.trimZeros_digits hn
  have hfits : Decimal.value 0 (c :: cs) < significandLimit := by
    calc
      Decimal.value 0 (c :: cs) ≤ Decimal.value 0 (c :: cs) * 10 ^ zeros :=
        Nat.le_mul_of_pos_right _ (Nat.pow_pos (by decide))
      _ = a.shortest.significand := hsignificand
      _ ≤ 10 ^ 17 := hseventeen
      _ < significandLimit := by decide
  have hpower := leadingPower_lt hn (show a.shortest.value < 10 ^ (16 : Int) by exact_mod_cast hlt)
  have hvalue := value_trimmed hlength hsignificand
  rw [hvalue] at hlow ⊢
  have hrange := exponent_ge hfits hlow
  rw [writeReal_false]
  unfold NumberLayout.write
  rw [if_neg ha.ne']
  dsimp only
  rw [htrim]
  generalize a.shortest.exponent + (Decimal.digits a.shortest.significand).length - 1 = power at *
  split
  next => exact plain_isFraction hdigits hc (by omega) hfits hrange
  next hlayout =>
    have hfrom : ¬ -5 ≤ power := fun hle => hlayout ⟨hle, hpower⟩
    exact withExponent_isFraction hdigits hc (by omega) hfits hrange

theorem writeReal_zero_isFraction {a : Binary64} (ha : a.ticks = 0) : IsFraction (Number.writeReal false a) 0 := by
  have hpart : ∀ x ∈ ['0'], Decimal.isDigit x = true := List.forall_mem_singleton.mpr rfl
  have hdenotes := denotes_point (isWhole_digits 0) hpart (List.cons_ne_nil _ _) (by decide)
  refine ⟨0, -1, by decide, by decide, ?_, by norm_num⟩
  rw [writeReal_false]
  unfold NumberLayout.write
  rw [if_pos ha]
  exact hdenotes

theorem IsFraction.reads {written : List Char} {q : ℚ} (h : IsFraction written q) {n : Nat} (hlt : q < 2 ^ n) :
    ∃ y : Binary64, |y.value - q| ≤ 2 ^ n / 2 ^ 53 + 2 ^ n * (2 / (2 ^ 53 - 1)) ∧
      ∀ (isNegative : Bool) (rest : Bytes), EndsNumber rest →
        readUnsigned isNegative (Utf8.encode written ++ rest) = .ok (.real isNegative y, rest) := by
  obtain ⟨m, k, hk, hrange, hdenotes, hq⟩ := h
  have hexponent : k = -(k.natAbs : Int) := by omega
  have hquotient : (m : ℚ) / 10 ^ k.natAbs = q := by
    rw [← hq, div_eq_mul_inv]
    nth_rewrite 2 [hexponent]
    rw [zpow_neg, zpow_natCast]
  refine ⟨scaleDown (.ofNat m) k.natAbs, ?_, ?_⟩
  · rw [← hquotient] at hlt ⊢
    exact scaleDown_error (by omega) hlt
  · intro isNegative rest hrest
    have hscale : scale? m k = some (scaleDown (.ofNat m) k.natAbs) := if_pos hk
    have hparts : ofParts isNegative m k = .ok (.real isNegative (scaleDown (.ofNat m) k.natAbs)) := by
      unfold ofParts
      rw [hscale]
    rw [hdenotes isNegative rest hrest, hparts]
    rfl

end LeaderLease.Json
