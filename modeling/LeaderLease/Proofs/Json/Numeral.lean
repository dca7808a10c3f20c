import LeaderLease.Json.Skip
import LeaderLease.Proofs.Json.Decimal

/-!
# Numerals in any spelling

A numeral of any length is read up to its end, and what it is read as is a function of its parts. A reader of integers
takes only those that have neither a sign, nor a point, nor an exponent.
-/

namespace LeaderLease.Json

open Utf8

namespace Numeral

variable {n : Numeral} {rest : Bytes}

/-- What the reader makes of a numeral. A digit that does not fit the significand raises the exponent if it stands
before the point, and has no say if it stands after it. -/
def number (n : Numeral) : Except Error Number :=
  let whole := gather 0 (encode n.whole)
  let dropped := n.whole.length - whole.2
  match n.fraction, n.exponent with
  | none, none => if dropped = 0 then .ok (ofInteger n.isNegative whole.1) else ofParts n.isNegative whole.1 dropped
  | none, some e => ofParts n.isNegative whole.1 (dropped + e.power)
  | some part, e =>
      let all := gather whole.1 (encode part.chars)
      ofParts n.isNegative all.1 (dropped - all.2 + (e.map Exponent.power).getD 0)

theorem endsDigits_exponentChars (n : Numeral) (hrest : EndsDigits rest) :
    EndsDigits (encode n.exponentChars ++ rest) := by
  unfold exponentChars
  cases n.exponent with
  | none => exact hrest
  | some e => exact endsDigits_exponent e rest

theorem endsDigits_fractionChars (n : Numeral) (hrest : EndsDigits rest) :
    EndsDigits (encode n.fractionChars ++ (encode n.exponentChars ++ rest)) := by
  unfold fractionChars
  cases n.fraction with
  | none => exact n.endsDigits_exponentChars hrest
  | some part => exact endsDigits_cons rfl (encode part.chars ++ (encode n.exponentChars ++ rest))

theorem encode_unsignedChars (n : Numeral) (rest : Bytes) :
    encode n.unsignedChars ++ rest =
      encode n.whole ++ (encode n.fractionChars ++ (encode n.exponentChars ++ rest)) := by
  simp only [unsignedChars, encode_append, List.append_assoc]

theorem encode_unsignedChars_cons (n : Numeral) (rest : Bytes) :
    ∃ b bs, encode n.unsignedChars ++ rest = b :: bs ∧ isDigit b = true := by
  rw [encode_unsignedChars]
  exact encode_digits_cons n.isWhole.digits n.isWhole.nonempty _

theorem encode_chars (n : Numeral) (rest : Bytes) :
    encode n.chars ++ rest =
      (if n.isNegative then [minus] else []) ++ (encode n.unsignedChars ++ rest) := by
  unfold chars
  cases n.isNegative <;> rfl

theorem encode_chars_cons (n : Numeral) (rest : Bytes) :
    ∃ b bs, encode n.chars ++ rest = b :: bs ∧ (b = minus ∨ isDigit b = true) := by
  obtain ⟨b, bs, hbytes, hb⟩ := n.encode_unsignedChars_cons rest
  rw [encode_chars, hbytes]
  cases n.isNegative with
  | true => exact ⟨minus, b :: bs, rfl, .inl rfl⟩
  | false => exact ⟨b, bs, rfl, .inr hb⟩

theorem ofParts_map (isNegative : Bool) (m : Nat) (k : Int) (rest : Bytes) :
    (do return (← ofParts isNegative m k, rest)) = (ofParts isNegative m k).map (·, rest) := by
  cases ofParts isNegative m k <;> rfl

theorem readScale_exponentChars (n : Numeral) (m : Nat) (k : Int) (hrest : EndsNumber rest) :
    readScale n.isNegative m k (encode n.exponentChars ++ rest) =
      (ofParts n.isNegative m (k + (n.exponent.map Exponent.power).getD 0)).map (·, rest) := by
  unfold exponentChars
  cases n.exponent with
  | none =>
      change readScale n.isNegative m k rest = (ofParts n.isNegative m (k + 0)).map (·, rest)
      rw [readScale_of_endsNumber _ _ _ hrest, ofParts_map, Int.add_zero]
  | some e => exact (readScale_exponent e n.isNegative m k hrest.endsDigits).trans (ofParts_map _ _ _ rest)

theorem readAfterWhole_exponent (e : Exponent) (isNegative : Bool) (m dropped : Nat) (bs : Bytes) :
    readAfterWhole isNegative m dropped (encode e.chars ++ bs) =
      readScale isNegative m dropped (encode e.chars ++ bs) := by
  obtain ⟨isCapital, sign, digits⟩ := e
  cases isCapital <;> rfl

theorem readAfterWhole_endsNumber (isNegative : Bool) (m dropped : Nat) (hrest : EndsNumber rest) :
    readAfterWhole isNegative m dropped rest =
      if dropped = 0 then .ok (ofInteger isNegative m, rest)
      else (ofParts isNegative m dropped).map (·, rest) := by
  rw [← ofParts_map, ← readScale_of_endsNumber _ _ _ hrest]
  unfold readAfterWhole
  split
  · exact absurd rfl (hrest _ rfl).2.1
  · exact absurd rfl (hrest _ rfl).2.2.1
  · exact absurd rfl (hrest _ rfl).2.2.2
  · rfl

/-- **Any numeral** is read up to its end. -/
theorem readNumber_chars (n : Numeral) (hrest : EndsNumber rest) :
    readNumber (encode n.chars ++ rest) = n.number.map (·, rest) := by
  have hunsigned : readUnsigned n.isNegative (encode n.unsignedChars ++ rest) = n.number.map (·, rest) := by
    rw [encode_unsignedChars, readUnsigned_gathered n.isWhole _ (n.endsDigits_fractionChars hrest.endsDigits)]
    have hscale := fun m k => n.readScale_exponentChars m k hrest
    have hends := n.endsDigits_exponentChars hrest.endsDigits
    unfold number
    obtain ⟨isNegative, whole, isWhole, fraction, exponent⟩ := n
    dsimp only at hscale hends ⊢
    match fraction, exponent with
    | none, none =>
        refine (readAfterWhole_endsNumber isNegative _ _ hrest).trans ?_
        dsimp only
        split <;> rfl
    | none, some e => exact (readAfterWhole_exponent e isNegative _ _ rest).trans (hscale _ _)
    | some part, exponent =>
        exact (readFraction_gathered part.areDigits part.nonempty isNegative _ _ hends).trans (hscale _ _)
  obtain ⟨b, bs, hbytes, hb⟩ := n.encode_unsignedChars_cons rest
  rw [encode_chars]
  rw [hbytes] at hunsigned ⊢
  cases hsign : n.isNegative with
  | true =>
      rw [hsign] at hunsigned
      exact hunsigned
  | false =>
      rw [hsign] at hunsigned
      change readNumber (b :: bs) = _
      unfold readNumber
      split
      -- No sign is read: what comes first is a digit.
      next heq =>
        obtain ⟨rfl, -⟩ := List.cons.inj heq
        exact absurd hb (by decide)
      next => exact hunsigned

/-- The digits of a natural number, and nothing else. -/
structure IsUnsigned (n : Numeral) (k : Nat) : Prop where
  unsigned : n.isNegative = false
  noFraction : n.fraction = none
  noExponent : n.exponent = none
  value : Decimal.value 0 n.whole = k

theorem ofNat_isUnsigned_iff {m k : Nat} : (ofNat m).IsUnsigned k ↔ k = m := by
  constructor
  · intro h
    rw [← h.value]
    exact Decimal.value_digits m
  · rintro rfl
    exact ⟨rfl, rfl, rfl, Decimal.value_digits k⟩

theorem ofParts_ne_natural {isNegative : Bool} {m k : Nat} {exponent : Int} :
    ofParts isNegative m exponent ≠ .ok (.natural k) := by
  unfold ofParts
  cases scale? m exponent with
  | none => exact nofun
  | some magnitude => exact nofun

theorem ofInteger_eq_natural {isNegative : Bool} {m k : Nat} (h : ofInteger isNegative m = .natural k) :
    isNegative = false ∧ m = k := by
  unfold ofInteger at h
  cases isNegative with
  | false => exact ⟨rfl, Number.natural.inj h⟩
  | true =>
      rw [if_neg (by decide)] at h
      split at h <;> cases h

theorem gather_all {ds : List Char} (hds : ∀ c ∈ ds, Decimal.isDigit c = true) {acc : Nat}
    (hacc : acc < significandLimit) (hall : ds.length ≤ (gather acc (encode ds)).2) :
    (gather acc (encode ds)).1 = Decimal.value acc ds ∧ Decimal.value acc ds < significandLimit := by
  induction ds generalizing acc with
  | nil => exact ⟨rfl, hacc⟩
  | cons c cs ih =>
      have hc := hds c List.mem_cons_self
      have hcs : ∀ x ∈ cs, Decimal.isDigit x = true := fun x hx => hds x (List.mem_cons_of_mem c hx)
      rw [encode_cons, encodeChar_of_isDigit hc, List.singleton_append] at hall ⊢
      unfold gather at hall ⊢
      rw [digitValue_ofNat hc] at hall ⊢
      dsimp only at hall ⊢
      by_cases hfits : acc * 10 + Decimal.digitValue c < significandLimit
      · rw [if_pos hfits] at hall ⊢
        exact ih hcs hfits (Nat.le_of_succ_le_succ hall)
      · rw [if_neg hfits] at hall
        exact absurd hall (Nat.not_succ_le_zero _)

theorem number_eq_natural_iff {k : Nat} :
    n.number = .ok (.natural k) ↔ n.IsUnsigned k ∧ k < significandLimit := by
  constructor
  · intro h
    unfold number at h
    dsimp only at h
    split at h
    next hfraction hexponent =>
      split at h
      next hall =>
        obtain ⟨hsign, hvalue⟩ := ofInteger_eq_natural (Except.ok.inj h)
        have hzero : 0 < significandLimit := by decide
        obtain ⟨hgathered, hfits⟩ := gather_all n.isWhole.digits hzero (Nat.le_of_sub_eq_zero hall)
        rw [hgathered] at hvalue
        exact ⟨⟨hsign, hfraction, hexponent, hvalue⟩, hvalue ▸ hfits⟩
      next => exact absurd h ofParts_ne_natural
    next => exact absurd h ofParts_ne_natural
    next => exact absurd h ofParts_ne_natural
  · rintro ⟨⟨hsign, hfraction, hexponent, hvalue⟩, hk⟩
    rw [← hvalue] at hk ⊢
    unfold number
    rw [hfraction, hexponent, gather_encode n.isWhole.digits hk, hsign]
    dsimp only
    rw [if_pos (Nat.sub_self _)]
    rfl

end Numeral

namespace Skip

theorem pastDigits_encode (ds : Digits) {rest : Bytes} (hrest : EndsDigits rest) :
    pastDigits (encode ds.chars ++ rest) = .ok rest := by
  have hdrop := dropWhile_isDigit ds.areDigits hrest
  obtain ⟨b, bs, hbytes, hb⟩ := Numeral.encode_digits_cons ds.areDigits ds.nonempty rest
  rw [hbytes, List.dropWhile_cons_of_pos hb] at hdrop
  rw [hbytes, pastDigits, if_pos hb, hdrop]

theorem pastExponent_digit {letter b : UInt8} (hletter : letter = letterE ∨ letter = capitalE)
    (hb : isDigit b = true) (bs : Bytes) : pastExponent (letter :: b :: bs) = pastDigits (b :: bs) := by
  have hplus : b ≠ plus := by
    rintro rfl
    exact absurd hb (by decide)
  have hminus : b ≠ minus := by
    rintro rfl
    exact absurd hb (by decide)
  obtain rfl | rfl := hletter
  all_goals
    unfold pastExponent
    split
    all_goals simp_all

theorem pastExponent_exponent (e : Exponent) {rest : Bytes} (hrest : EndsDigits rest) :
    pastExponent (encode e.chars ++ rest) = .ok rest := by
  obtain ⟨isCapital, sign, digits⟩ := e
  have hdigits := pastDigits_encode digits hrest
  match sign with
  | some .plus | some .minus => cases isCapital <;> exact hdigits
  | none =>
      obtain ⟨b, bs, hbytes, hb⟩ := Numeral.encode_digits_cons digits.areDigits digits.nonempty rest
      rw [hbytes] at hdigits
      cases isCapital with
      | true =>
          change pastExponent (capitalE :: (encode digits.chars ++ rest)) = _
          rw [hbytes, pastExponent_digit (.inr rfl) hb, hdigits]
      | false =>
          change pastExponent (letterE :: (encode digits.chars ++ rest)) = _
          rw [hbytes, pastExponent_digit (.inl rfl) hb, hdigits]

theorem pastExponent_exponentChars (n : Numeral) {rest : Bytes} (hrest : EndsNumber rest) :
    pastExponent (encode n.exponentChars ++ rest) = .ok rest := by
  unfold Numeral.exponentChars
  cases n.exponent with
  | some e => exact pastExponent_exponent e hrest.endsDigits
  | none =>
      change pastExponent rest = .ok rest
      unfold pastExponent
      split
      all_goals first
        | exact absurd rfl (hrest _ rfl).2.2.1
        | exact absurd rfl (hrest _ rfl).2.2.2
        | rfl

theorem pastFraction_of_ne {bs : Bytes} (hpoint : ∀ b ∈ bs.head?, b ≠ point) : pastFraction bs = pastExponent bs := by
  unfold pastFraction
  split
  next => exact absurd rfl (hpoint _ rfl)
  next => rfl

theorem head_exponentChars (n : Numeral) {rest : Bytes} (hrest : EndsNumber rest) :
    ∀ b ∈ (encode n.exponentChars ++ rest).head?, b ≠ point := by
  unfold Numeral.exponentChars
  cases n.exponent with
  | none => exact fun b hb => (hrest b hb).2.1
  | some e =>
      obtain ⟨isCapital, sign, digits⟩ := e
      cases isCapital with
      | true =>
          rintro b ⟨⟩
          exact (by decide : capitalE ≠ point)
      | false =>
          rintro b ⟨⟩
          exact (by decide : letterE ≠ point)

theorem pastFraction_fractionChars (n : Numeral) {rest : Bytes} (hrest : EndsNumber rest) :
    pastFraction (encode n.fractionChars ++ (encode n.exponentChars ++ rest)) = .ok rest := by
  have hexponent := pastExponent_exponentChars n hrest
  unfold Numeral.fractionChars
  cases n.fraction with
  | some part =>
      change (pastDigits (encode part.chars ++ (encode n.exponentChars ++ rest)) >>= pastExponent) = _
      rw [pastDigits_encode part (n.endsDigits_exponentChars hrest.endsDigits)]
      exact hexponent
  | none => exact (pastFraction_of_ne (head_exponentChars n hrest)).trans hexponent

theorem pastNumber_zero {bs : Bytes} (hbs : EndsDigits bs) : pastNumber (0x30 :: bs) = pastFraction bs := by
  unfold pastNumber
  dsimp only
  rw [if_neg (by decide), if_pos rfl]
  cases bs with
  | nil => rfl
  | cons b more => exact if_neg (by simp [hbs b rfl])

theorem pastNumber_nonzero {b : UInt8} (hb : isDigit b = true) (hzero : b ≠ 0x30) (bs : Bytes) :
    pastNumber (b :: bs) = pastFraction (bs.dropWhile isDigit) := by
  unfold pastNumber
  dsimp only
  rw [if_neg (by simp [hb]), if_neg hzero]

theorem pastNumber_unsignedChars (n : Numeral) {rest : Bytes} (hrest : EndsNumber rest) :
    pastNumber (encode n.unsignedChars ++ rest) = .ok rest := by
  have hfraction := pastFraction_fractionChars n hrest
  have hends := n.endsDigits_fractionChars hrest.endsDigits
  have hdrop := dropWhile_isDigit n.isWhole.digits hends
  rw [Numeral.encode_unsignedChars]
  obtain ⟨c, cs, hcons⟩ := List.exists_cons_of_ne_nil n.isWhole.nonempty
  have hc : Decimal.isDigit c = true := n.isWhole.digits c (by simp [hcons])
  rw [hcons] at hdrop ⊢
  rw [encode_cons, encodeChar_of_isDigit hc, List.singleton_append, List.cons_append] at hdrop ⊢
  rw [List.dropWhile_cons_of_pos (isDigit_ofNat hc)] at hdrop
  by_cases hzero : UInt8.ofNat c.toNat = 0x30
  · obtain rfl := eq_zero_of_ofNat hc hzero
    obtain rfl := n.isWhole.noZero cs hcons
    exact (pastNumber_zero hends).trans hfraction
  · rw [pastNumber_nonzero (isDigit_ofNat hc) hzero, hdrop, hfraction]

end Skip

end LeaderLease.Json
