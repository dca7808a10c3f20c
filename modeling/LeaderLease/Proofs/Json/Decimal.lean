import LeaderLease.Proofs.Json.Grammar

namespace LeaderLease.Json

open Utf8

namespace Numeral

variable {rest : Bytes}

theorem encode_digits_cons {ds : List Char} (hdigits : ∀ c ∈ ds, Decimal.isDigit c = true) (hds : ds ≠ [])
    (rest : Bytes) : ∃ b bs, encode ds ++ rest = b :: bs ∧ isDigit b = true := by
  obtain ⟨c, cs, rfl⟩ := List.exists_cons_of_ne_nil hds
  have hc : Decimal.isDigit c = true := hdigits c List.mem_cons_self
  refine ⟨.ofNat c.toNat, encode cs ++ rest, ?_, isDigit_ofNat hc⟩
  rw [encode_cons, encodeChar_of_isDigit hc]
  rfl

theorem readScale_of_endsNumber (isNegative : Bool) (m : Nat) (k : Int) (hrest : EndsNumber rest) :
    readScale isNegative m k rest = (do return (← ofParts isNegative m k, rest)) := by
  unfold readScale
  split
  · exact absurd rfl (hrest _ rfl).2.2.1
  · exact absurd rfl (hrest _ rfl).2.2.2
  · rfl

theorem readFraction_gathered {part : List Char} (hdigits : ∀ c ∈ part, Decimal.isDigit c = true) (hpart : part ≠ [])
    (isNegative : Bool) (m : Nat) (k : Int) (hrest : EndsDigits rest) :
    readFraction isNegative m k (encode part ++ rest) =
      readScale isNegative (gather m (encode part)).1 (k - (gather m (encode part)).2) rest := by
  have htake := takeWhile_isDigit hdigits hrest
  have hdrop := dropWhile_isDigit hdigits hrest
  obtain ⟨b, bs, hbytes, hb⟩ := encode_digits_cons hdigits hpart rest
  rw [hbytes] at htake hdrop ⊢
  unfold readFraction
  dsimp only
  rw [if_pos hb, htake, hdrop]

theorem readFraction_digits {part : List Char} (hdigits : ∀ c ∈ part, Decimal.isDigit c = true) (hpart : part ≠ [])
    (isNegative : Bool) {m : Nat} (hfits : Decimal.value m part < significandLimit) (k : Int)
    (hrest : EndsDigits rest) :
    readFraction isNegative m k (encode part ++ rest) =
      readScale isNegative (Decimal.value m part) (k - part.length) rest := by
  rw [readFraction_gathered hdigits hpart isNegative m k hrest, gather_encode hdigits hfits]

theorem foldl_encode {ds : List Char} (hdigits : ∀ c ∈ ds, Decimal.isDigit c = true) (acc : Nat) :
    (encode ds).foldl (fun (n : Int) d => n * 10 + digitValue d) acc = Decimal.value acc ds := by
  induction ds generalizing acc with
  | nil => rfl
  | cons c cs ih =>
      have hc := hdigits c List.mem_cons_self
      have hstep : (acc : Int) * 10 + digitValue (.ofNat c.toNat) = (acc * 10 + Decimal.digitValue c : Nat) := by
        rw [digitValue_ofNat hc]
        push_cast
        rfl
      rw [encode_cons, encodeChar_of_isDigit hc, List.singleton_append, List.foldl_cons, hstep]
      exact ih (fun x hx => hdigits x (List.mem_cons_of_mem c hx)) _

theorem endsDigits_exponent (e : Exponent) (rest : Bytes) : EndsDigits (encode e.chars ++ rest) := by
  obtain ⟨isCapital, sign, digits⟩ := e
  cases isCapital <;> exact endsDigits_cons rfl (encode (sign.toList.map Sign.char ++ digits.chars) ++ rest)

theorem readExponent_digits {ds : List Char} (hdigits : ∀ c ∈ ds, Decimal.isDigit c = true) (hds : ds ≠ [])
    (isNegative : Bool) (m : Nat) (k : Int) (hrest : EndsDigits rest) :
    readExponent isNegative m k (encode ds ++ rest) =
        (do return (← ofParts isNegative m (k + Decimal.value 0 ds), rest)) ∧
      readExponent isNegative m k (plus :: (encode ds ++ rest)) =
        (do return (← ofParts isNegative m (k + Decimal.value 0 ds), rest)) ∧
      readExponent isNegative m k (minus :: (encode ds ++ rest)) =
        (do return (← ofParts isNegative m (k - Decimal.value 0 ds), rest)) := by
  have hfold := foldl_encode hdigits 0
  have htake := takeWhile_isDigit hdigits hrest
  have hdrop := dropWhile_isDigit hdigits hrest
  obtain ⟨b, bs, hbytes, hb⟩ := encode_digits_cons hdigits hds rest
  rw [hbytes] at htake hdrop ⊢
  have hplus : b ≠ plus := by
    rintro rfl
    exact absurd hb (by decide)
  have hminus : b ≠ minus := by
    rintro rfl
    exact absurd hb (by decide)
  have hafter : ∀ down : Bool, (if isDigit b then do
        let written : Int := ((b :: bs).takeWhile isDigit).foldl (fun n d => n * 10 + digitValue d) 0
        let number ← ofParts isNegative m (if down then k - written else k + written)
        return (number, (b :: bs).dropWhile isDigit)
      else .error .invalidNumber) =
      (do return (← ofParts isNegative m (if down then k - Decimal.value 0 ds else k + Decimal.value 0 ds), rest)) := by
    intro down
    rw [if_pos hb, htake, hdrop]
    dsimp only
    rw [← hfold]
    rfl
  refine ⟨?_, hafter false, hafter true⟩
  unfold readExponent
  split
  next heq =>
    split at heq
    next hcons => exact absurd (List.cons.inj hcons).1 hplus
    next hcons => exact absurd (List.cons.inj hcons).1 hminus
    next =>
      obtain ⟨rfl, rfl⟩ := Prod.mk.inj heq
      exact hafter false

theorem readScale_exponent (e : Exponent) (isNegative : Bool) (m : Nat) (k : Int) (hrest : EndsDigits rest) :
    readScale isNegative m k (encode e.chars ++ rest) =
      (do return (← ofParts isNegative m (k + e.power), rest)) := by
  obtain ⟨isCapital, sign, digits⟩ := e
  obtain ⟨hbare, hplus, hminus⟩ := readExponent_digits digits.areDigits digits.nonempty isNegative m k hrest
  have hletter : ∀ bs, readScale isNegative m k (encode ((if isCapital then 'E' else 'e') :: bs) ++ rest) =
      readExponent isNegative m k (encode bs ++ rest) := by
    intro bs
    cases isCapital <;> rfl
  unfold Exponent.chars
  dsimp only
  rw [hletter]
  match sign with
  | none => exact hbare
  | some .plus => exact hplus
  | some .minus =>
      change _ = (do return (← ofParts isNegative m (k + -(Decimal.value 0 digits.chars : Int)), rest))
      rw [← Int.sub_eq_add_neg]
      exact hminus

/-- An exponent as it is written, always with a sign. -/
def writtenPower (power : Int) : List Char := 'e' :: (if power < 0 then '-' else '+') :: Decimal.digits power.natAbs

theorem writtenPower_eq (power : Int) : ∃ e : Exponent, e.chars = writtenPower power ∧ e.power = power := by
  refine ⟨⟨false, some (if power < 0 then .minus else .plus), ⟨Decimal.digits power.natAbs,
    fun _ => Decimal.isDigit_of_mem_digits, Decimal.digits_ne_nil _⟩⟩, ?_, ?_⟩
  · unfold writtenPower
    by_cases hdown : power < 0
    · rw [if_pos hdown, if_pos hdown]
      rfl
    · rw [if_neg hdown, if_neg hdown]
      rfl
  · unfold Exponent.power
    dsimp only
    rw [Decimal.value_digits]
    by_cases hdown : power < 0
    · rw [if_pos hdown]
      dsimp only
      omega
    · rw [if_neg hdown]
      dsimp only
      omega

theorem endsDigits_writtenPower (power : Int) (rest : Bytes) : EndsDigits (encode (writtenPower power) ++ rest) := by
  obtain ⟨e, hchars, -⟩ := writtenPower_eq power
  rw [← hchars]
  exact endsDigits_exponent e rest

theorem readScale_writtenPower (isNegative : Bool) (m : Nat) (k power : Int) (hrest : EndsDigits rest) :
    readScale isNegative m k (encode (writtenPower power) ++ rest) =
      (do return (← ofParts isNegative m (k + power), rest)) := by
  obtain ⟨e, hchars, hpower⟩ := writtenPower_eq power
  rw [← hchars, readScale_exponent e isNegative m k hrest, hpower]

/-- The text is read as the number `m * 10 ^ k`, rounded as the reader rounds it. -/
def Denotes (written : List Char) (m : Nat) (k : Int) : Prop :=
  ∀ (isNegative : Bool) (rest : Bytes), EndsNumber rest →
    readUnsigned isNegative (encode written ++ rest) = (do return (← ofParts isNegative m k, rest))

section Forms

variable {whole part : List Char} (hwhole : IsWhole whole)
include hwhole

theorem readUnsigned_point (hpart : ∀ c ∈ part, Decimal.isDigit c = true) (hne : part ≠ [])
    (hfits : Decimal.value 0 (whole ++ part) < significandLimit) (isNegative : Bool) (hrest : EndsDigits rest) :
    readUnsigned isNegative (encode (whole ++ '.' :: part) ++ rest) =
      readScale isNegative (Decimal.value 0 (whole ++ part)) (-part.length) rest := by
  rw [Decimal.value_append] at hfits ⊢
  have hwholeFits : Decimal.value 0 whole < significandLimit := Nat.lt_of_le_of_lt (le_value _ _) hfits
  have hbytes : encode (whole ++ '.' :: part) ++ rest = encode whole ++ point :: (encode part ++ rest) := by
    rw [encode_append, encode_cons, List.append_assoc, List.append_assoc]
    rfl
  rw [hbytes, readUnsigned_whole hwhole hwholeFits isNegative (endsDigits_cons rfl _)]
  change readFraction isNegative (Decimal.value 0 whole) (0 : Nat) (encode part ++ rest) = _
  rw [readFraction_digits hpart hne isNegative hfits _ hrest, Int.natCast_zero, Int.zero_sub]

theorem denotes_point (hpart : ∀ c ∈ part, Decimal.isDigit c = true) (hne : part ≠ [])
    (hfits : Decimal.value 0 (whole ++ part) < significandLimit) :
    Denotes (whole ++ '.' :: part) (Decimal.value 0 (whole ++ part)) (-part.length) := by
  intro isNegative rest hrest
  rw [readUnsigned_point hwhole hpart hne hfits isNegative hrest.endsDigits]
  exact readScale_of_endsNumber _ _ _ hrest

theorem denotes_power (hfits : Decimal.value 0 whole < significandLimit) (power : Int) :
    Denotes (whole ++ writtenPower power) (Decimal.value 0 whole) power := by
  intro isNegative rest hrest
  have hends := endsDigits_writtenPower power rest
  have hscale := readScale_writtenPower isNegative (Decimal.value 0 whole) 0 power hrest.endsDigits
  rw [Int.zero_add] at hscale
  rw [encode_append, List.append_assoc]
  exact (readUnsigned_whole hwhole hfits isNegative hends).trans hscale

theorem denotes_pointPower (hpart : ∀ c ∈ part, Decimal.isDigit c = true) (hne : part ≠ [])
    (hfits : Decimal.value 0 (whole ++ part) < significandLimit) (power : Int) :
    Denotes (whole ++ '.' :: part ++ writtenPower power) (Decimal.value 0 (whole ++ part)) (-part.length + power) := by
  intro isNegative rest hrest
  have hends := endsDigits_writtenPower power rest
  rw [encode_append, List.append_assoc, readUnsigned_point hwhole hpart hne hfits isNegative hends]
  exact readScale_writtenPower _ _ _ power hrest.endsDigits

end Forms

end Numeral

end LeaderLease.Json
