import LeaderLease.Json.Numeral
import LeaderLease.Proofs.Text.Decimal
import LeaderLease.Proofs.Text.Utf8

namespace LeaderLease.Json

open Utf8

/-- Nothing that follows here goes on with a number. -/
def EndsNumber (rest : Bytes) : Prop :=
  ∀ b ∈ rest.head?, isDigit b = false ∧ b ≠ point ∧ b ≠ letterE ∧ b ≠ capitalE

/-- Nothing that follows here is one more digit. -/
def EndsDigits (rest : Bytes) : Prop := ∀ b ∈ rest.head?, isDigit b = false

theorem EndsNumber.endsDigits {rest : Bytes} (h : EndsNumber rest) : EndsDigits rest := fun b hb => (h b hb).1

theorem endsDigits_cons {b : UInt8} (hb : isDigit b = false) (rest : Bytes) : EndsDigits (b :: rest) := by
  rintro c hc
  cases hc
  exact hb

theorem endsNumber_cons {b : UInt8} (hdigit : isDigit b = false) (hpoint : b ≠ point) (hsmall : b ≠ letterE)
    (hcapital : b ≠ capitalE) (rest : Bytes) : EndsNumber (b :: rest) := by
  rintro c hc
  cases hc
  exact ⟨hdigit, hpoint, hsmall, hcapital⟩

section Digits

variable {c : Char} {ds : List Char}

theorem encodeChar_of_isDigit (hc : Decimal.isDigit c = true) :
    String.utf8EncodeChar c = [.ofNat c.toNat] :=
  encodeChar_of_ascii (Nat.lt_of_le_of_lt (Decimal.isDigit_iff.mp hc).2 (by decide))

theorem toNat_of_isDigit (hc : Decimal.isDigit c = true) : (UInt8.ofNat c.toNat).toNat = c.toNat := by
  rw [Decimal.isDigit_iff] at hc
  exact toNat_ofNat_of_lt (Nat.lt_of_le_of_lt hc.2 (by decide))

theorem isDigit_ofNat (hc : Decimal.isDigit c = true) : isDigit (.ofNat c.toNat) = true := by
  simp only [isDigit, UInt8.le_iff_toNat_le, toNat_of_isDigit hc, Bool.and_eq_true, decide_eq_true_eq]
  exact Decimal.isDigit_iff.mp hc

theorem eq_zero_of_ofNat (hc : Decimal.isDigit c = true) (hzero : UInt8.ofNat c.toNat = 0x30) : c = '0' := by
  have htoNat := congrArg UInt8.toNat hzero
  rw [toNat_of_isDigit hc] at htoNat
  exact Char.toNat_inj.mp htoNat

theorem digitValue_ofNat (hc : Decimal.isDigit c = true) : digitValue (.ofNat c.toNat) = Decimal.digitValue c := by
  rw [digitValue, toNat_of_isDigit hc]
  rfl

theorem encode_of_isDigit (hds : ∀ c ∈ ds, Decimal.isDigit c = true) :
    encode ds = ds.map fun c => .ofNat c.toNat := by
  induction ds with
  | nil => rfl
  | cons c cs ih =>
      have htail := ih fun x hx => hds x (List.mem_cons_of_mem c hx)
      rw [encode_cons, encodeChar_of_isDigit (hds c List.mem_cons_self), htail]
      rfl

theorem isDigit_of_mem_encode (hds : ∀ c ∈ ds, Decimal.isDigit c = true) : ∀ b ∈ encode ds, isDigit b = true := by
  intro b hb
  rw [encode_of_isDigit hds, List.mem_map] at hb
  obtain ⟨c, hc, rfl⟩ := hb
  exact isDigit_ofNat (hds c hc)

theorem takeWhile_isDigit (hds : ∀ c ∈ ds, Decimal.isDigit c = true) {rest : Bytes} (hrest : EndsDigits rest) :
    (encode ds ++ rest).takeWhile isDigit = encode ds := by
  rw [List.takeWhile_append_of_pos (isDigit_of_mem_encode hds)]
  cases rest with
  | nil => simp
  | cons b bs => simp [hrest b rfl]

theorem dropWhile_isDigit (hds : ∀ c ∈ ds, Decimal.isDigit c = true) {rest : Bytes} (hrest : EndsDigits rest) :
    (encode ds ++ rest).dropWhile isDigit = rest := by
  rw [List.dropWhile_append_of_pos (isDigit_of_mem_encode hds)]
  cases rest with
  | nil => rfl
  | cons b bs => simp [hrest b rfl]

theorem length_encode (hds : ∀ c ∈ ds, Decimal.isDigit c = true) : (encode ds).length = ds.length := by
  rw [encode_of_isDigit hds, List.length_map]

theorem le_value (acc : Nat) (ds : List Char) : acc ≤ Decimal.value acc ds := by
  induction ds generalizing acc with
  | nil => exact Nat.le_refl acc
  | cons c cs ih =>
      calc
        acc ≤ acc * 10 + Decimal.digitValue c := by omega
        _ ≤ Decimal.value (acc * 10 + Decimal.digitValue c) cs := ih _

theorem gather_encode (hds : ∀ c ∈ ds, Decimal.isDigit c = true) {acc : Nat}
    (hfits : Decimal.value acc ds < Numeral.significandLimit) :
    Numeral.gather acc (encode ds) = (Decimal.value acc ds, ds.length) := by
  induction ds generalizing acc with
  | nil => rfl
  | cons c cs ih =>
      have hc := hds c List.mem_cons_self
      have hcs : ∀ x ∈ cs, Decimal.isDigit x = true := fun x hx => hds x (List.mem_cons_of_mem c hx)
      have hstep : Decimal.value acc (c :: cs) = Decimal.value (acc * 10 + Decimal.digitValue c) cs := rfl
      rw [hstep] at hfits ⊢
      have hlonger : acc * 10 + Decimal.digitValue c < Numeral.significandLimit :=
        Nat.lt_of_le_of_lt (le_value _ cs) hfits
      rw [encode_cons, encodeChar_of_isDigit hc, List.singleton_append]
      unfold Numeral.gather
      dsimp only
      rw [digitValue_ofNat hc, if_pos hlonger, ih hcs hfits]
      rfl

end Digits

theorem readAfterWhole_of_endsNumber (n : Nat) {rest : Bytes} (hrest : EndsNumber rest) :
    Numeral.readAfterWhole false n 0 rest = .ok (.natural n, rest) := by
  unfold Numeral.readAfterWhole
  split
  · exact absurd rfl (hrest _ rfl).2.1
  · exact absurd rfl (hrest _ rfl).2.2.1
  · exact absurd rfl (hrest _ rfl).2.2.2
  · rfl

theorem isDigit_of_readUnsigned {isNegative : Bool} {bs : Bytes} {found : Number × Bytes}
    (h : Numeral.readUnsigned isNegative bs = .ok found) : ∃ b more, bs = b :: more ∧ isDigit b = true := by
  unfold Numeral.readUnsigned at h
  split at h
  next => cases h
  next b more =>
    refine ⟨b, more, rfl, ?_⟩
    by_contra hb
    dsimp only at h
    rw [if_pos (.inl hb)] at h
    cases h

/-- Digits that may stand for the whole part of a number: a zero in front stands alone. -/
structure IsWhole (ds : List Char) : Prop where
  digits : ∀ c ∈ ds, Decimal.isDigit c = true
  nonempty : ds ≠ []
  noZero : ∀ cs, ds = '0' :: cs → cs = []

theorem isWhole_digits (n : Nat) : IsWhole (Decimal.digits n) where
  digits _ := Decimal.isDigit_of_mem_digits
  nonempty := Decimal.digits_ne_nil n
  noZero cs hcons := by
    obtain rfl := Decimal.eq_zero_of_head_zero hcons
    exact (List.cons.inj hcons).2.symm

theorem readUnsigned_gathered {ds : List Char} (hwhole : IsWhole ds) (isNegative : Bool) {rest : Bytes}
    (hrest : EndsDigits rest) :
    Numeral.readUnsigned isNegative (encode ds ++ rest) =
      Numeral.readAfterWhole isNegative (Numeral.gather 0 (encode ds)).1
        (ds.length - (Numeral.gather 0 (encode ds)).2) rest := by
  have hlength := length_encode hwhole.digits
  obtain ⟨c, cs, hcons⟩ := List.exists_cons_of_ne_nil hwhole.nonempty
  have hc : Decimal.isDigit c = true := hwhole.digits c (by simp [hcons])
  have hzero : ¬(¬isDigit (.ofNat c.toNat) = true ∨ UInt8.ofNat c.toNat = 0x30 ∧ 1 < (encode ds).length) := by
    rintro (hnot | ⟨hhead, hlong⟩)
    · exact hnot (isDigit_ofNat hc)
    · obtain rfl := eq_zero_of_ofNat hc hhead
      rw [hlength, hcons, hwhole.noZero cs hcons] at hlong
      exact absurd hlong (by decide)
  have hbytes : encode ds ++ rest = .ofNat c.toNat :: (encode cs ++ rest) := by
    rw [hcons, encode_cons, encodeChar_of_isDigit hc]
    rfl
  have htake := takeWhile_isDigit hwhole.digits hrest
  have hdrop := dropWhile_isDigit hwhole.digits hrest
  rw [hbytes] at htake hdrop ⊢
  unfold Numeral.readUnsigned
  dsimp only
  rw [htake, hdrop, if_neg hzero, hlength]

theorem readUnsigned_whole {ds : List Char} (hwhole : IsWhole ds)
    (hfits : Decimal.value 0 ds < Numeral.significandLimit) (isNegative : Bool) {rest : Bytes}
    (hrest : EndsDigits rest) :
    Numeral.readUnsigned isNegative (encode ds ++ rest) =
      Numeral.readAfterWhole isNegative (Decimal.value 0 ds) 0 rest := by
  rw [readUnsigned_gathered hwhole isNegative hrest, gather_encode hwhole.digits hfits, Nat.sub_self]

/-- **Round trip.** The decimal digits of an integer that fits 64 bits are read as that integer. -/
theorem readUnsigned_digits {n : Nat} (hn : n < Nat.pow 2 64) {rest : Bytes} (hrest : EndsNumber rest) :
    Numeral.readUnsigned false (encode (Decimal.digits n) ++ rest) = .ok (.natural n, rest) := by
  have hfits : Decimal.value 0 (Decimal.digits n) < Numeral.significandLimit := by
    rw [Decimal.value_digits]
    exact hn
  rw [readUnsigned_whole (isWhole_digits n) hfits false hrest.endsDigits, Decimal.value_digits]
  exact readAfterWhole_of_endsNumber n hrest

end LeaderLease.Json
