import LeaderLease.Json.Scan
import LeaderLease.Json.Write
import LeaderLease.Proofs.Text.Utf8

/-!
# Texts between quotation marks

Reading takes back exactly what writing puts between quotation marks, for every text. The reader works on bytes and the
writer on characters: a character that is written as it stands has no byte that means anything to the reader, and an
escaped one is a single unit for it.
-/

namespace LeaderLease.Json

open Utf8

def IsPlain (b : UInt8) : Prop := ¬b < 0x20 ∧ b ≠ quote ∧ b ≠ backslash

theorem readUnit_of_isPlain {b : UInt8} (hb : IsPlain b) (bs : Bytes) : readUnit (b :: bs) = .ok (some [b], bs) := by
  obtain ⟨hcontrol, hquote, hbackslash⟩ := hb
  unfold readUnit
  split
  · next heq => cases heq
  · next heq => exact absurd (List.cons.inj heq).1 hquote
  · next heq => exact absurd (List.cons.inj heq).1 hbackslash
  · next heq =>
    cases heq
    exact if_neg hcontrol

theorem readUnit_backslash {bs rest : Bytes} {c : Char} (h : readEscape bs = .ok (c, rest)) :
    readUnit (backslash :: bs) = .ok (some (encode [c]), rest) := by
  change (readEscape bs >>= _) = _
  rw [h]
  rfl

theorem readContent_quote (rest : Bytes) : readContent (quote :: rest) = .ok ([], rest) := by
  have hunit : readUnit (quote :: rest) = .ok (none, rest) := rfl
  rw [readContent]
  split
  · next heq => rw [hunit] at heq; cases heq
  · next heq => rw [hunit] at heq; cases heq; rfl
  · next heq => rw [hunit] at heq; cases heq

theorem readContent_of_readUnit {bs rest unit content left : Bytes} (hunit : readUnit bs = .ok (some unit, rest))
    (hcontent : readContent rest = .ok (content, left)) : readContent bs = .ok (unit ++ content, left) := by
  rw [readContent]
  split
  · next heq => rw [hunit] at heq; cases heq
  · next heq => rw [hunit] at heq; cases heq
  · next heq =>
    rw [hunit] at heq
    cases heq
    rw [hcontent]
    rfl

theorem readContent_of_isPlain {plain rest content left : Bytes} (hplain : ∀ b ∈ plain, IsPlain b)
    (hcontent : readContent rest = .ok (content, left)) :
    readContent (plain ++ rest) = .ok (plain ++ content, left) := by
  induction plain with
  | nil => exact hcontent
  | cons b bs ih =>
      have htail := ih fun x hx => hplain x (List.mem_cons_of_mem b hx)
      have hunit := readUnit_of_isPlain (hplain b List.mem_cons_self) (bs ++ rest)
      have hcons := readContent_of_readUnit hunit htail
      exact hcons

theorem eq_or_ge_of_mem_encodeChar {c : Char} {b : UInt8} (hb : b ∈ String.utf8EncodeChar c) :
    b.toNat = c.toNat ∨ 0x80 ≤ b.toNat := by
  change b.toNat = c.val.toNat ∨ _
  unfold String.utf8EncodeChar at hb
  dsimp only at hb
  generalize c.val.toNat = v at *
  split_ifs at hb with hone htwo hthree
  · rw [List.mem_singleton] at hb
    subst hb
    exact .inl (toNat_ofNat_of_lt (by omega))
  all_goals
    simp only [List.mem_cons, List.not_mem_nil, or_false] at hb
    right
  · rcases hb with rfl | rfl <;> rw [toNat_ofNat_of_lt (by omega)] <;> omega
  · rcases hb with rfl | rfl | rfl <;> rw [toNat_ofNat_of_lt (by omega)] <;> omega
  · rcases hb with rfl | rfl | rfl | rfl <;> rw [toNat_ofNat_of_lt (by omega)] <;> omega

theorem isPlain_of_mem_encodeChar {c : Char} (hquote : c ≠ '"') (hbackslash : c ≠ '\\') (hcontrol : ¬c < ' ')
    {b : UInt8} (hb : b ∈ String.utf8EncodeChar c) : IsPlain b := by
  have hspace : 32 ≤ c.toNat := by
    rw [Char.lt_def, UInt32.lt_iff_toNat_lt] at hcontrol
    exact Nat.not_lt.mp hcontrol
  have hbyte := eq_or_ge_of_mem_encodeChar hb
  refine ⟨?_, ?_, ?_⟩
  · rw [UInt8.lt_iff_toNat_lt]
    change ¬ b.toNat < 32
    omega
  · rintro rfl
    rcases hbyte with heq | hge
    · exact hquote (Char.toNat_inj.mp heq.symm)
    · exact absurd hge (by decide)
  · rintro rfl
    rcases hbyte with heq | hge
    · exact hbackslash (Char.toNat_inj.mp heq.symm)
    · exact absurd hge (by decide)

theorem hexValue?_digitChar : ∀ n < 16, hexValue? (.ofNat (Nat.digitChar n).toNat) = some n := by decide

theorem encodeChar_digitChar : ∀ n < 16,
    String.utf8EncodeChar (Nat.digitChar n) = [.ofNat (Nat.digitChar n).toNat] := by decide

theorem readEscape_control {c : Char} (hc : c < ' ') (rest : Bytes) :
    readEscape (letterU :: 0x30 :: 0x30 ::
      (String.utf8EncodeChar (Nat.digitChar (c.toNat / 16)) ++
        (String.utf8EncodeChar (Nat.digitChar (c.toNat % 16)) ++ rest))) = .ok (c, rest) := by
  have hsmall : c.toNat < 32 := by
    rwa [Char.lt_def, UInt32.lt_iff_toNat_lt] at hc
  rw [encodeChar_digitChar _ (by omega), encodeChar_digitChar _ (by omega)]
  have hhex : readHex (0x30 :: 0x30 :: .ofNat (Nat.digitChar (c.toNat / 16)).toNat ::
      .ofNat (Nat.digitChar (c.toNat % 16)).toNat :: rest) = .ok (c.toNat, rest) := by
    have hzero : hexValue? 0x30 = some 0 := rfl
    have hsum : ((0 * 16 + 0) * 16 + c.toNat / 16) * 16 + c.toNat % 16 = c.toNat := by omega
    simp only [readHex, hzero, hexValue?_digitChar _ (show c.toNat / 16 < 16 by omega),
      hexValue?_digitChar _ (show c.toNat % 16 < 16 by omega), hsum]
  have htrailing : isTrailingSurrogate c.toNat = false := by
    simp only [isTrailingSurrogate, Bool.and_eq_false_imp, decide_eq_true_eq]
    omega
  have hleading : isLeadingSurrogate c.toNat = false := by
    simp only [isLeadingSurrogate, Bool.and_eq_false_imp, decide_eq_true_eq]
    omega
  change readCodedChar (0x30 :: 0x30 :: .ofNat (Nat.digitChar (c.toNat / 16)).toNat ::
      .ofNat (Nat.digitChar (c.toNat % 16)).toNat :: rest) = _
  unfold readCodedChar
  rw [hhex]
  change (if isTrailingSurrogate c.toNat = true then _ else if isLeadingSurrogate c.toNat = true then _ else _) = _
  rw [htrailing, hleading]
  change Except.ok (Char.ofNat c.toNat, rest) = _
  rw [Char.ofNat_toNat]

theorem readContent_backslash {c : Char} {bs rest content left : Bytes} (h : readEscape bs = .ok (c, rest))
    (hcontent : readContent rest = .ok (content, left)) :
    readContent (backslash :: bs) = .ok (String.utf8EncodeChar c ++ content, left) := by
  have hbackslash := readContent_of_readUnit (readUnit_backslash h) hcontent
  rwa [encode_cons, encode_nil, List.append_nil] at hbackslash

theorem readContent_escape (c : Char) {rest content left : Bytes} (hcontent : readContent rest = .ok (content, left)) :
    readContent (encode (escape c) ++ rest) = .ok (String.utf8EncodeChar c ++ content, left) := by
  have hunit {bs : Bytes} (h : readEscape bs = .ok (c, rest)) :
      readContent (backslash :: bs) = .ok (String.utf8EncodeChar c ++ content, left) :=
    readContent_backslash h hcontent
  unfold escape
  split_ifs with h1 h2 h3 h4 h5 h6 h7 h8
  · subst h1; exact hunit rfl
  · subst h2; exact hunit rfl
  · subst h3; exact hunit rfl
  · subst h4; exact hunit rfl
  · subst h5; exact hunit rfl
  · subst h6; exact hunit rfl
  · subst h7; exact hunit rfl
  · have hread := hunit (readEscape_control h8 rest)
    simp only [encode_cons, encode_nil, List.append_nil, List.append_assoc]
    exact hread
  · rw [encode_cons, encode_nil, List.append_nil]
    exact readContent_of_isPlain (fun b hb => isPlain_of_mem_encodeChar h1 h2 h8 hb) hcontent

theorem readContent_write (text : List Char) (rest : Bytes) :
    readContent (encode (text.flatMap escape) ++ quote :: rest) = .ok (encode text, rest) := by
  induction text with
  | nil => exact readContent_quote rest
  | cons c cs ih =>
      rw [List.flatMap_cons, encode_append, List.append_assoc, encode_cons]
      exact readContent_escape c ih

def afterQuote (s : String) (rest : Bytes) : Bytes := encode (s.toList.flatMap escape) ++ quote :: rest

/-- **Round trip.** The reader of texts gets back the text that was written, and stops after it. -/
theorem readText_afterQuote (s : String) (rest : Bytes) : readText (afterQuote s rest) = .ok (s, rest) := by
  rw [readText, afterQuote, readContent_write]
  dsimp only [bind, Except.bind]
  rw [decode?_encode]
  change Except.ok (String.ofList s.toList, rest) = _
  rw [String.ofList_toList]

theorem encode_writeText (s : String) (rest : Bytes) : encode (writeText s) ++ rest = quote :: afterQuote s rest := by
  simp only [writeText, afterQuote, List.cons_append, encode_cons, encode_append, encode_nil, List.append_nil,
    List.append_assoc]
  rfl

end LeaderLease.Json
