import Mathlib.Algebra.Group.Nat.Defs
import LeaderLease.Proofs.Text.Utf8

/-!
# What bytes fall into

Any bytes at all fall into encodings of characters and, where no character is encoded, longest parts that still begin
one. There is only one way to take them apart like this, and it is what the machine comes to that reads one byte after
the other: while a sequence is open, the bytes read so far begin the encodings of just the characters it still admits.
-/

namespace LeaderLease.Utf8

/-- The bytes are the first of the encoding of a character. -/
def BeginsCharacter (bs : Bytes) : Prop := ∃ c, bs <+: String.utf8EncodeChar c

/-- No character is encoded in front, and the part is as much of the front as begins one, or else the first byte. -/
structure IsMaximalPart (part bs : Bytes) : Prop where
  isFront : part <+: bs
  nonempty : part ≠ []
  begins : part.length = 1 ∨ BeginsCharacter part
  longest : ∀ longer, longer <+: bs → BeginsCharacter longer → longer.length ≤ part.length
  invalid : ∀ c, ¬ String.utf8EncodeChar c <+: bs

/-- The bytes taken apart into encoded characters and parts that belong to none. -/
inductive FallsInto : Bytes → List Piece → Prop
  | done : FallsInto [] []
  | character (c : Char) {rest : Bytes} {ps : List Piece} (hrest : FallsInto rest ps) :
      FallsInto (String.utf8EncodeChar c ++ rest) (some c :: ps)
  | part {bad rest : Bytes} {ps : List Piece} (hbad : IsMaximalPart bad (bad ++ rest)) (hrest : FallsInto rest ps) :
      FallsInto (bad ++ rest) (none :: ps)

section Bytes

variable {b : UInt8} {s : Sequence}

theorem piecesAfter_none_cons (b : UInt8) (rest : Bytes) :
    piecesAfter none (b :: rest) = (first b).1 ++ piecesAfter (first b).2 rest := rfl

theorem piecesAfter_some_cons (s : Sequence) (b : UInt8) (rest : Bytes) :
    piecesAfter (some s) (b :: rest) = (next s b).1 ++ piecesAfter (next s b).2 rest := rfl

theorem first_of_ascii (hb : b < 0x80) : first b = ([some (Char.ofNat b.toNat)], none) := if_pos hb

theorem first_of_start (hb : ¬ b < 0x80) (hstart : Sequence.start? b = some s) : first b = ([], some s) := by
  simp only [first, if_neg hb, hstart]

theorem first_of_no_start (hb : ¬ b < 0x80) (hstart : Sequence.start? b = none) : first b = ([none], none) := by
  simp only [first, if_neg hb, hstart]

theorem next_of_not_allows (hb : s.allows b = false) : next s b = (none :: (first b).1, (first b).2) :=
  if_neg (Bool.eq_false_iff.mp hb)

theorem piecesAfter_of_not_allows (hb : s.allows b = false) (rest : Bytes) :
    piecesAfter (some s) (b :: rest) = none :: piecesAfter none (b :: rest) := by
  rw [piecesAfter_some_cons, next_of_not_allows hb, piecesAfter_none_cons, List.cons_append]

end Bytes

/-- As many of the last bytes of the encoding of a code point. -/
def lastBytes : Nat → Nat → Bytes
  | 0, _ => []
  | n + 1, v => .ofNat (v / 64 ^ n % 64 + 0x80) :: lastBytes n v

section Encodings

variable {b : UInt8} {v : Nat}

theorem val_ofNat (hv : v.isValidChar) : (Char.ofNat v).val.toNat = v := by
  unfold Char.ofNat
  rw [dif_pos hv]
  rfl

theorem ofNat_eq {n : Nat} (h : b.toNat = n) : UInt8.ofNat n = b := by
  rw [← h, UInt8.ofNat_toNat]

theorem encodeChar_byte (hb : b < 0x80) : String.utf8EncodeChar (Char.ofNat b.toNat) = [b] := by
  have hsmall : b.toNat < 0x80 := UInt8.lt_iff_toNat_lt.mp hb
  have hval : (Char.ofNat b.toNat).toNat = b.toNat := val_ofNat (.inl (by omega))
  rw [encodeChar_of_ascii (by rw [hval]; exact hsmall), hval, UInt8.ofNat_toNat]

theorem encodeChar_two (hfirst : b.toNat = v / 64 % 0x20 + 0xC0) (hlow : 0x7F < v) (hhigh : v ≤ 0x7FF) :
    v.isValidChar ∧ String.utf8EncodeChar (Char.ofNat v) = b :: lastBytes 1 v := by
  have hvalid : v.isValidChar := .inl (by omega)
  refine ⟨hvalid, ?_⟩
  unfold String.utf8EncodeChar
  simp only [val_ofNat hvalid, Nat.not_le.mpr hlow, hhigh, if_true, if_false, lastBytes, Nat.pow_zero, Nat.div_one,
    ofNat_eq hfirst]

theorem encodeChar_three (hfirst : b.toNat = v / 4096 % 0x10 + 0xE0) (hlow : 0x7FF < v) (hhigh : v ≤ 0xFFFF)
    (hscalar : v < 0xD800 ∨ 0xDFFF < v) :
    v.isValidChar ∧ String.utf8EncodeChar (Char.ofNat v) = b :: lastBytes 2 v := by
  have hvalid : v.isValidChar := hscalar.imp_right fun h => ⟨h, by omega⟩
  have hone : ¬ v ≤ 0x7F := by omega
  refine ⟨hvalid, ?_⟩
  unfold String.utf8EncodeChar
  simp only [val_ofNat hvalid, hone, Nat.not_le.mpr hlow, hhigh, if_true, if_false, lastBytes, Nat.pow_zero,
    Nat.pow_one, Nat.div_one, ofNat_eq hfirst]

theorem encodeChar_four (hfirst : b.toNat = v / 262144 % 0x08 + 0xF0) (hlow : 0xFFFF < v) (hhigh : v < 0x110000) :
    v.isValidChar ∧ String.utf8EncodeChar (Char.ofNat v) = b :: lastBytes 3 v := by
  have hvalid : v.isValidChar := .inr ⟨by omega, hhigh⟩
  have hone : ¬ v ≤ 0x7F := by omega
  have htwo : ¬ v ≤ 0x7FF := by omega
  refine ⟨hvalid, ?_⟩
  unfold String.utf8EncodeChar
  simp only [val_ofNat hvalid, hone, htwo, Nat.not_le.mpr hlow, if_false, lastBytes, Nat.pow_zero, Nat.pow_one,
    Nat.div_one, Nat.reducePow, ofNat_eq hfirst]

end Encodings

namespace Sequence

/-- The code points that a sequence can still come to. -/
structure Admits (s : Sequence) (v : Nat) : Prop where
  front : v / 64 ^ (s.further + 1) = s.code
  lowest : s.lowest.toNat ≤ v / 64 ^ s.further % 64 + 0x80
  highest : v / 64 ^ s.further % 64 + 0x80 ≤ s.highest.toNat

/-- The bounds on the next byte are in order, and within those of all bytes but the first. -/
structure IsBounded (s : Sequence) : Prop where
  low : 0x80 ≤ s.lowest.toNat
  ordered : s.lowest.toNat ≤ s.highest.toNat
  high : s.highest.toNat ≤ 0xBF

variable {s : Sequence} {b : UInt8} {v : Nat}

theorem allows_iff : s.allows b = true ↔ s.lowest.toNat ≤ b.toNat ∧ b.toNat ≤ s.highest.toNat := by
  simp only [allows, Bool.and_eq_true, decide_eq_true_eq, UInt8.le_iff_toNat_le]

theorem start?_isBounded (h : start? b = some s) : s.IsBounded := by
  unfold start? at h
  split_ifs at h <;> obtain rfl := Option.some.inj h <;> constructor <;> simp

theorem start?_encodes (h : start? b = some s) (hv : s.Admits v) :
    v.isValidChar ∧ String.utf8EncodeChar (Char.ofNat v) = b :: lastBytes (s.further + 1) v := by
  obtain ⟨hfront, hlowest, hhighest⟩ := hv
  unfold start? at h
  simp only [UInt8.le_iff_toNat_le, ← UInt8.toNat_inj, UInt8.reduceToNat] at h
  -- The branches in order: `C2` to `DF`, then `E0`, `ED` and the rest of `E1` to `EF`, then `F0`, `F1` to `F3`, `F4`.
  split_ifs at h <;> obtain rfl := Option.some.inj h <;>
    simp only [UInt8.reduceToNat, Nat.zero_add, Nat.reduceAdd, Nat.reducePow, Nat.pow_zero, Nat.div_one]
      at hfront hlowest hhighest
  · exact encodeChar_two (by omega) (by omega) (by omega)
  · exact encodeChar_three (by omega) (by omega) (by omega) (by omega)
  · exact encodeChar_three (by omega) (by omega) (by omega) (by omega)
  · exact encodeChar_three (by omega) (by omega) (by omega) (by omega)
  · exact encodeChar_four (by omega) (by omega) (by omega)
  · exact encodeChar_four (by omega) (by omega) (by omega)
  · exact encodeChar_four (by omega) (by omega) (by omega)

/-- Having read the bytes, the machine is at the sequence, and all that this admits is encoded by these bytes and as
many last bytes as are missing. -/
structure Follows (s : Sequence) (bs : Bytes) : Prop extends s.IsBounded where
  opened : ∀ rest, piecesAfter none (bs ++ rest) = piecesAfter (some s) rest
  encodes : ∀ {v}, s.Admits v →
    v.isValidChar ∧ String.utf8EncodeChar (Char.ofNat v) = bs ++ lastBytes (s.further + 1) v

variable {bs : Bytes}

theorem IsBounded.exists_admitted (h : s.IsBounded) : ∃ v, s.Admits v := by
  obtain ⟨hlow, hordered, hhigh⟩ := h
  have hpos : 0 < 64 ^ s.further := Nat.pow_pos (by decide)
  have hquotient : (s.code * 64 + (s.lowest.toNat - 0x80)) * 64 ^ s.further / 64 ^ s.further =
      s.code * 64 + (s.lowest.toNat - 0x80) := Nat.mul_div_cancel _ hpos
  refine ⟨(s.code * 64 + (s.lowest.toNat - 0x80)) * 64 ^ s.further, ?_, ?_, ?_⟩
  · rw [Nat.pow_succ, ← Nat.div_div_eq_div_mul, hquotient]
    omega
  · rw [hquotient]
    omega
  · rw [hquotient]
    omega

theorem Follows.exists_encoding (h : s.Follows bs) : ∃ c b rest, String.utf8EncodeChar c = bs ++ b :: rest := by
  obtain ⟨v, hv⟩ := h.exists_admitted
  exact ⟨Char.ofNat v, _, _, (h.encodes hv).2⟩

theorem follows_first (h : start? b = some s) (hb : ¬ b < 0x80) : s.Follows [b] where
  toIsBounded := start?_isBounded h
  opened rest := by
    rw [List.singleton_append, piecesAfter_none_cons, first_of_start hb h, List.nil_append]
  encodes := start?_encodes h

theorem Follows.more {n : Nat} {low high : UInt8} {code : Nat} (h : Follows ⟨n + 1, low, high, code⟩ bs)
    (hb : allows ⟨n + 1, low, high, code⟩ b = true) :
    Follows ⟨n, 0x80, 0xBF, code * 64 + b.toNat % 64⟩ (bs ++ [b]) where
  low := by simp
  ordered := by simp
  high := by simp
  opened rest := by
    rw [List.append_assoc, List.singleton_append, h.opened, piecesAfter_some_cons, next, if_pos hb]
    rfl
  encodes := by
    intro v hv
    obtain ⟨hlow, hordered, hhigh⟩ := h.toIsBounded
    obtain ⟨hlower, hupper⟩ := allows_iff.mp hb
    obtain ⟨hfront, -, -⟩ := hv
    dsimp only at hfront hlower hupper hlow hhigh
    have hbits : v / 64 ^ (n + 1) % 64 + 0x80 = b.toNat := by omega
    have hcode : v / 64 ^ (n + 1 + 1) = code := by
      rw [Nat.pow_succ, ← Nat.div_div_eq_div_mul, hfront]
      omega
    obtain ⟨hvalid, hencode⟩ := h.encodes (v := v) ⟨hcode, by dsimp only; omega, by dsimp only; omega⟩
    refine ⟨hvalid, hencode.trans ?_⟩
    rw [List.append_assoc, List.singleton_append]
    change bs ++ .ofNat (v / 64 ^ (n + 1) % 64 + 0x80) :: lastBytes (n + 1) v = _
    rw [ofNat_eq hbits.symm]

theorem Follows.last {low high : UInt8} {code : Nat} (h : Follows ⟨0, low, high, code⟩ bs)
    (hb : allows ⟨0, low, high, code⟩ b = true) :
    String.utf8EncodeChar (Char.ofNat (code * 64 + b.toNat % 64)) = bs ++ [b] := by
  obtain ⟨hlow, hordered, hhigh⟩ := h.toIsBounded
  obtain ⟨hlower, hupper⟩ := allows_iff.mp hb
  dsimp only at hlower hupper hlow hhigh
  have hadmits : Admits ⟨0, low, high, code⟩ (code * 64 + b.toNat % 64) := by
    constructor <;> simp only [Nat.pow_zero, Nat.zero_add, Nat.pow_one, Nat.div_one] <;> omega
  have hbits : (code * 64 + b.toNat % 64) / 64 ^ 0 % 64 + 0x80 = b.toNat := by
    rw [Nat.pow_zero, Nat.div_one]
    omega
  rw [(h.encodes hadmits).2]
  change bs ++ [.ofNat ((code * 64 + b.toNat % 64) / 64 ^ 0 % 64 + 0x80)] = _
  rw [ofNat_eq hbits.symm]

end Sequence

/-! ### Maximal parts -/

theorem BeginsCharacter.of_isPrefix {part bs : Bytes} (h : BeginsCharacter bs) (hpart : part <+: bs) :
    BeginsCharacter part := by
  obtain ⟨c, hc⟩ := h
  exact ⟨c, hpart.trans hc⟩

theorem piecesAfter_of_isPrefix {c : Char} {bs : Bytes} (h : String.utf8EncodeChar c <+: bs) :
    (pieces bs).head? = some (some c) := by
  obtain ⟨rest, rfl⟩ := h
  rw [pieces, piecesAfter_encodeChar]
  rfl

theorem isMaximalPart_append {part rest : Bytes} (hpieces : pieces part = [none])
    (hbegins : part.length = 1 ∨ BeginsCharacter part)
    (hstop : ∀ b ∈ rest.head?, ¬ BeginsCharacter (part ++ [b])) : IsMaximalPart part (part ++ rest) := by
  have hlongest : ∀ longer, longer <+: part ++ rest → BeginsCharacter longer → longer.length ≤ part.length := by
    intro longer hlonger hcharacter
    cases rest with
    | nil => simpa using hlonger.length_le
    | cons b rest =>
        by_contra hlength
        have hmore : part ++ [b] <+: part ++ b :: rest := ⟨rest, by rw [List.append_assoc, List.singleton_append]⟩
        have hfront : part ++ [b] <+: longer := List.prefix_of_prefix_length_le hmore hlonger (by simp; omega)
        exact hstop b rfl (hcharacter.of_isPrefix hfront)
  refine ⟨List.prefix_append part rest, ?_, hbegins, hlongest, ?_⟩
  · rintro rfl
    cases hpieces
  · intro c hc
    have hlength := hlongest _ hc ⟨c, List.prefix_refl _⟩
    have hpart := piecesAfter_of_isPrefix (List.prefix_of_prefix_length_le hc (List.prefix_append part rest) hlength)
    rw [hpieces] at hpart
    cases hpart

theorem IsMaximalPart.length_le {part other bs : Bytes} (h : IsMaximalPart part bs) (hother : IsMaximalPart other bs) :
    part.length ≤ other.length := by
  obtain hone | hbegins := h.begins
  · rw [hone]
    exact List.length_pos_iff.mpr hother.nonempty
  · exact hother.longest part h.isFront hbegins

theorem IsMaximalPart.unique {part other bs : Bytes} (h : IsMaximalPart part bs) (hother : IsMaximalPart other bs) :
    part = other := by
  have hlength := h.length_le hother
  have hfront := List.prefix_of_prefix_length_le h.isFront hother.isFront hlength
  exact hfront.eq_of_length (Nat.le_antisymm hlength (hother.length_le h))

/-- The bytes that led to an open sequence are a maximal part if the sequence does not go on. -/
theorem Sequence.Follows.isMaximalPart {s : Sequence} {bs rest : Bytes} (h : s.Follows bs)
    (hstop : ∀ b ∈ rest.head?, s.allows b = false) : IsMaximalPart bs (bs ++ rest) := by
  apply isMaximalPart_append
  · rw [pieces, ← List.append_nil bs, h.opened]
    rfl
  · obtain ⟨c, b, more, hc⟩ := h.exists_encoding
    exact .inr ⟨c, hc ▸ List.prefix_append bs (b :: more)⟩
  · rintro b hb ⟨c, more, hc⟩
    have hcharacter := piecesAfter_encodeChar c []
    rw [List.append_nil, ← hc, List.append_assoc, List.singleton_append, h.opened,
      piecesAfter_of_not_allows (hstop b hb)] at hcharacter
    cases hcharacter

theorem isMaximalPart_byte {b : UInt8} (hb : ¬ b < 0x80) (hstart : Sequence.start? b = none) (rest : Bytes) :
    IsMaximalPart [b] (b :: rest) := by
  have hpieces : ∀ more, piecesAfter none (b :: more) = none :: piecesAfter none more := by
    intro more
    rw [piecesAfter_none_cons, first_of_no_start hb hstart, List.singleton_append]
  have hnone : ¬ BeginsCharacter [b] := by
    rintro ⟨c, more, hc⟩
    have hcharacter := piecesAfter_encodeChar c []
    rw [List.append_nil, ← hc, List.singleton_append, hpieces] at hcharacter
    cases hcharacter
  change IsMaximalPart [b] ([b] ++ rest)
  apply isMaximalPart_append (hpieces []) (.inl rfl)
  exact fun more _ hbegins => hnone (hbegins.of_isPrefix (List.prefix_append [b] [more]))

/-! ### The machine takes bytes apart -/

/-- Between characters the machine takes the rest apart, and within one the rest together with what it has read of it.
One byte leads from either case to one of the two. -/
theorem fallsInto_piecesAfter (bs : Bytes) :
    FallsInto bs (piecesAfter none bs) ∧
      ∀ (s : Sequence) (read : Bytes), s.Follows read → FallsInto (read ++ bs) (piecesAfter (some s) bs) := by
  induction bs with
  | nil => exact ⟨.done, fun s read h => .part (h.isMaximalPart nofun) .done⟩
  | cons b bs ih =>
      obtain ⟨hbetween, hwithin⟩ := ih
      have hstart : FallsInto (b :: bs) (piecesAfter none (b :: bs)) := by
        rw [piecesAfter_none_cons]
        by_cases hascii : b < 0x80
        · rw [first_of_ascii hascii]
          have hcharacter := FallsInto.character (Char.ofNat b.toNat) hbetween
          rwa [encodeChar_byte hascii] at hcharacter
        · cases hsequence : Sequence.start? b with
          | none =>
              rw [first_of_no_start hascii hsequence]
              exact .part (isMaximalPart_byte hascii hsequence bs) hbetween
          | some s =>
              rw [first_of_start hascii hsequence]
              exact hwithin s [b] (Sequence.follows_first hsequence hascii)
      refine ⟨hstart, fun s read h => ?_⟩
      by_cases hallowed : s.allows b = true
      · rw [piecesAfter_some_cons, next, if_pos hallowed]
        obtain ⟨further, low, high, code⟩ := s
        cases further with
        | zero =>
            have hcharacter := FallsInto.character (Char.ofNat (code * 64 + b.toNat % 64)) hbetween
            rwa [h.last hallowed, List.append_assoc] at hcharacter
        | succ n =>
            have hmore := hwithin _ _ (h.more hallowed)
            rw [List.append_assoc] at hmore
            exact hmore
      · have hrefused : s.allows b = false := Bool.eq_false_iff.mpr hallowed
        have hstop : ∀ next ∈ (b :: bs).head?, s.allows next = false := by
          rintro next ⟨⟩
          exact hrefused
        rw [piecesAfter_of_not_allows hrefused]
        exact .part (h.isMaximalPart hstop) hstart

namespace FallsInto

variable {bs rest : Bytes} {ps qs : List Piece}

theorem of_nil (h : FallsInto [] ps) : ps = [] := by
  generalize hbs : ([] : Bytes) = bs at h
  cases h with
  | done => rfl
  | character c hrest => exact absurd (List.append_eq_nil_iff.mp hbs.symm).1 String.utf8EncodeChar_ne_nil
  | part hbad hrest => exact absurd (List.append_eq_nil_iff.mp hbs.symm).1 hbad.nonempty

theorem of_character {c : Char} (h : FallsInto (String.utf8EncodeChar c ++ rest) ps) :
    ∃ qs, ps = some c :: qs ∧ FallsInto rest qs := by
  generalize hbs : String.utf8EncodeChar c ++ rest = bs at h
  cases h with
  | done => exact absurd (List.append_eq_nil_iff.mp hbs).1 String.utf8EncodeChar_ne_nil
  | @character other rest' qs hrest =>
      have hpieces := congrArg pieces hbs
      rw [pieces, pieces, piecesAfter_encodeChar, piecesAfter_encodeChar] at hpieces
      obtain rfl := Option.some.inj (List.cons.inj hpieces).1
      exact ⟨qs, rfl, List.append_cancel_left hbs ▸ hrest⟩
  | part hbad hrest => exact absurd ⟨rest, hbs⟩ (hbad.invalid c)

theorem of_part {bad : Bytes} (hbad : IsMaximalPart bad (bad ++ rest)) (h : FallsInto (bad ++ rest) ps) :
    ∃ qs, ps = none :: qs ∧ FallsInto rest qs := by
  generalize hbs : bad ++ rest = bs at h hbad
  cases h with
  | done => exact absurd (List.append_eq_nil_iff.mp hbs).1 hbad.nonempty
  | @character c rest' qs hrest => exact absurd ⟨rest', rfl⟩ (hbad.invalid c)
  | @part other rest' qs hother hrest =>
      obtain rfl := hbad.unique hother
      exact ⟨qs, rfl, List.append_cancel_left hbs ▸ hrest⟩

theorem unique (h : FallsInto bs ps) (hother : FallsInto bs qs) : qs = ps := by
  induction h generalizing qs with
  | done => exact hother.of_nil
  | character c hrest ih =>
      obtain ⟨more, rfl, hmore⟩ := hother.of_character
      rw [ih hmore]
  | part hbad hrest ih =>
      obtain ⟨more, rfl, hmore⟩ := hother.of_part hbad
      rw [ih hmore]

end FallsInto

/-- **The pieces of bytes.** They are the one way to take the bytes apart into characters and maximal parts. -/
theorem fallsInto_iff {bs : Bytes} {ps : List Piece} : FallsInto bs ps ↔ ps = pieces bs := by
  have hpieces : FallsInto bs (pieces bs) := (fallsInto_piecesAfter bs).1
  exact ⟨fun h => hpieces.unique h, fun h => h ▸ hpieces⟩

theorem FallsInto.eq_encode {bs : Bytes} {text : List Char} (h : FallsInto bs (text.map some)) : bs = encode text := by
  induction text generalizing bs with
  | nil => cases h with | done => rfl
  | cons c cs ih => cases h with | character _ hrest => rw [encode_cons, ih hrest]

theorem eq_map_some_of_mapM {ps : List Piece} {text : List Char} (h : ps.mapM id = some text) :
    ps = text.map some := by
  induction ps generalizing text with
  | nil =>
      obtain rfl := Option.some.inj h
      rfl
  | cons p ps ih =>
      rw [List.mapM_cons] at h
      obtain ⟨c, hc, hrest⟩ := Option.bind_eq_some_iff.mp h
      obtain ⟨cs, hcs, htext⟩ := Option.bind_eq_some_iff.mp hrest
      obtain rfl := Option.some.inj htext
      change p = some c at hc
      rw [List.map_cons, ← ih hcs, hc]

theorem decode?_eq_some_iff {bs : Bytes} {text : List Char} : decode? bs = some text ↔ bs = encode text := by
  refine ⟨fun h => ?_, fun h => h ▸ decode?_encode text⟩
  have hpieces : pieces bs = text.map some := eq_map_some_of_mapM h
  exact FallsInto.eq_encode (fallsInto_iff.mpr hpieces.symm)

end LeaderLease.Utf8
