import LeaderLease.Json.Skip
import LeaderLease.Proofs.Json.Grammar
import LeaderLease.Proofs.Json.Text

/-!
# Texts in any spelling

A text between quotation marks is read as what it spells, whichever escapes are used for it, and is passed over whether
it spells a text or not. Both readers go glyph by glyph.
-/

namespace LeaderLease.Json

open Utf8

namespace Blanks

theorem isBlank_of_mem (b : Blanks) {byte : UInt8} (hbyte : byte ∈ encode b.chars) : isBlank byte = true := by
  obtain ⟨c, hc, hmem⟩ := List.mem_flatMap.mp hbyte
  obtain rfl | rfl | rfl | rfl := b.areBlank c hc <;> obtain rfl := List.mem_singleton.mp hmem <;> rfl

theorem skipBlanks_append (b : Blanks) (bs : Bytes) : skipBlanks (encode b.chars ++ bs) = skipBlanks bs :=
  List.dropWhile_append_of_pos fun _ => b.isBlank_of_mem

theorem endsNumber_append (b : Blanks) {rest : Bytes} (hrest : EndsNumber rest) :
    EndsNumber (encode b.chars ++ rest) := by
  cases hbytes : encode b.chars with
  | nil => exact hrest
  | cons byte more =>
      have hblank := b.isBlank_of_mem (hbytes ▸ List.mem_cons_self)
      refine endsNumber_cons ?_ ?_ ?_ ?_ (more ++ rest)
      · rw [Bool.eq_false_iff]
        intro hdigit
        simp only [isBlank, Bool.or_eq_true, beq_iff_eq] at hblank
        obtain ((rfl | rfl) | rfl) | rfl := hblank <;> exact absurd hdigit (by decide)
      all_goals
        rintro rfl
        exact absurd hblank (by decide)

end Blanks

namespace HexDigit

theorem toNat_lt (d : HexDigit) : d.char.toNat < 0x80 := by
  have hhex := d.isHex
  simp only [Char.le_def, UInt32.le_iff_toNat_le] at hhex
  change d.char.val.toNat < 0x80
  obtain ⟨-, h⟩ | ⟨-, h⟩ | ⟨-, h⟩ := hhex <;> exact Nat.lt_of_le_of_lt h (by decide)

theorem hexValue?_char (d : HexDigit) : hexValue? (.ofNat d.char.toNat) = some d.value := by
  have hbyte : (UInt8.ofNat d.char.toNat).toNat = d.char.toNat :=
    toNat_ofNat_of_lt (Nat.lt_trans d.toNat_lt (by decide))
  have hhex := d.isHex
  simp only [hexValue?, value, Char.le_def, UInt32.le_iff_toNat_le, UInt8.le_iff_toNat_le, hbyte] at hhex ⊢
  change 48 ≤ d.char.toNat ∧ d.char.toNat ≤ 57 ∨ 65 ≤ d.char.toNat ∧ d.char.toNat ≤ 70 ∨
    97 ≤ d.char.toNat ∧ d.char.toNat ≤ 102 at hhex
  change (if 48 ≤ d.char.toNat ∧ d.char.toNat ≤ 57 then some (d.char.toNat - 48)
    else if 65 ≤ d.char.toNat ∧ d.char.toNat ≤ 70 then some (d.char.toNat - 65 + 10)
    else if 97 ≤ d.char.toNat ∧ d.char.toNat ≤ 102 then some (d.char.toNat - 97 + 10) else none) =
      some (if d.char.toNat ≤ 57 then d.char.toNat - 48 else if d.char.toNat ≤ 70 then d.char.toNat - 65 + 10
        else d.char.toNat - 97 + 10)
  split_ifs <;> first | rfl | omega

end HexDigit

theorem CodeUnit.readHex_chars (u : CodeUnit) (rest : Bytes) :
    readHex (encode u.chars ++ rest) = .ok (u.value, rest) := by
  obtain ⟨a, b, c, d⟩ := u
  simp only [chars, encode_cons, encode_nil, encodeChar_of_ascii (HexDigit.toNat_lt _), List.append_nil,
    List.cons_append, List.nil_append, readHex, HexDigit.hexValue?_char]
  rfl

theorem CodeUnit.readEscape_alone {u : CodeUnit} (hleading : ¬isLeadingSurrogate u.value = true)
    (htrailing : ¬isTrailingSurrogate u.value = true) (rest : Bytes) :
    readEscape (letterU :: (encode u.chars ++ rest)) = .ok (.ofNat u.value, rest) := by
  change readCodedChar (encode u.chars ++ rest) = _
  unfold readCodedChar
  rw [u.readHex_chars]
  change (if isTrailingSurrogate u.value = true then _ else if isLeadingSurrogate u.value = true then _ else _) = _
  rw [if_neg htrailing, if_neg hleading]
  rfl

theorem CodeUnit.readEscape_pair {u v : CodeUnit} (hleading : isLeadingSurrogate u.value = true)
    (htrailing : isTrailingSurrogate v.value = true) (rest : Bytes) :
    readEscape (letterU :: (encode u.chars ++ backslash :: letterU :: (encode v.chars ++ rest))) =
      .ok (u.paired v, rest) := by
  have hnot : ¬isTrailingSurrogate u.value = true := by
    simp only [isLeadingSurrogate, isTrailingSurrogate, Bool.and_eq_true, decide_eq_true_eq] at hleading ⊢
    omega
  have hsecond : readTrailingSurrogate (backslash :: letterU :: (encode v.chars ++ rest)) = .ok (v.value, rest) := by
    change (readHex (encode v.chars ++ rest) >>= _) = _
    rw [v.readHex_chars]
    change (if isTrailingSurrogate v.value = true then _ else _) = _
    rw [if_pos htrailing]
    rfl
  change readCodedChar (encode u.chars ++ backslash :: letterU :: (encode v.chars ++ rest)) = _
  unfold readCodedChar
  rw [u.readHex_chars]
  change (if isTrailingSurrogate u.value = true then _ else if isLeadingSurrogate u.value = true then _ else _) = _
  rw [if_neg hnot, if_pos hleading]
  rw [hsecond]
  rfl

theorem escapedChar?_of_mem : ∀ e ∈ shortEscapes, e.1.toNat < 0x80 ∧ UInt8.ofNat e.1.toNat ≠ letterU ∧
    escapedChar? (.ofNat e.1.toNat) = some e.2 := by
  decide

theorem readEscape_short {letter c : Char} (h : (letter, c) ∈ shortEscapes) (rest : Bytes) :
    readEscape (.ofNat letter.toNat :: rest) = .ok (c, rest) := by
  obtain ⟨-, hcoded, hchar⟩ := escapedChar?_of_mem (letter, c) h
  unfold readEscape
  split
  · next heq => cases heq
  · next heq => exact absurd (List.cons.inj heq).1 hcoded
  · next heq =>
    obtain ⟨rfl, rfl⟩ := List.cons.inj heq
    rw [hchar]

namespace Glyph

theorem encode_short {letter c : Char} (h : (letter, c) ∈ shortEscapes) (bs : Bytes) :
    encode (short letter c h).chars ++ bs = backslash :: .ofNat letter.toNat :: bs := by
  have hletter := encodeChar_of_ascii (escapedChar?_of_mem (letter, c) h).1
  rw [chars, encode_cons, encode_cons, hletter]
  rfl

theorem encode_coded (u : CodeUnit) (bs : Bytes) :
    encode (coded u).chars ++ bs = backslash :: letterU :: (encode u.chars ++ bs) := rfl

theorem encode_more (g : Glyph) (more : List Glyph) (bs : Bytes) :
    encode ((g :: more).flatMap chars) ++ bs = encode g.chars ++ (encode (more.flatMap chars) ++ bs) := by
  rw [List.flatMap_cons, encode_append, List.append_assoc]

theorem readContent_glyphs {glyphs : List Glyph} {text : List Char} (h : text? glyphs = some text) (rest : Bytes) :
    readContent (encode (glyphs.flatMap chars) ++ quote :: rest) = .ok (encode text, rest) := by
  fun_induction text? glyphs generalizing text with
  | case1 =>
      obtain rfl := Option.some.inj h
      exact readContent_quote rest
  | case2 c hplain more ih =>
      obtain ⟨tail, htail, rfl⟩ := Option.map_eq_some_iff.mp h
      rw [encode_more, chars, encode_cons, encode_cons, encode_nil, List.append_nil]
      exact readContent_of_isPlain
        (fun b hb => isPlain_of_mem_encodeChar hplain.2.1 hplain.2.2 hplain.1 hb) (ih htail)
  | case3 letter c hescape more ih =>
      obtain ⟨tail, htail, rfl⟩ := Option.map_eq_some_iff.mp h
      rw [encode_more, encode_short]
      exact readContent_backslash (readEscape_short hescape _) (ih htail)
  | case4 u v more hleading htrailing ih =>
      obtain ⟨tail, htail, rfl⟩ := Option.map_eq_some_iff.mp h
      rw [encode_more, encode_coded, encode_more, encode_coded]
      exact readContent_backslash (CodeUnit.readEscape_pair hleading htrailing _) (ih htail)
  | case5 => cases h
  | case6 => cases h
  | case7 u v more hleading htrailing ih =>
      obtain ⟨tail, htail, rfl⟩ := Option.map_eq_some_iff.mp h
      rw [encode_more, encode_coded]
      exact readContent_backslash (CodeUnit.readEscape_alone hleading htrailing _) (ih htail)
  | case8 => cases h
  | case9 u more hnext halone ih =>
      obtain ⟨tail, htail, rfl⟩ := Option.map_eq_some_iff.mp h
      obtain ⟨hleading, htrailing⟩ := not_or.mp halone
      rw [encode_more, encode_coded]
      exact readContent_backslash (CodeUnit.readEscape_alone hleading htrailing _) (ih htail)

end Glyph

namespace Skip

theorem pastText_quote (rest : Bytes) : pastText (quote :: rest) = .ok rest := by
  rw [pastText, if_pos rfl]

theorem pastText_of_isPlain {plain : Bytes} (hplain : ∀ b ∈ plain, IsPlain b) (bs : Bytes) :
    pastText (plain ++ bs) = pastText bs := by
  induction plain with
  | nil => rfl
  | cons b more ih =>
      obtain ⟨hcontrol, hquote, hbackslash⟩ := hplain b List.mem_cons_self
      rw [List.cons_append, pastText, if_neg hquote, if_neg hbackslash, if_neg hcontrol]
      exact ih fun x hx => hplain x (List.mem_cons_of_mem b hx)

theorem pastText_backslash {bs rest : Bytes} (h : pastEscape bs = .ok rest) :
    pastText (backslash :: bs) = pastText rest := by
  rw [pastText, if_neg (by decide), if_pos rfl]
  split
  · next heq => rw [h] at heq; cases heq
  · next heq => rw [h] at heq; cases heq; rfl

theorem pastEscape_short {letter c : Char} (h : (letter, c) ∈ shortEscapes) (rest : Bytes) :
    pastEscape (.ofNat letter.toNat :: rest) = .ok rest := by
  obtain ⟨-, hcoded, hchar⟩ := escapedChar?_of_mem (letter, c) h
  unfold pastEscape
  split
  · next heq => cases heq
  · next heq => exact absurd (List.cons.inj heq).1 hcoded
  · next heq =>
    obtain ⟨rfl, rfl⟩ := List.cons.inj heq
    rw [hchar]
    rfl

theorem pastEscape_coded (u : CodeUnit) (rest : Bytes) :
    pastEscape (letterU :: (encode u.chars ++ rest)) = .ok rest := by
  change (do return (← readHex (encode u.chars ++ rest)).2) = _
  rw [u.readHex_chars]
  rfl

theorem pastText_glyphs (glyphs : List Glyph) (rest : Bytes) :
    pastText (encode (glyphs.flatMap Glyph.chars) ++ quote :: rest) = .ok rest := by
  induction glyphs with
  | nil => exact pastText_quote rest
  | cons g more ih =>
      rw [Glyph.encode_more]
      cases g with
      | plain c hplain =>
          rw [Glyph.chars, encode_cons, encode_nil, List.append_nil, pastText_of_isPlain, ih]
          exact fun b hb => isPlain_of_mem_encodeChar hplain.2.1 hplain.2.2 hplain.1 hb
      | short letter c hescape =>
          rw [Glyph.encode_short, pastText_backslash (pastEscape_short hescape _), ih]
      | coded u =>
          rw [Glyph.encode_coded, pastText_backslash (pastEscape_coded u _), ih]

end Skip

namespace Spelling

def afterQuote (s : Spelling) (rest : Bytes) : Bytes := encode (s.glyphs.flatMap Glyph.chars) ++ quote :: rest

theorem encode_chars (s : Spelling) (rest : Bytes) : encode s.chars ++ rest = quote :: s.afterQuote rest := by
  simp only [chars, afterQuote, encode_cons, encode_append, encode_nil, List.append_nil, List.append_assoc]
  rfl

theorem readText_afterQuote {s : Spelling} {text : String} (h : s.text? = some text) (rest : Bytes) :
    readText (s.afterQuote rest) = .ok (text, rest) := by
  obtain ⟨chars, hchars, rfl⟩ := Option.map_eq_some_iff.mp h
  rw [readText, afterQuote, Glyph.readContent_glyphs hchars]
  dsimp only [bind, Except.bind]
  rw [decode?_encode]
  rfl

theorem pastText_afterQuote (s : Spelling) (rest : Bytes) : Skip.pastText (s.afterQuote rest) = .ok rest :=
  Skip.pastText_glyphs s.glyphs rest

end Spelling

end LeaderLease.Json
