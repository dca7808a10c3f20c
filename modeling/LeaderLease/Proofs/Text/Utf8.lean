import Mathlib.Data.Nat.Basic
import Mathlib.Tactic.Common
import LeaderLease.Text.Utf8

/-!
# Encoding and decoding

Every text comes back from its UTF-8 encoding. The machine that reads bytes is followed through the one to four bytes
of a character; since it is back at the start after each, the rest is an induction over the text.
-/

namespace LeaderLease.Utf8

theorem toNat_ofNat_of_lt {n : Nat} (hn : n < 256) : (UInt8.ofNat n).toNat = n := by
  rw [UInt8.toNat_ofNat']
  exact Nat.mod_eq_of_lt hn

namespace Sequence

theorem allows_ofNat {s : Sequence} {n : Nat} (hn : n < 256) (hlow : s.lowest.toNat ≤ n) (hhigh : n ≤ s.highest.toNat) :
    s.allows (.ofNat n) = true := by
  simp only [allows, Bool.and_eq_true, decide_eq_true_eq, UInt8.le_iff_toNat_le, toNat_ofNat_of_lt hn]
  exact ⟨hlow, hhigh⟩

theorem start?_two {n : Nat} (hlow : 0xC2 ≤ n) (hhigh : n ≤ 0xDF) :
    start? (.ofNat n) = some ⟨0, 0x80, 0xBF, n % 32⟩ := by
  have hn : (UInt8.ofNat n).toNat = n := toNat_ofNat_of_lt (by omega)
  simp only [start?, UInt8.le_iff_toNat_le, hn]
  exact if_pos ⟨hlow, hhigh⟩

theorem start?_three {n : Nat} (hlow : 0xE0 ≤ n) (hhigh : n ≤ 0xEF) :
    start? (.ofNat n) =
      some ⟨1, if n = 0xE0 then 0xA0 else 0x80, if n = 0xED then 0x9F else 0xBF, n % 16⟩ := by
  have hn : (UInt8.ofNat n).toNat = n := toNat_ofNat_of_lt (by omega)
  simp only [start?, UInt8.le_iff_toNat_le, ← UInt8.toNat_inj, hn, UInt8.reduceToNat]
  split_ifs <;> first | rfl | omega

theorem start?_four {n : Nat} (hlow : 0xF0 ≤ n) (hhigh : n ≤ 0xF4) :
    start? (.ofNat n) =
      some ⟨2, if n = 0xF0 then 0x90 else 0x80, if n = 0xF4 then 0x8F else 0xBF, n % 8⟩ := by
  have hn : (UInt8.ofNat n).toNat = n := toNat_ofNat_of_lt (by omega)
  simp only [start?, UInt8.le_iff_toNat_le, ← UInt8.toNat_inj, hn, UInt8.reduceToNat]
  split_ifs <;> first | rfl | omega

end Sequence

theorem first_ofNat {n : Nat} (hlow : 0x80 ≤ n) (hhigh : n < 256) {s : Sequence}
    (hs : Sequence.start? (.ofNat n) = some s) : first (.ofNat n) = ([], some s) := by
  have hnot : ¬ (UInt8.ofNat n) < 0x80 := by
    rw [UInt8.lt_iff_toNat_lt, toNat_ofNat_of_lt hhigh]
    exact Nat.not_lt.mpr hlow
  simp only [first, if_neg hnot, hs]

theorem next_last (low high : UInt8) (code : Nat) {bits : Nat} (hbits : bits < 64) (hlow : low.toNat ≤ bits + 0x80)
    (hhigh : bits + 0x80 ≤ high.toNat) :
    next ⟨0, low, high, code⟩ (.ofNat (bits + 0x80)) = ([some (Char.ofNat (code * 64 + bits))], none) := by
  have hn : (UInt8.ofNat (bits + 0x80)).toNat = bits + 0x80 := toNat_ofNat_of_lt (by omega)
  have hmod : (bits + 0x80) % 64 = bits := by omega
  rw [next, if_pos (Sequence.allows_ofNat (by omega) hlow hhigh), hn, hmod]

theorem next_more (further : Nat) (low high : UInt8) (code : Nat) {bits : Nat} (hbits : bits < 64)
    (hlow : low.toNat ≤ bits + 0x80) (hhigh : bits + 0x80 ≤ high.toNat) :
    next ⟨further + 1, low, high, code⟩ (.ofNat (bits + 0x80)) =
      ([], some ⟨further, 0x80, 0xBF, code * 64 + bits⟩) := by
  have hn : (UInt8.ofNat (bits + 0x80)).toNat = bits + 0x80 := toNat_ofNat_of_lt (by omega)
  have hmod : (bits + 0x80) % 64 = bits := by omega
  rw [next, if_pos (Sequence.allows_ofNat (by omega) hlow hhigh), hn, hmod]

section Characters

variable {v : Nat} (rest : Bytes)

theorem piecesAfter_one (hv : v ≤ 0x7F) :
    piecesAfter none (.ofNat v :: rest) = some (Char.ofNat v) :: piecesAfter none rest := by
  have hn : (UInt8.ofNat v).toNat = v := toNat_ofNat_of_lt (by omega)
  have hsmall : UInt8.ofNat v < 0x80 := by
    rw [UInt8.lt_iff_toNat_lt, hn]
    exact Nat.lt_succ_of_le hv
  simp only [piecesAfter, first, if_pos hsmall, hn, List.cons_append, List.nil_append]

theorem piecesAfter_two (hlow : 0x7F < v) (hhigh : v ≤ 0x7FF) :
    piecesAfter none (.ofNat (v / 64 % 0x20 + 0xC0) :: .ofNat (v % 0x40 + 0x80) :: rest) =
      some (Char.ofNat v) :: piecesAfter none rest := by
  have hstart := Sequence.start?_two (n := v / 64 % 0x20 + 0xC0) (by omega) (by omega)
  have hcode : (v / 64 % 0x20 + 0xC0) % 32 * 64 + v % 0x40 = v := by omega
  have hbits : v % 0x40 < 64 := by omega
  have hlast := next_last 0x80 0xBF ((v / 64 % 0x20 + 0xC0) % 32) hbits (by simp) (by simp; omega)
  rw [hcode] at hlast
  simp only [piecesAfter, first_ofNat (by omega) (by omega) hstart, hlast, List.nil_append, List.cons_append]

/-- Surrogates have no encoding: they are what the bounds after `ED` leave out. -/
theorem piecesAfter_three (hlow : 0x7FF < v) (hhigh : v ≤ 0xFFFF) (hscalar : v < 0xD800 ∨ 0xDFFF < v) :
    piecesAfter none
        (.ofNat (v / 4096 % 0x10 + 0xE0) :: .ofNat (v / 64 % 0x40 + 0x80) :: .ofNat (v % 0x40 + 0x80) :: rest) =
      some (Char.ofNat v) :: piecesAfter none rest := by
  have hstart := Sequence.start?_three (n := v / 4096 % 0x10 + 0xE0) (by omega) (by omega)
  have hmiddle : v / 64 % 0x40 < 64 := by omega
  have hbits : v % 0x40 < 64 := by omega
  have hmore := next_more 0 (if v / 4096 % 0x10 + 0xE0 = 0xE0 then 0xA0 else 0x80)
    (if v / 4096 % 0x10 + 0xE0 = 0xED then 0x9F else 0xBF) ((v / 4096 % 0x10 + 0xE0) % 16) hmiddle
    (by split <;> simp; omega) (by split <;> (simp; omega))
  have hlast := next_last 0x80 0xBF ((v / 4096 % 0x10 + 0xE0) % 16 * 64 + v / 64 % 0x40) hbits
    (by simp) (by simp; omega)
  have hcode : ((v / 4096 % 0x10 + 0xE0) % 16 * 64 + v / 64 % 0x40) * 64 + v % 0x40 = v := by omega
  rw [hcode] at hlast
  simp only [piecesAfter, first_ofNat (by omega) (by omega) hstart, hmore, hlast, List.nil_append, List.cons_append]

theorem piecesAfter_four (hlow : 0xFFFF < v) (hhigh : v < 0x110000) :
    piecesAfter none
        (.ofNat (v / 262144 % 0x08 + 0xF0) :: .ofNat (v / 4096 % 0x40 + 0x80) ::
          .ofNat (v / 64 % 0x40 + 0x80) :: .ofNat (v % 0x40 + 0x80) :: rest) =
      some (Char.ofNat v) :: piecesAfter none rest := by
  have hstart := Sequence.start?_four (n := v / 262144 % 0x08 + 0xF0) (by omega) (by omega)
  have hsecondBits : v / 4096 % 0x40 < 64 := by omega
  have hthirdBits : v / 64 % 0x40 < 64 := by omega
  have hlastBits : v % 0x40 < 64 := by omega
  have hsecond := next_more 1 (if v / 262144 % 0x08 + 0xF0 = 0xF0 then 0x90 else 0x80)
    (if v / 262144 % 0x08 + 0xF0 = 0xF4 then 0x8F else 0xBF) ((v / 262144 % 0x08 + 0xF0) % 8) hsecondBits
    (by split <;> simp; omega) (by split <;> (simp; omega))
  have hthird := next_more 0 0x80 0xBF ((v / 262144 % 0x08 + 0xF0) % 8 * 64 + v / 4096 % 0x40) hthirdBits
    (by simp) (by simp; omega)
  have hlast := next_last 0x80 0xBF
    (((v / 262144 % 0x08 + 0xF0) % 8 * 64 + v / 4096 % 0x40) * 64 + v / 64 % 0x40) hlastBits
    (by simp) (by simp; omega)
  have hcode : (((v / 262144 % 0x08 + 0xF0) % 8 * 64 + v / 4096 % 0x40) * 64 + v / 64 % 0x40) * 64 + v % 0x40 = v := by
    omega
  rw [hcode] at hlast
  simp only [piecesAfter, first_ofNat (by omega) (by omega) hstart, hsecond, hthird, hlast, List.nil_append,
    List.cons_append]

end Characters

theorem piecesAfter_encodeChar (c : Char) (rest : Bytes) :
    piecesAfter none (String.utf8EncodeChar c ++ rest) = some c :: piecesAfter none rest := by
  have hvalid : c.val.toNat < 0xD800 ∨ 0xDFFF < c.val.toNat ∧ c.val.toNat < 0x110000 := c.valid
  have hself : Char.ofNat c.val.toNat = c := Char.ofNat_toNat c
  unfold String.utf8EncodeChar
  dsimp only
  generalize c.val.toNat = v at *
  subst hself
  split_ifs with hone htwo hthree
  · exact piecesAfter_one rest hone
  · exact piecesAfter_two rest (by omega) htwo
  · exact piecesAfter_three rest (by omega) hthree (by omega)
  · exact piecesAfter_four rest (by omega) (by omega)

theorem encodeChar_of_ascii {c : Char} (hc : c.toNat < 0x80) : String.utf8EncodeChar c = [.ofNat c.toNat] := by
  unfold String.utf8EncodeChar
  exact if_pos (Nat.le_of_lt_succ hc)

@[simp]
theorem encode_nil : encode [] = [] := rfl

@[simp]
theorem encode_cons (c : Char) (cs : List Char) : encode (c :: cs) = String.utf8EncodeChar c ++ encode cs := rfl

@[simp]
theorem encode_append (left right : List Char) : encode (left ++ right) = encode left ++ encode right :=
  List.flatMap_append

theorem pieces_encode (text : List Char) : pieces (encode text) = text.map some := by
  induction text with
  | nil => rfl
  | cons c cs ih =>
      rw [encode_cons, pieces, piecesAfter_encodeChar]
      exact congrArg (some c :: ·) ih

/-- **Round trip.** What was encoded is decoded again. -/
theorem decode?_encode (text : List Char) : decode? (encode text) = some text := by
  rw [decode?, pieces_encode]
  induction text with
  | nil => rfl
  | cons c cs ih => simp [List.mapM_cons, ih]

end LeaderLease.Utf8
