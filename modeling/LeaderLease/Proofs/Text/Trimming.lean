import Mathlib.Data.List.Basic
import Mathlib.Data.List.TakeWhile
import Mathlib.Tactic.Common
import LeaderLease.Text.WhiteSpace

namespace LeaderLease

/-- All 25 characters with the property White_Space. -/
def whiteSpace : List Char :=
  ['\x09', '\x0A', '\x0B', '\x0C', '\x0D', '\x20', '\u0085', '\u00A0', '\u1680', '\u2000', '\u2001', '\u2002', '\u2003',
    '\u2004', '\u2005', '\u2006', '\u2007', '\u2008', '\u2009', '\u200A', '\u2028', '\u2029', '\u202F',
    '\u205F', '\u3000']

theorem isWhiteSpace_iff {c : Char} : isWhiteSpace c = true ↔ c ∈ whiteSpace := by
  simp only [isWhiteSpace, whiteSpace, Bool.or_eq_true, Bool.and_eq_true, decide_eq_true_eq, beq_iff_eq, List.mem_cons,
    List.not_mem_nil, or_false, Char.le_def, UInt32.le_iff_toNat_le, Char.ext_iff, ← UInt32.toNat_inj,
    Char.reduceVal, UInt32.reduceToNat]
  omega

theorem isWhiteSpace_eq_false_iff {c : Char} : isWhiteSpace c = false ↔ c ∉ whiteSpace := by
  rw [← isWhiteSpace_iff, Bool.not_eq_true]

/-- The part of a text that is left without the white space around it, if there is anything left. -/
structure IsCore (core text : List Char) : Prop where
  nonempty : core ≠ []
  head : ∀ c ∈ core.head?, c ∉ whiteSpace
  last : ∀ c ∈ core.getLast?, c ∉ whiteSpace
  around : ∃ before after, text = before ++ core ++ after ∧ (∀ c ∈ before, c ∈ whiteSpace) ∧ ∀ c ∈ after, c ∈ whiteSpace

theorem trimStart_append {before : List Char} (hbefore : ∀ c ∈ before, c ∈ whiteSpace) (rest : List Char) :
    trimStart (before ++ rest) = trimStart rest :=
  List.dropWhile_append_of_pos fun c hc => isWhiteSpace_iff.mpr (hbefore c hc)

theorem trimStart_of_head {text : List Char} (hhead : ∀ c ∈ text.head?, c ∉ whiteSpace) : trimStart text = text := by
  cases text with
  | nil => rfl
  | cons c cs => exact List.dropWhile_cons_of_neg (mt isWhiteSpace_iff.mp (hhead c rfl))

theorem exists_trimStart (text : List Char) :
    ∃ before, text = before ++ trimStart text ∧ ∀ c ∈ before, c ∈ whiteSpace :=
  ⟨text.takeWhile isWhiteSpace, List.takeWhile_append_dropWhile.symm,
    fun _ hc => isWhiteSpace_iff.mp (List.mem_takeWhile_imp hc)⟩

theorem head_trimStart (text : List Char) : ∀ c ∈ (trimStart text).head?, c ∉ whiteSpace := by
  intro c hc
  have hstopped := List.head?_dropWhile_not isWhiteSpace text
  rw [← trimStart, hc] at hstopped
  exact isWhiteSpace_eq_false_iff.mp hstopped

theorem trimStart_eq_nil_iff {text : List Char} : trimStart text = [] ↔ ∀ c ∈ text, c ∈ whiteSpace :=
  List.dropWhile_eq_nil_iff.trans (forall₂_congr fun _ _ => isWhiteSpace_iff)

theorem trimEnd_eq (text : List Char) : trimEnd text = (trimStart text.reverse).reverse := rfl

theorem exists_trimEnd (text : List Char) : ∃ after, text = trimEnd text ++ after ∧ ∀ c ∈ after, c ∈ whiteSpace := by
  obtain ⟨before, htext, hbefore⟩ := exists_trimStart text.reverse
  refine ⟨before.reverse, ?_, fun c hc => hbefore c (List.mem_reverse.mp hc)⟩
  rw [trimEnd_eq, ← List.reverse_append, ← htext, List.reverse_reverse]

theorem trimEnd_append {after : List Char} (hafter : ∀ c ∈ after, c ∈ whiteSpace) (rest : List Char) :
    trimEnd (rest ++ after) = trimEnd rest := by
  rw [trimEnd_eq, List.reverse_append, trimStart_append fun c hc => hafter c (List.mem_reverse.mp hc), trimEnd_eq]

theorem trimEnd_of_last {text : List Char} (hlast : ∀ c ∈ text.getLast?, c ∉ whiteSpace) : trimEnd text = text := by
  rw [trimEnd_eq, trimStart_of_head (by rwa [List.head?_reverse]), List.reverse_reverse]

theorem last_trimEnd (text : List Char) : ∀ c ∈ (trimEnd text).getLast?, c ∉ whiteSpace := by
  rw [trimEnd_eq, List.getLast?_reverse]
  exact head_trimStart text.reverse

theorem trim_eq_nil_iff {text : List Char} : trim text = [] ↔ ∀ c ∈ text, c ∈ whiteSpace := by
  rw [trim, trimEnd_eq, List.reverse_eq_nil_iff, trimStart_eq_nil_iff]
  simp only [List.mem_reverse]
  rw [← trimStart_eq_nil_iff, ← trimStart_eq_nil_iff]
  -- What is left of the start begins with no white space, so it is blank only if nothing is left.
  exact ⟨fun hblank => (trimStart_of_head (head_trimStart text)).symm.trans hblank, fun hempty => by rw [hempty]; rfl⟩

theorem isCore_trim {text : List Char} (hnonempty : trim text ≠ []) : IsCore (trim text) text := by
  obtain ⟨before, hbefore, hblank⟩ := exists_trimStart text
  obtain ⟨after, hafter, hblank'⟩ := exists_trimEnd (trimStart text)
  refine ⟨hnonempty, ?_, last_trimEnd (trimStart text), before, after, ?_, hblank, hblank'⟩
  · intro c hc
    apply head_trimStart text c
    rw [hafter, List.head?_append]
    change (trimEnd (trimStart text)).head? = some c at hc
    rw [hc]
    rfl
  · rw [List.append_assoc]
    exact hbefore.trans (congrArg (before ++ ·) hafter)

/-- **The core of a text.** It is what trimming leaves, if anything. -/
theorem isCore_iff {core text : List Char} : IsCore core text ↔ trim text = core ∧ core ≠ [] := by
  refine ⟨fun h => ⟨?_, h.nonempty⟩, fun ⟨htrim, hnonempty⟩ => htrim ▸ isCore_trim (htrim ▸ hnonempty)⟩
  obtain ⟨before, after, rfl, hbefore, hafter⟩ := h.around
  have hstart : trimStart (before ++ core ++ after) = core ++ after := by
    rw [List.append_assoc, trimStart_append hbefore]
    apply trimStart_of_head
    intro c hc
    rw [List.head?_append_of_ne_nil core h.nonempty] at hc
    exact h.head c hc
  rw [trim, hstart, trimEnd_append hafter, trimEnd_of_last h.last]

end LeaderLease
