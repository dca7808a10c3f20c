import Mathlib.Algebra.Group.Nat.Defs
import Mathlib.Data.Nat.Basic
import Mathlib.Tactic.Common
import LeaderLease.Text.Decimal

namespace LeaderLease.Decimal

theorem isDigit_iff {c : Char} : isDigit c = true ↔ '0'.toNat ≤ c.toNat ∧ c.toNat ≤ '9'.toNat := by
  simp only [isDigit, Bool.and_eq_true, decide_eq_true_eq, Char.le_def, UInt32.le_iff_toNat_le]
  rfl

theorem isDigit_of_mem_digits {n : Nat} {c : Char} (hc : c ∈ digits n) : isDigit c = true := by
  have hcore : c.isDigit = true := Nat.isDigit_of_mem_toDigits (by decide) (by decide) hc
  rw [Char.isDigit_iff_toNat] at hcore
  exact isDigit_iff.mpr hcore

theorem digits_ne_nil (n : Nat) : digits n ≠ [] := Nat.toDigits_ne_nil

theorem length_digits_bounds {n : Nat} (hn : n ≠ 0) :
    10 ^ ((digits n).length - 1) ≤ n ∧ n < 10 ^ (digits n).length := by
  have hpos : 0 < (digits n).length := List.length_pos_iff.mpr (digits_ne_nil n)
  refine ⟨?_, (Nat.length_toDigits_le_iff (by decide) hpos).mp (Nat.le_refl _)⟩
  by_cases hone : (digits n).length = 1
  · rw [hone]
    exact Nat.one_le_iff_ne_zero.mpr hn
  · have hshorter : ¬ (digits n).length ≤ (digits n).length - 1 := by omega
    have hlarge := mt (Nat.length_toDigits_le_iff (n := n) (by decide) (by omega)).mpr hshorter
    exact Nat.not_lt.mp hlarge

theorem value_eq_ofDigitChars (acc : Nat) (ds : List Char) : value acc ds = Nat.ofDigitChars 10 ds acc := by
  simp only [value, Nat.ofDigitChars_eq_foldl, digitValue, Nat.mul_comm]

theorem value_digits (n : Nat) : value 0 (digits n) = n := by
  rw [value_eq_ofDigitChars]
  exact Nat.ofDigitChars_ten_toDigits

theorem value_padded (width n : Nat) : value 0 (padded width n) = n := by
  rw [value_eq_ofDigitChars, padded, List.leftpad, Nat.ofDigitChars_append, Nat.ofDigitChars_replicate_zero,
    Nat.mul_zero, ← value_eq_ofDigitChars, value_digits]

theorem value_append (acc : Nat) (front back : List Char) :
    value acc (front ++ back) = value (value acc front) back := List.foldl_append

theorem value_eq_add (acc : Nat) (ds : List Char) : value acc ds = acc * 10 ^ ds.length + value 0 ds := by
  rw [value_eq_ofDigitChars, value_eq_ofDigitChars, Nat.ofDigitChars_eq_ofDigitChars_zero, Nat.mul_comm]

theorem value_replicate_zero (acc n : Nat) : value acc (List.replicate n '0') = acc * 10 ^ n := by
  rw [value_eq_ofDigitChars, Nat.ofDigitChars_replicate_zero, Nat.mul_comm]

theorem digitValue_lt {c : Char} (hc : isDigit c = true) : digitValue c < 10 := by
  have hbounds := isDigit_iff.mp hc
  change '0'.toNat ≤ c.toNat ∧ c.toNat ≤ 57 at hbounds
  change c.toNat - 48 < 10
  omega

theorem value_lt {ds : List Char} (hdigits : ∀ c ∈ ds, isDigit c = true) (acc : Nat) :
    value acc ds < (acc + 1) * 10 ^ ds.length := by
  induction ds generalizing acc with
  | nil =>
      change acc < (acc + 1) * 10 ^ 0
      omega
  | cons c cs ih =>
      have hc := digitValue_lt (hdigits c List.mem_cons_self)
      have hcs : ∀ x ∈ cs, isDigit x = true := fun x hx => hdigits x (List.mem_cons_of_mem c hx)
      calc
        value acc (c :: cs) < (acc * 10 + digitValue c + 1) * 10 ^ cs.length := ih hcs _
        _ ≤ (acc + 1) * 10 * 10 ^ cs.length := Nat.mul_le_mul_right _ (by omega)
        _ = (acc + 1) * 10 ^ (c :: cs).length := by rw [List.length_cons, Nat.pow_succ', Nat.mul_assoc]

theorem isDigit_of_mem_padded {width n : Nat} {c : Char} (hc : c ∈ padded width n) : isDigit c = true := by
  rw [padded, List.leftpad, List.mem_append] at hc
  rcases hc with hzero | hdigit
  · rw [List.eq_of_mem_replicate hzero]
    rfl
  · exact isDigit_of_mem_digits hdigit

theorem padded_ne_nil (width n : Nat) : padded width n ≠ [] := by
  rw [padded, List.leftpad]
  exact List.append_ne_nil_of_right_ne_nil _ (digits_ne_nil n)

theorem length_padded {width n : Nat} (hwidth : 0 < width) (hn : n < 10 ^ width) :
    (padded width n).length = width := by
  have hlength : (digits n).length ≤ width := (Nat.length_toDigits_le_iff (by decide) hwidth).mpr hn
  rw [padded, List.length_leftpad, Nat.max_eq_left hlength]

theorem eq_zero_of_head_zero {n : Nat} {ds : List Char} (h : digits n = '0' :: ds) : n = 0 := by
  induction n using Nat.strong_induction_on generalizing ds with
  | _ n ih =>
      by_cases hsmall : n < 10
      · rw [digits, Nat.toDigits_of_lt_base hsmall] at h
        have hhead : (Nat.digitChar n).toNat = '0'.toNat := congrArg Char.toNat (List.cons.inj h).1
        rw [Nat.toNat_digitChar_of_lt_ten hsmall] at hhead
        change 48 + n = 48 at hhead
        omega
      · have hsplit : digits n = digits (n / 10) ++ [Nat.digitChar (n % 10)] :=
          Nat.toDigits_of_base_le (by decide) (Nat.not_lt.mp hsmall)
        rw [hsplit, List.append_eq_cons_iff] at h
        rcases h with ⟨hnil, -⟩ | ⟨front, hfront, -⟩
        · exact absurd hnil (digits_ne_nil _)
        · have hzero := ih (n / 10) (by omega) hfront
          omega

theorem exists_trimZeros (ds : List Char) : ∃ n, ds = trimZeros ds ++ List.replicate n '0' := by
  have hzeros : ∀ c ∈ (ds.reverse.takeWhile (· == '0')).reverse, c = '0' := by
    intro c hc
    exact beq_iff_eq.mp (List.all_eq_true.mp List.all_takeWhile c (List.mem_reverse.mp hc))
  refine ⟨(ds.reverse.takeWhile (· == '0')).reverse.length, ?_⟩
  rw [← List.eq_replicate_of_mem hzeros, trimZeros, ← List.reverse_append, List.takeWhile_append_dropWhile,
    List.reverse_reverse]

theorem trimZeros_digits {n : Nat} (hn : n ≠ 0) :
    ∃ c cs zeros, trimZeros (digits n) = c :: cs ∧ c ≠ '0' ∧ (∀ x ∈ c :: cs, isDigit x = true) ∧
      (digits n).length = (c :: cs).length + zeros ∧ value 0 (c :: cs) * 10 ^ zeros = n := by
  obtain ⟨zeros, hsplit⟩ := exists_trimZeros (digits n)
  have hnonzero : ∀ ds, digits n ≠ '0' :: ds := fun ds hds => hn (eq_zero_of_head_zero hds)
  cases htrim : trimZeros (digits n) with
  | nil =>
      rw [htrim, List.nil_append] at hsplit
      cases zeros with
      | zero => exact absurd hsplit (digits_ne_nil n)
      | succ zeros => exact absurd hsplit (hnonzero _)
  | cons c cs =>
      rw [htrim] at hsplit
      refine ⟨c, cs, zeros, rfl, ?_, ?_, ?_, ?_⟩
      · rintro rfl
        exact hnonzero _ hsplit
      · intro x hx
        have hmem : x ∈ digits n := by
          rw [hsplit]
          exact List.mem_append_left _ hx
        exact isDigit_of_mem_digits hmem
      · rw [hsplit, List.length_append, List.length_replicate]
      · rw [← value_replicate_zero, ← value_append, ← hsplit, value_digits]

end LeaderLease.Decimal
