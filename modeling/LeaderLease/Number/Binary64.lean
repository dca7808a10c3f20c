import LeaderLease.Number.Rounding

/-!
Non-negative binary floating point numbers with 53 significant bits. A number is a whole count of ticks, one tick
being `2 ^ (-1074)`, the least positive number of the format. The exponent is not bounded above here: `isFinite`
says whether a number stays below `2 ^ 1024`, where the format ends.
-/

namespace LeaderLease

/-- A number with at most 53 significant bits, in ticks. -/
structure Binary64 where
  ticks : Nat
  significant : ∃ m place, m < Nat.pow 2 53 ∧ ticks = m * Nat.pow 2 place

namespace Binary64

instance : DecidableEq Binary64 := fun a b =>
  if h : a.ticks = b.ticks then isTrue (by cases a; cases b; cases h; rfl)
  else isFalse (fun e => h (e ▸ rfl))

def one : Nat := Nat.pow 2 1074

/-- The exponent of the last significant bit of a number with so many ticks. -/
def place (ticks : Nat) : Nat := ticks.log2 - 52

/-- The number nearest to `num / den` ticks, ties going to the even significand. -/
def nearest (num den : Nat) : Binary64 :=
  let place := Nat.pow 2 (place (num / den))
  ⟨divNearestEven num (den * place) * place, by
    have small : num / den < Nat.pow 2 53 * place := by
      rw [powTwo_mul_powTwo]
      exact Nat.lt_of_lt_of_le Nat.lt_log2_self (Nat.pow_le_pow_right (by omega) (by unfold Binary64.place; omega))
    have bound : divNearestEven num (den * place) ≤ Nat.pow 2 53 := by
      refine Nat.le_trans (divNearestEven_le ..) ?_
      rw [← Nat.div_div_eq_div_mul]
      exact Nat.div_lt_of_lt_mul (by rwa [Nat.mul_comm] at small)
    rcases Nat.lt_or_eq_of_le bound with h | h
    · exact ⟨_, _, h, rfl⟩
    · refine ⟨Nat.pow 2 52, Binary64.place (num / den) + 1, by decide, ?_⟩
      rw [h, powTwo_mul_powTwo, powTwo_mul_powTwo]
      congr 1
      omega⟩

def zero : Binary64 := ⟨0, 0, 0, by decide, by decide⟩

def ofNat (n : Nat) : Binary64 := nearest (n * one) 1

def add (a b : Binary64) : Binary64 := nearest (a.ticks + b.ticks) 1

def mul (a b : Binary64) : Binary64 := nearest (a.ticks * b.ticks) one

def div (a b : Binary64) : Binary64 := nearest (a.ticks * one) b.ticks

def isFinite (a : Binary64) : Bool := a.ticks < Nat.pow 2 1024 * one

/-- The number times `unit`, rounded to the nearest integer. -/
def countOf (unit : Nat) (a : Binary64) : Nat := divNearestEven (a.ticks * unit) one

end Binary64

end LeaderLease
