import LeaderLease.Number.Scientific

namespace LeaderLease.Json

/-- Integers that fit 64 bits are exact, and all other numbers are binary floating point. -/
inductive Number where
  /-- An unsigned integer below `2 ^ 64`. -/
  | natural (n : Nat)
  /-- The integer `-n`, for `n` from 1 to `2 ^ 63`. -/
  | negative (n : Nat)
  | real (isNegative : Bool) (magnitude : Binary64)
  deriving DecidableEq

namespace Number

/-- Numbers from `0.00001` and below `10 ^ 16` are written without an exponent. -/
def layout : NumberLayout := ⟨-5, 16⟩

def writeReal (isNegative : Bool) (magnitude : Binary64) : List Char :=
  (if isNegative then ['-'] else []) ++ layout.write magnitude

end Number

end LeaderLease.Json
