namespace LeaderLease

structure Uuid where
  bits : BitVec 128
  deriving DecidableEq

namespace Uuid

/-- The version 7 identifier of a time in milliseconds and random bits. -/
def version7 (millis : BitVec 48) (random : BitVec 12) (moreRandom : BitVec 62) : Uuid :=
  ⟨millis ++ 7#4 ++ random ++ 2#2 ++ moreRandom⟩

def version (u : Uuid) : Nat := (u.bits.extractLsb' 76 4).toNat

/-- One of the 32 hexadecimal digits, counted from the left. -/
def digit (u : Uuid) (i : Nat) : Char := Nat.digitChar (u.bits.extractLsb' (4 * (31 - i)) 4).toNat

def digits (u : Uuid) (first count : Nat) : List Char := (List.range' first count).map u.digit

/-- Lower case digits in groups of 8, 4, 4, 4 and 12. -/
def text (u : Uuid) : List Char :=
  u.digits 0 8 ++ '-' :: u.digits 8 4 ++ '-' :: u.digits 12 4 ++ '-' :: u.digits 16 4 ++ '-' :: u.digits 20 12

end Uuid

end LeaderLease
