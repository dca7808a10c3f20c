import LeaderLease.Number.Binary64
import LeaderLease.Text.Decimal

namespace LeaderLease

/-- The number `significand * 10 ^ exponent`. -/
structure Scientific where
  significand : Nat
  exponent : Int
  deriving DecidableEq

namespace Scientific

def numerator (s : Scientific) : Nat := s.significand * Nat.pow 10 s.exponent.toNat

def denominator (s : Scientific) : Nat := Nat.pow 10 (-s.exponent).toNat

end Scientific

namespace Binary64

def hasEvenSignificand (a : Binary64) : Bool := a.ticks / Nat.pow 2 (place a.ticks) % 2 = 0

/-- Twice the midpoint between a number and its upper neighbour, in ticks. -/
def upperBound (a : Binary64) : Nat := 2 * a.ticks + Nat.pow 2 (place a.ticks)

/-- Twice the midpoint between a number and its lower neighbour, in ticks. Below a power of two the neighbours are
twice as close. -/
def lowerBound (a : Binary64) : Nat :=
  if place a.ticks > 0 ∧ a.ticks = Nat.pow 2 (place a.ticks + 52) then 2 * a.ticks - Nat.pow 2 (place a.ticks - 1)
  else 2 * a.ticks - Nat.pow 2 (place a.ticks)

def ReadsBackFrom (s : Scientific) (a : Binary64) : Prop :=
  let position := s.numerator * (2 * one)
  if a.hasEvenSignificand then
    a.lowerBound * s.denominator ≤ position ∧ position ≤ a.upperBound * s.denominator
  else
    a.lowerBound * s.denominator < position ∧ position < a.upperBound * s.denominator

instance (s : Scientific) (a : Binary64) : Decidable (ReadsBackFrom s a) := by
  unfold ReadsBackFrom
  exact inferInstance

/-- The power of ten of the leading decimal digit of a number that is not zero. No positive number is below
`10 ^ (-324)`. -/
def leadingPower (a : Binary64) : Int :=
  ((Decimal.digits (a.ticks * Nat.pow 10 324 / one)).length : Int) - 325

/-- The greatest multiple of `10 ^ exponent` that does not exceed the number. -/
def floorAt (exponent : Int) (a : Binary64) : Scientific where
  significand := a.ticks * Nat.pow 10 (-exponent).toNat / (one * Nat.pow 10 exponent.toNat)
  exponent

/-- The lower of the two neighbours `s` and its successor is the better approximation. -/
def prefersLower (s : Scientific) (a : Binary64) : Bool :=
  let middle := (2 * s.significand + 1) * Nat.pow 10 s.exponent.toNat * one
  let target := 2 * a.ticks * s.denominator
  target < middle || (target == middle && s.significand % 2 == 0)

/-- The best multiple of `10 ^ exponent` that reads back, if there is one. -/
def onGrid? (exponent : Int) (a : Binary64) : Option Scientific :=
  let lower := a.floorAt exponent
  let upper := { lower with significand := lower.significand + 1 }
  if ReadsBackFrom lower a then
    if ReadsBackFrom upper a ∧ ¬a.prefersLower lower then some upper else some lower
  else if ReadsBackFrom upper a then some upper
  else none

/-- The decimal number with the fewest digits that reads back as `a`, and of those the nearest. Seventeen digits
always suffice. -/
def shortest (a : Binary64) : Scientific :=
  let leading := a.leadingPower
  ((List.range 17).findSome? fun (n : Nat) => a.onGrid? (leading - n)).getD (a.floorAt (leading - 16))

end Binary64

/-- Where plain notation ends: numbers from `10 ^ plainFrom` and below `10 ^ plainBelow` are written without an
exponent. -/
structure NumberLayout where
  plainFrom : Int
  plainBelow : Int

namespace NumberLayout

/-- The digits with a point after the first `places` of them, and at least one digit on either side of it. -/
def plain (ds : List Char) (places : Int) : List Char :=
  if places ≤ 0 then '0' :: '.' :: (List.replicate (-places).toNat '0' ++ ds)
  else
    let whole := ds.take places.toNat
    let part := ds.drop places.toNat
    whole ++ List.replicate (places.toNat - whole.length) '0' ++ '.' :: (if part = [] then ['0'] else part)

/-- The exponent always has a sign, and a single digit stands without a point. -/
def withExponent (ds : List Char) (power : Int) : List Char :=
  let mantissa := match ds with
    | first :: second :: more => first :: '.' :: second :: more
    | _ => ds
  mantissa ++ 'e' :: (if power < 0 then '-' else '+') :: Decimal.digits power.natAbs

def write (layout : NumberLayout) (a : Binary64) : List Char :=
  if a.ticks = 0 then ['0', '.', '0']
  else
    let s := a.shortest
    let all := Decimal.digits s.significand
    let ds := Decimal.trimZeros all
    let power := s.exponent + all.length - 1
    if layout.plainFrom ≤ power ∧ power < layout.plainBelow then plain ds (power + 1)
    else withExponent ds power

end NumberLayout

end LeaderLease
