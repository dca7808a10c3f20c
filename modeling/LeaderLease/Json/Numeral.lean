import LeaderLease.Json.Scan

/-!
Reading numbers. The digits of a floating point numeral are gathered into a significand of 64 bits, which is then
scaled by one power of ten, so that the result can be one unit off the nearest number.
-/

namespace LeaderLease.Json

namespace Numeral

def significandLimit : Nat := Nat.pow 2 64

/-- Append digits to a significand as long as it fits, and count those that were appended. -/
def gather (significand : Nat) : Bytes → Nat × Nat
  | [] => (significand, 0)
  | d :: ds =>
    let longer := significand * 10 + digitValue d
    if longer < significandLimit then
      let gathered := gather longer ds
      (gathered.1, gathered.2 + 1)
    else (significand, 0)

/-- The greatest power of ten that is scaled by in one go. -/
def powerLimit : Nat := 308

def powerOfTen (e : Nat) : Binary64 := .ofNat (Nat.pow 10 e)

def scaleDown (f : Binary64) (e : Nat) : Binary64 :=
  if e ≤ powerLimit then f.div (powerOfTen e)
  else if f.ticks = 0 then f
  else scaleDown (f.div (powerOfTen powerLimit)) (e - powerLimit)
termination_by e
decreasing_by
  simp only [powerLimit] at *
  omega

def scaleUp? (f : Binary64) (e : Nat) : Option Binary64 :=
  if e ≤ powerLimit then
    let scaled := f.mul (powerOfTen e)
    if scaled.isFinite then some scaled else none
  else if f.ticks = 0 then some f
  else none

/-- The significand times a power of ten, each rounded once, and their product or quotient rounded again. -/
def scale? (significand : Nat) (exponent : Int) : Option Binary64 :=
  if exponent < 0 then some (scaleDown (.ofNat significand) exponent.natAbs)
  else scaleUp? (.ofNat significand) exponent.toNat

def ofParts (isNegative : Bool) (significand : Nat) (exponent : Int) : Except Error Number :=
  match scale? significand exponent with
  | some magnitude => .ok (.real isNegative magnitude)
  | none => .error .numberOutOfRange

/-- An integer that fits its type, or the floating point number nearest to it. There is no negative integer zero. -/
def ofInteger (isNegative : Bool) (n : Nat) : Number :=
  if !isNegative then .natural n
  else if 1 ≤ n ∧ n ≤ Nat.pow 2 63 then .negative n
  else .real true (.ofNat n)

def readExponent (isNegative : Bool) (significand : Nat) (exponent : Int) (bs : Bytes) :
    Except Error (Number × Bytes) :=
  let (down, digits) : Bool × Bytes := match bs with
    | plus :: rest => (false, rest)
    | minus :: rest => (true, rest)
    | _ => (false, bs)
  match digits with
  | [] => .error .endInValue
  | d :: _ =>
    if isDigit d then do
      let written : Int := (digits.takeWhile isDigit).foldl (fun n d => n * 10 + digitValue d) 0
      let number ← ofParts isNegative significand (if down then exponent - written else exponent + written)
      return (number, digits.dropWhile isDigit)
    else .error .invalidNumber

def readScale (isNegative : Bool) (significand : Nat) (exponent : Int) (bs : Bytes) : Except Error (Number × Bytes) :=
  match bs with
  | letterE :: rest => readExponent isNegative significand exponent rest
  | capitalE :: rest => readExponent isNegative significand exponent rest
  | _ => do return (← ofParts isNegative significand exponent, bs)

/-- What follows the decimal point. Digits that do not fit are dropped. -/
def readFraction (isNegative : Bool) (significand : Nat) (exponent : Int) (bs : Bytes) :
    Except Error (Number × Bytes) :=
  match bs with
  | [] => .error .endInValue
  | d :: _ =>
    if isDigit d then
      let gathered := gather significand (bs.takeWhile isDigit)
      readScale isNegative gathered.1 (exponent - gathered.2) (bs.dropWhile isDigit)
    else .error .invalidNumber

/-- What follows the whole part, of which some digits may have been dropped. -/
def readAfterWhole (isNegative : Bool) (significand dropped : Nat) (bs : Bytes) : Except Error (Number × Bytes) :=
  match bs with
  | point :: rest => readFraction isNegative significand dropped rest
  | letterE :: _ | capitalE :: _ => readScale isNegative significand dropped bs
  | _ =>
    if dropped = 0 then .ok (ofInteger isNegative significand, bs)
    else readScale isNegative significand dropped bs

/-- A numeral after its sign. Digits of the whole part that do not fit raise the exponent. -/
def readUnsigned (isNegative : Bool) (bs : Bytes) : Except Error (Number × Bytes) :=
  match bs with
  | [] => .error .endInValue
  | d :: _ =>
    let digits := bs.takeWhile isDigit
    if ¬isDigit d ∨ (d = 0x30 ∧ 1 < digits.length) then .error .invalidNumber
    else
      let gathered := gather 0 digits
      readAfterWhole isNegative gathered.1 (digits.length - gathered.2) (bs.dropWhile isDigit)

end Numeral

def beginsNumber (b : UInt8) : Bool := b == minus || isDigit b

def readNumber (bs : Bytes) : Except Error (Number × Bytes) :=
  match bs with
  | minus :: rest => Numeral.readUnsigned true rest
  | _ => Numeral.readUnsigned false bs

namespace Numeral

theorem readExponent_length_le {isNegative : Bool} {significand : Nat} {exponent : Int} {bs rest : Bytes} {n : Number}
    (h : readExponent isNegative significand exponent bs = .ok (n, rest)) : rest.length ≤ bs.length := by
  unfold readExponent at h
  split at h
  rename_i down digits hd
  have short : digits.length ≤ bs.length := by
    split at hd <;> cases hd <;> simp
  split at h
  · cases h
  · split at h
    · simp only [bind, Except.bind] at h
      split at h
      · cases h
      · cases h
        exact Nat.le_trans (List.dropWhile_suffix _).length_le short
    · cases h

theorem readScale_length_le {isNegative : Bool} {significand : Nat} {exponent : Int} {bs rest : Bytes} {n : Number}
    (h : readScale isNegative significand exponent bs = .ok (n, rest)) : rest.length ≤ bs.length := by
  unfold readScale at h
  split at h
  · exact Nat.le_succ_of_le (readExponent_length_le h)
  · exact Nat.le_succ_of_le (readExponent_length_le h)
  · simp only [bind, Except.bind] at h
    split at h
    · cases h
    · cases h; exact Nat.le_refl _

theorem readFraction_length_le {isNegative : Bool} {significand : Nat} {exponent : Int} {bs rest : Bytes} {n : Number}
    (h : readFraction isNegative significand exponent bs = .ok (n, rest)) : rest.length ≤ bs.length := by
  unfold readFraction at h
  split at h
  · cases h
  · split at h
    · exact Nat.le_trans (readScale_length_le h) (List.dropWhile_suffix _).length_le
    · cases h

theorem readAfterWhole_length_le {isNegative : Bool} {significand dropped : Nat} {bs rest : Bytes} {n : Number}
    (h : readAfterWhole isNegative significand dropped bs = .ok (n, rest)) : rest.length ≤ bs.length := by
  unfold readAfterWhole at h
  split at h
  · exact Nat.le_succ_of_le (readFraction_length_le h)
  · exact readScale_length_le h
  · exact readScale_length_le h
  · split at h
    · cases h; exact Nat.le_refl _
    · exact readScale_length_le h

theorem readUnsigned_length_le {isNegative : Bool} {bs rest : Bytes} {n : Number}
    (h : readUnsigned isNegative bs = .ok (n, rest)) : rest.length ≤ bs.length := by
  unfold readUnsigned at h
  split at h
  · cases h
  · dsimp only at h
    split at h
    · cases h
    · exact Nat.le_trans (readAfterWhole_length_le h) (List.dropWhile_suffix _).length_le

end Numeral

theorem readNumber_length_le {bs rest : Bytes} {n : Number} (h : readNumber bs = .ok (n, rest)) :
    rest.length ≤ bs.length := by
  unfold readNumber at h
  split at h
  · exact Nat.le_succ_of_le (Numeral.readUnsigned_length_le h)
  · exact Numeral.readUnsigned_length_le h

end LeaderLease.Json
