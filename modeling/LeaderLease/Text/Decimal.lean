namespace LeaderLease.Decimal

def digits (n : Nat) : List Char := Nat.toDigits 10 n

/-- The decimal digits, with zeros in front up to a width. -/
def padded (width n : Nat) : List Char := (digits n).leftpad width '0'

def isDigit (c : Char) : Bool := '0' ≤ c && c ≤ '9'

def digitValue (c : Char) : Nat := c.toNat - '0'.toNat

/-- The number that a list of digits denotes, read after the digits of `acc`. -/
def value (acc : Nat) (ds : List Char) : Nat :=
  ds.foldl (fun n c => n * 10 + digitValue c) acc

def trimZeros (ds : List Char) : List Char :=
  (ds.reverse.dropWhile (· == '0')).reverse

/-- The shortest exact form of `whole + part / 10 ^ places`: no point when there is no fraction. -/
def mixed (whole part places : Nat) : List Char :=
  if part = 0 then digits whole else digits whole ++ '.' :: trimZeros (padded places part)

end LeaderLease.Decimal
