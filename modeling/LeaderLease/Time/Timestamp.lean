import LeaderLease.Time.Date
import LeaderLease.Text.Decimal

/-!
Instants in UTC to the nanosecond, and their written form. A leap second is kept as the second before it with `10 ^ 9`
nanoseconds more, and is written as the second after that, which is `:60` at the end of a minute. It may be kept after
any other second, too.
-/

namespace LeaderLease

@[ext]
structure Timestamp where
  date : Date
  hour : Nat
  minute : Nat
  second : Nat
  nanos : Nat
  hour_lt : hour < 24
  minute_lt : minute < 60
  second_lt : second < 60
  nanos_lt : nanos < 2000000000
  deriving DecidableEq

namespace Timestamp

def epoch : Timestamp where
  date := ⟨1970, 1, 1, by decide⟩
  hour := 0
  minute := 0
  second := 0
  nanos := 0
  hour_lt := by decide
  minute_lt := by decide
  second_lt := by decide
  nanos_lt := by decide

/-- The instant so many minutes earlier, for less than a day either way, unless the calendar ends before it. -/
def minutesEarlier? (minutes : Int) (t : Timestamp) : Option Timestamp :=
  let clock : Int := t.hour * 60 + t.minute - minutes
  let date? := if clock < 0 then t.date.previous? else if clock < 1440 then some t.date else t.date.next?
  date?.map fun date =>
    { t with
      date
      hour := (clock % 1440).toNat / 60
      minute := (clock % 1440).toNat % 60
      hour_lt := by omega
      minute_lt := by omega }

/-- Four digits, or a sign and at least four digits outside the years 0 to 9999. -/
def writeYear (year : Int) : List Char :=
  if 0 ≤ year ∧ year ≤ 9999 then Decimal.padded 4 year.toNat
  else (if year < 0 then '-' else '+') :: Decimal.padded 4 year.natAbs

/-- No digits, or a point and three, six or nine digits: the fewest that are exact. -/
def writeFraction (nanos : Nat) : List Char :=
  if nanos = 0 then []
  else if nanos % 1000000 = 0 then '.' :: Decimal.padded 3 (nanos / 1000000)
  else if nanos % 1000 = 0 then '.' :: Decimal.padded 6 (nanos / 1000)
  else '.' :: Decimal.padded 9 nanos

/-- For instance `2023-11-14T22:13:20.500Z`. -/
def write (t : Timestamp) : List Char :=
  let leap := t.nanos / 1000000000
  writeYear t.date.year ++ '-' :: Decimal.padded 2 t.date.month ++ '-' :: Decimal.padded 2 t.date.day ++
    'T' :: Decimal.padded 2 t.hour ++ ':' :: Decimal.padded 2 t.minute ++ ':' :: Decimal.padded 2 (t.second + leap) ++
    writeFraction (t.nanos % 1000000000) ++ ['Z']

end Timestamp

end LeaderLease
