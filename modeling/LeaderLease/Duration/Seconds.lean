import LeaderLease.Duration
import LeaderLease.Number.Binary64

namespace LeaderLease.Duration

/-- The seconds: the whole seconds and the fraction are each rounded, then their sum. -/
def seconds (d : Duration) : Binary64 :=
  (Binary64.ofNat d.wholeSeconds).add ((Binary64.ofNat d.subsecondNanos).div (Binary64.ofNat nanosPerSecond))

inductive SecondsError where
  | negative
  | tooBig
  deriving DecidableEq

def SecondsError.message : SecondsError → String
  | negative => "cannot convert float seconds to Duration: value is negative"
  | tooBig => "cannot convert float seconds to Duration: value is either too big or NaN"

/-- The duration nearest to a number of seconds with a sign, ties going to an even count of nanoseconds. A negative
zero is zero. -/
def ofSeconds? (negative : Bool) (seconds : Binary64) : Except SecondsError Duration :=
  if negative ∧ seconds.ticks ≠ 0 then .error .negative
  else match ofNanos? (seconds.countOf nanosPerSecond) with
    | some d => .ok d
    | none => .error .tooBig

end LeaderLease.Duration
