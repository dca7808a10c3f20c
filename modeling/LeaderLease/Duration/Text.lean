import LeaderLease.Duration
import LeaderLease.Text.Decimal

namespace LeaderLease.Duration

/-- For instance `137s`, `15.25s`, `1.5ms`, `10.5µs` and `7ns`. -/
def text (d : Duration) : String :=
  if d.nanos ≥ nanosPerSecond then
    .ofList (Decimal.mixed d.wholeSeconds d.subsecondNanos 9) ++ "s"
  else if d.nanos ≥ nanosPerMilli then
    .ofList (Decimal.mixed (d.nanos / nanosPerMilli) (d.nanos % nanosPerMilli) 6) ++ "ms"
  else if d.nanos ≥ nanosPerMicro then
    .ofList (Decimal.mixed (d.nanos / nanosPerMicro) (d.nanos % nanosPerMicro) 3) ++ "µs"
  else
    .ofList (Decimal.digits d.nanos) ++ "ns"

def millis (d : Duration) : Nat := d.nanos / nanosPerMilli

end LeaderLease.Duration
