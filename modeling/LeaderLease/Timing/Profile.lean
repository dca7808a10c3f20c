import LeaderLease.Duration

namespace LeaderLease

/-- How long a lease lasts, how long its holder tries to renew it, and how often. -/
@[ext]
structure Profile where
  leaseDuration : Duration
  renewDeadline : Duration
  retryPeriod : Duration
  deriving DecidableEq

namespace Profile

/-- How far apart two clocks may run before a lease is taken over too early. -/
def clockSkewTolerance (p : Profile) : Duration := p.leaseDuration - p.renewDeadline

def attemptLimit : Nat := 4294967295

def renewAttempts (p : Profile) : Nat :=
  if p.retryPeriod.isZero then 0
  else min (p.renewDeadline.nanos / p.retryPeriod.nanos) attemptLimit

/-- The longest outage of the backend during which some renewal attempt still gets through. -/
def downtimeTolerance (p : Profile) : Duration :=
  p.retryPeriod.times p.renewAttempts - p.retryPeriod

/-- The longest time without a leader after the holder has crashed. -/
def worstNonGracefulReacquisition (p : Profile) : Duration := p.leaseDuration + p.retryPeriod

/-- The longest time without a leader after the holder has let go of the lease. -/
def worstGracefulReacquisition (p : Profile) : Duration := p.retryPeriod

def secondsLimit : Nat := 18446744073709551615

/-- The lease duration in whole seconds, rounded up, and at least one. -/
def leaseDurationSeconds (p : Profile) : Nat :=
  let whole := p.leaseDuration.wholeSeconds
  let seconds := if p.leaseDuration.subsecondNanos > 0 then min (whole + 1) secondsLimit else whole
  max seconds 1

/-- The holder has at least one attempt to renew, and gives up before its lease runs out. -/
def isConsistent (p : Profile) : Bool :=
  !p.retryPeriod.isZero && decide (p.retryPeriod ≤ p.renewDeadline) && decide (p.renewDeadline < p.leaseDuration)

end Profile

end LeaderLease
