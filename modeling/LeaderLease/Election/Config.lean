import LeaderLease.Election.Callbacks
import LeaderLease.Election.LossGuard
import LeaderLease.Lock.Lease
import LeaderLease.Timing.Profile

namespace LeaderLease

structure ElectionConfig (ω : Type) where
  lock : LeaseLock ω
  timing : Profile
  releaseOnCancel : Bool
  callbacks : LeaderCallbacks (Guarded ω)

/-- The pieces of a config, for an engine that wants to own them. -/
structure ElectionParts (ω : Type) where
  lock : LeaseLock ω
  timing : Profile
  releaseOnCancel : Bool
  callbacks : LeaderCallbacks (Guarded ω)

namespace ElectionConfig

variable {ω : Type}

/-- The lock is released when the election is cancelled. -/
def ofLock (lock : LeaseLock ω) (timing : Profile) (callbacks : LeaderCallbacks (Guarded ω)) : ElectionConfig ω :=
  ⟨lock, timing, true, callbacks⟩

def leaseDuration (c : ElectionConfig ω) : Duration := c.timing.leaseDuration

def renewDeadline (c : ElectionConfig ω) : Duration := c.timing.renewDeadline

def retryPeriod (c : ElectionConfig ω) : Duration := c.timing.retryPeriod

def intoParts (c : ElectionConfig ω) : ElectionParts ω := ⟨c.lock, c.timing, c.releaseOnCancel, c.callbacks⟩

end ElectionConfig

end LeaderLease
