import LeaderLease.Timing.Profile

namespace LeaderLease

/-- Timings that are known to work well together. -/
inductive Preset where
  | standard
  | resourceConstrained
  deriving DecidableEq, Inhabited

namespace Preset

def profile : Preset → Profile
  | standard => ⟨.ofSeconds 137, .ofSeconds 107, .ofSeconds 26⟩
  | resourceConstrained => ⟨.ofSeconds 270, .ofSeconds 240, .ofSeconds 60⟩

def default : Preset := standard

end Preset

end LeaderLease
