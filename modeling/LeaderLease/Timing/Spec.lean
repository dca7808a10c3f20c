import LeaderLease.Timing.Preset

/-!
What a user says about a lock: its namespace and name, and those durations that are to differ from a preset.
A duration of zero counts as not given when the timing is resolved, but it is kept as it was stored.
-/

namespace LeaderLease

@[ext]
structure TimingSpec where
  namespaceName : String
  name : String
  storedLeaseDuration : Option Duration
  storedRenewDeadline : Option Duration
  storedRetryPeriod : Option Duration
  deriving DecidableEq

namespace TimingSpec

def empty : TimingSpec := ⟨"", "", none, none, none⟩

def forLock (namespaceName name : String) : TimingSpec := { empty with namespaceName, name }

def withNamespace (namespaceName : String) (s : TimingSpec) : TimingSpec := { s with namespaceName }

def withName (name : String) (s : TimingSpec) : TimingSpec := { s with name }

def withLeaseDuration (d : Duration) (s : TimingSpec) : TimingSpec := { s with storedLeaseDuration := some d }

def withRenewDeadline (d : Duration) (s : TimingSpec) : TimingSpec := { s with storedRenewDeadline := some d }

def withRetryPeriod (d : Duration) (s : TimingSpec) : TimingSpec := { s with storedRetryPeriod := some d }

def withProfile (p : Profile) (s : TimingSpec) : TimingSpec :=
  (s.withLeaseDuration p.leaseDuration |>.withRenewDeadline p.renewDeadline).withRetryPeriod p.retryPeriod

/-- The given durations: those stored and not zero. -/
def given (stored : Option Duration) : Option Duration := stored.filter (!·.isZero)

def leaseDuration (s : TimingSpec) : Option Duration := given s.storedLeaseDuration

def renewDeadline (s : TimingSpec) : Option Duration := given s.storedRenewDeadline

def retryPeriod (s : TimingSpec) : Option Duration := given s.storedRetryPeriod

/-- The profile of a spec: each duration as given, or the preset's. -/
def resolve (preset : Preset) (s : TimingSpec) : Profile where
  leaseDuration := s.leaseDuration.getD preset.profile.leaseDuration
  renewDeadline := s.renewDeadline.getD preset.profile.renewDeadline
  retryPeriod := s.retryPeriod.getD preset.profile.retryPeriod

def enforce (preset : Preset) (s : TimingSpec) : TimingSpec := s.withProfile preset.profile

end TimingSpec

end LeaderLease
