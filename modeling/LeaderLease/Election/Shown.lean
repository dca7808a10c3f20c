import LeaderLease.Election.Builder
import LeaderLease.Text.Quoted

namespace LeaderLease

namespace Shown

/-- A value by its name and those of its fields that are shown. Dots say that there are more. -/
def withFields (name : String) (fields : List (String × String)) (hasMore : Bool) : String :=
  let parts := fields.map (fun f => f.1 ++ ": " ++ f.2) ++ (if hasMore then [".."] else [])
  name ++ " \x7b " ++ ", ".intercalate parts ++ " \x7d"

def optional (value : Option String) : String :=
  match value with
  | some text => "Some(" ++ text ++ ")"
  | none => "None"

end Shown

open Shown

def Preset.shown : Preset → String
  | standard => "Standard"
  | resourceConstrained => "ResourceConstrained"

def TimingSpec.shown (s : TimingSpec) : String :=
  withFields "TimingSpec"
    [("namespace", quoted s.namespaceName), ("name", quoted s.name),
      ("lease_duration", optional (s.storedLeaseDuration.map Duration.text)),
      ("renew_deadline", optional (s.storedRenewDeadline.map Duration.text)),
      ("retry_period", optional (s.storedRetryPeriod.map Duration.text))] false

def DebugFlags.shown (f : DebugFlags) : String :=
  withFields "DebugFlags"
    [("detailed_timing", toString f.detailedTiming), ("url_timing", toString f.urlTiming),
      ("response_status", toString f.responseStatus)] false

def ConfigBuilder.shown {ω : Type} (b : ConfigBuilder ω) : String :=
  withFields "ElectionConfigBuilder"
    [("spec", b.spec.shown), ("identity", quoted b.identity), ("component", quoted b.component),
      ("preset", b.preset.shown), ("debug_flags", b.debugFlags.shown)] true

def IdentityResolver.shown {ω : Type} (_ : IdentityResolver ω) : String := withFields "IdentityResolver" [] true

def LeaderCallbacks.shown {ω : Type} (c : LeaderCallbacks ω) : String :=
  withFields "LeaderCallbacks"
    [("on_started_leading", toString c.onStartedLeading.isSome), ("on_new_leader", toString c.onNewLeader.isSome)] true

def Guarded.shown {ω : Type} (g : Guarded ω) : String :=
  withFields "TerminateOnLoss" [("fired", toString g.fired)] true

end LeaderLease
