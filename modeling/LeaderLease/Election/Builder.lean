import LeaderLease.Election.Config
import LeaderLease.Identity
import LeaderLease.Timing.Spec

/-!
Assembling a config. Nothing is asked of the host and nothing is sent to the backend before both connections stand,
and a config is there as a whole or not at all.
-/

namespace LeaderLease

inductive AssemblyError where
  | namespaceRequired
  | nameRequired
  | backendUnavailable (fault : Fault)
  deriving DecidableEq

def AssemblyError.message : AssemblyError → String
  | namespaceRequired => "Invalid leader election config: namespace required"
  | nameRequired => "Invalid leader election config: name required"
  | backendUnavailable fault => "Lock backend unavailable: " ++ fault.chain

/-- A spec has to name its lock in full. -/
def TimingSpec.validate (s : TimingSpec) : Except AssemblyError Unit :=
  if s.namespaceName = "" then .error .namespaceRequired
  else if s.name = "" then .error .nameRequired
  else .ok ()

structure ConfigBuilder (ω : Type) where
  spec : TimingSpec
  connect : Act ω (Except Fault (Transport ω))
  resolver : IdentityResolver ω
  terminate : Act ω Unit
  clock : Clock ω
  locate : Json.Locator
  identity : String
  component : String
  preset : Preset
  debugFlags : DebugFlags
  onStartedLeading : Option (CancellationToken → Act ω Unit)
  onNewLeader : Option (String → Act ω Unit)

namespace ConfigBuilder

variable {ω : Type}

def defaultComponent : String := "leasehold"

def forSpec (spec : TimingSpec) (connect : Act ω (Except Fault (Transport ω))) (resolver : IdentityResolver ω)
    (terminate : Act ω Unit) (clock : Clock ω) (locate : Json.Locator) : ConfigBuilder ω where
  spec
  connect
  resolver
  terminate
  clock
  locate
  identity := ""
  component := defaultComponent
  preset := Preset.default
  debugFlags := DebugFlags.default
  onStartedLeading := none
  onNewLeader := none

def timing (b : ConfigBuilder ω) : Profile := b.spec.resolve b.preset

/-- The end of leadership terminates, and the application hears of the rest. -/
def callbacks (b : ConfigBuilder ω) : LeaderCallbacks (Guarded ω) where
  onStartedLeading := b.onStartedLeading.map fun f token => (f token).on Guarded.inner
  onStoppedLeading := Guarded.onStoppedLeading b.terminate
  onNewLeader := b.onNewLeader.map fun f identity => (f identity).on Guarded.inner

/-- The lock for a contender. Its own traffic is logged, its events are sent without. -/
def lock (b : ConfigBuilder ω) (events client : Transport ω) (identity : String) : LeaseLock ω where
  namespaceName := b.spec.namespaceName
  name := b.spec.name
  identity
  client := Transport.logged b.clock b.debugFlags client
  locate := b.locate
  recorder := ⟨b.component, b.spec.namespaceName, b.spec.name, events, b.clock.now⟩

def assemble (b : ConfigBuilder ω) (events client : Transport ω) : Act ω (ElectionConfig ω) := do
  let identity ← b.resolver.resolve b.identity
  .emit (.assembled identity b.timing)
  return .ofLock (b.lock events client identity) b.timing b.callbacks

/-- Connect twice, first for the events and then for the lock. -/
def connectBoth (b : ConfigBuilder ω) : Act ω (Except AssemblyError (Transport ω × Transport ω)) := do
  match ← b.connect with
  | .error fault => return .error (.backendUnavailable fault)
  | .ok events =>
    match ← b.connect with
    | .error fault => return .error (.backendUnavailable fault)
    | .ok client => return .ok (events, client)

def build (b : ConfigBuilder ω) : Act ω (Except AssemblyError (ElectionConfig ω)) :=
  .reportingFailure AssemblyError.message do
    match b.spec.validate with
    | .error e => return .error e
    | .ok () =>
      .emitIf (!b.timing.isConsistent) (.timingInconsistent b.timing)
      match ← b.connectBoth with
      | .error e => return .error e
      | .ok (events, client) => return .ok (← b.assemble events client)

end ConfigBuilder

end LeaderLease
