import LeaderLease.Namespace
import LeaderLease.Timing.Spec

namespace LeaderLease

structure ElectionDefaults where
  preset : Preset
  namespaceName : Option String
  name : Option String
  deriving DecidableEq

namespace ElectionDefaults

def empty : ElectionDefaults := ⟨Preset.default, none, none⟩

def withPreset (preset : Preset) (d : ElectionDefaults) : ElectionDefaults := { d with preset }

def withNamespace (name : String) (d : ElectionDefaults) : ElectionDefaults := { d with namespaceName := some name }

def withName (name : String) (d : ElectionDefaults) : ElectionDefaults := { d with name := some name }

def nameFor (d : ElectionDefaults) (s : TimingSpec) : String :=
  if s.name = "" then d.name.getD s.name else s.name

/-- Fill in the durations, the namespace and the name that are not given. -/
def apply {ω : Type} (d : ElectionDefaults) (ambient : AmbientNamespace ω) (s : TimingSpec) : Act ω TimingSpec := do
  let namespaceName? ← resolveNamespace s.namespaceName d.namespaceName ambient
  return (s.withProfile (s.resolve d.preset)
    |>.withNamespace (namespaceName?.getD s.namespaceName)).withName (d.nameFor s)

end ElectionDefaults

end LeaderLease
