import LeaderLease.Act

namespace LeaderLease

/-- Stands for work that ends when leadership does. -/
structure CancellationToken where
  number : Nat
  deriving DecidableEq

/-- What to do when leadership changes. Only the end of leadership has to be dealt with. -/
structure LeaderCallbacks (ω : Type) where
  onStartedLeading : Option (CancellationToken → Act ω Unit)
  onStoppedLeading : Act ω Unit
  onNewLeader : Option (String → Act ω Unit)

namespace LeaderCallbacks

variable {ω : Type}

def startedLeading (c : LeaderCallbacks ω) (token : CancellationToken) : Act ω Unit :=
  match c.onStartedLeading with
  | some f => f token
  | none => return ()

def stoppedLeading (c : LeaderCallbacks ω) : Act ω Unit := c.onStoppedLeading

def newLeader (c : LeaderCallbacks ω) (identity : String) : Act ω Unit :=
  match c.onNewLeader with
  | some f => f identity
  | none => return ()

end LeaderCallbacks

end LeaderLease
