import LeaderLease.Election.Callbacks

namespace LeaderLease

structure Audience where
  stopped : Nat
  /-- The leaders it was told of, oldest first. -/
  leaders : List String
  /-- The tokens it was given, oldest first. -/
  received : List CancellationToken
  /-- For every token there is, whether it is cancelled. -/
  cancelled : List Bool
  deriving DecidableEq

namespace Audience

def empty : Audience := ⟨0, [], [], []⟩

def newToken : Act Audience CancellationToken := fun a =>
  ⟨⟨a.cancelled.length⟩, { a with cancelled := a.cancelled ++ [false] }, []⟩

def cancel (token : CancellationToken) : Act Audience Unit :=
  .change fun a => { a with cancelled := a.cancelled.set token.number true }

def isCancelled (a : Audience) (token : CancellationToken) : Bool := a.cancelled[token.number]?.getD false

def countStop : Act Audience Unit := .change fun a => { a with stopped := a.stopped + 1 }

def hearLeader (identity : String) : Act Audience Unit :=
  .change fun a => { a with leaders := a.leaders ++ [identity] }

def receive (token : CancellationToken) : Act Audience Unit :=
  .change fun a => { a with received := a.received ++ [token] }

def callbacks (started newLeader : Bool) : LeaderCallbacks Audience where
  onStartedLeading := if started then some receive else none
  onStoppedLeading := countStop
  onNewLeader := if newLeader then some hearLeader else none

/-- What the application has heard: stops, leaders, and for each token it was given whether that is cancelled. -/
structure Heard where
  stopped : Nat
  leaders : List String
  tokensCancelled : List Bool
  deriving DecidableEq

def heard (a : Audience) : Heard := ⟨a.stopped, a.leaders, a.received.map a.isCancelled⟩

end Audience

inductive LeadershipChange where
  | stoppedLeading
  | newLeader (identity : String)
  | startedLeading
  | cancel (token : CancellationToken)
  deriving DecidableEq

/-- Report a change to callbacks in a world with an audience. A new token is made for every start. -/
def LeadershipChange.report {ω : Type} (audience : Part ω Audience) (callbacks : LeaderCallbacks ω) :
    LeadershipChange → Act ω Unit
  | .stoppedLeading => callbacks.stoppedLeading
  | .newLeader identity => callbacks.newLeader identity
  | .startedLeading => do callbacks.startedLeading (← Audience.newToken.on audience)
  | .cancel token => (Audience.cancel token).on audience

end LeaderLease
