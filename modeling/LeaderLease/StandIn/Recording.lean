import LeaderLease.Transport

namespace LeaderLease

/-- The requests that were sent, oldest first, and the answers still to give. -/
structure Recording where
  requests : List Request
  outcomes : List (Except String Response)

namespace Recording

def blank : Recording := ⟨[], []⟩

def defaultResponse : Response := ⟨200, []⟩

def queue (outcomes : List (Except String Response)) (r : Recording) : Recording :=
  { r with outcomes := r.outcomes ++ outcomes }

def answer (request : Request) : List (Except String Response) → Except TransportError Response
  | [] => .ok defaultResponse
  | .ok response :: _ => .ok response
  | .error message :: _ => .error (.ofRequest request ⟨message, []⟩)

/-- Remember the request and give the next answer. A request that fails is remembered, too. -/
def transport : Transport Recording := fun request r =>
  ⟨answer request r.outcomes, ⟨r.requests ++ [request], r.outcomes.tail⟩, []⟩

end Recording

end LeaderLease
