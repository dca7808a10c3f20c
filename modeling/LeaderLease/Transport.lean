import LeaderLease.Act

/-!
Transports carry requests to a lock backend. A logged transport does the same as the one inside it and tells what it
has seen, as far as its flags ask for it.
-/

namespace LeaderLease

/-- A failure and what it was caused by, outermost first. -/
structure Fault where
  message : String
  causes : List String
  deriving DecidableEq

def Fault.chain (f : Fault) : String := ": ".intercalate (f.message :: f.causes)

/-- A request could not be delivered, or its answer did not arrive. -/
structure TransportError where
  method : Method
  path : String
  source : Fault
  deriving DecidableEq

namespace TransportError

def ofRequest (r : Request) (source : Fault) : TransportError := ⟨r.method, r.path, source⟩

/-- Only the outermost cause is told. -/
def message (e : TransportError) : String :=
  e.method.name ++ " " ++ e.path ++ " failed: " ++ e.source.message

def toFault (e : TransportError) : Fault := ⟨e.message, e.source.message :: e.source.causes⟩

end TransportError

abbrev Transport (ω : Type) := Request → Act ω (Except TransportError Response)

/-- The clocks of a world: one that only runs on, and one that shows the time of day. -/
structure Clock (ω : Type) where
  running : ω → Duration
  now : ω → Timestamp

/-- What a logged transport tells beside failures. -/
structure DebugFlags where
  detailedTiming : Bool
  urlTiming : Bool
  responseStatus : Bool
  deriving DecidableEq

namespace DebugFlags

def all : DebugFlags := ⟨true, true, true⟩

def none : DebugFlags := ⟨false, false, false⟩

def default : DebugFlags := all

end DebugFlags

namespace Transport

variable {ω : Type}

def logAnswer (flags : DebugFlags) (request : Request) (elapsed : Duration) (response : Response) : Act ω Unit := do
  .emitIf flags.urlTiming (.finished request.method request.path elapsed)
  .emitIf flags.responseStatus (.answered request.method request.path response.status)
  .emitIf flags.detailedTiming (.timed request.method request.path elapsed response.body.length)

/-- The same transport, with a log of its traffic. Failures are told whatever the flags. -/
def logged (clock : Clock ω) (flags : DebugFlags) (inner : Transport ω) : Transport ω := fun request => do
  .emitIf flags.detailedTiming (.sending request.method request.path request.body.length)
  let started ← .look clock.running
  let result ← inner request
  let elapsed := (← .look clock.running) - started
  match result with
  | .ok response => logAnswer flags request elapsed response
  | .error e => .emit (.undelivered request.method request.path elapsed e.message)
  return result

def on {σ : Type} (part : Part σ ω) (t : Transport ω) : Transport σ := fun request => (t request).on part

end Transport

end LeaderLease
