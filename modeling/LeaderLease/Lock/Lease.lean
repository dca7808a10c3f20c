import LeaderLease.Leader.Record
import LeaderLease.Leader.Recorder
import LeaderLease.Lock.Error

/-!
A lock whose record is kept by a backend, one resource per lock. Every operation is one request at most.
-/

namespace LeaderLease

structure LeaseLock (ω : Type) where
  namespaceName : String
  name : String
  identity : String
  client : Transport ω
  /-- Where the errors are in the bodies of answers. -/
  locate : Json.Locator
  recorder : EventRecorder ω

namespace LeaseLock

variable {ω : Type}

def describe (l : LeaseLock ω) : String := l.namespaceName ++ "/" ++ l.name

def collectionPath (l : LeaseLock ω) : String := "/namespaces/" ++ l.namespaceName ++ "/leases"

def resourcePath (l : LeaseLock ω) : String := l.collectionPath ++ "/" ++ l.name

def send (l : LeaseLock ω) (method : Method) (path : String) (body : Bytes) : Act ω (Except LockError Response) :=
  match Request.address method path body with
  | .error e => return .error (.transport ⟨e.message, []⟩)
  | .ok request => do
    match ← l.client request with
    | .ok response => return .ok response
    | .error e => return .error (.transport e.toFault)

/-- How much of the body of an unexpected answer is told, in characters. -/
def excerptLength : Nat := 500

def excerpt (body : Bytes) : String := .ofList ((Utf8.decodeLenient body).take excerptLength)

def unexpected (response : Response) : LockError := .unexpectedStatus response.status (excerpt response.body)

def interpretGet (locate : Json.Locator) (lock : String) (response : Response) : Except LockError LeaderRecord :=
  if response.isSuccess then
    (LeaderRecord.decode response.body).mapError fun reason => .unreadable ⟨reason, locate response.body reason⟩
  else if response.status = Response.notFound then .error (.notFound lock)
  else .error (unexpected response)

def interpretCreate (lock : String) (response : Response) : Except LockError Unit :=
  if response.isSuccess then .ok ()
  else if response.status = Response.conflict then .error (.conflict lock)
  else .error (unexpected response)

def interpretUpdate (lock : String) (response : Response) : Except LockError Unit :=
  if response.isSuccess then .ok ()
  else if response.status = Response.notFound then .error (.notFound lock)
  else if response.status = Response.conflict then .error (.conflict lock)
  else .error (unexpected response)

def get (l : LeaseLock ω) : Act ω (Except LockError LeaderRecord) :=
  .reportingFailure LockError.message do
    return (← l.send .get l.resourcePath []) >>= interpretGet l.locate l.describe

def create (l : LeaseLock ω) (record : LeaderRecord) : Act ω (Except LockError Unit) :=
  .reportingFailure LockError.message do
    return (← l.send .post l.collectionPath record.encode) >>= interpretCreate l.describe

def update (l : LeaseLock ω) (record : LeaderRecord) : Act ω (Except LockError Unit) :=
  .reportingFailure LockError.message do
    return (← l.send .put l.resourcePath record.encode) >>= interpretUpdate l.describe

def recordEvent (l : LeaseLock ω) (message : String) : Act ω Unit :=
  l.recorder.record .normal LeaderEvent.electionReason (l.identity ++ " " ++ message)

end LeaseLock

end LeaderLease
