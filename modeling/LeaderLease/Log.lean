import LeaderLease.Duration.Text
import LeaderLease.Leader.Event
import LeaderLease.Request
import LeaderLease.Timing.Profile

namespace LeaderLease

inductive LogLevel where
  | error
  | warn
  | info
  | debug
  deriving DecidableEq

def LogLevel.name : LogLevel → String
  | error => "ERROR"
  | warn => "WARN"
  | info => "INFO"
  | debug => "DEBUG"

inductive LogEvent where
  | ambientUnavailable (path reason : String)
  | ambientBlank (path : String)
  | timingInconsistent (timing : Profile)
  | hostnameEmpty (identity : String)
  | hostnameUnavailable (identity reason : String)
  | assembled (identity : String) (timing : Profile)
  | sending (method : Method) (path : String) (requestBytes : Nat)
  | finished (method : Method) (path : String) (elapsed : Duration)
  | answered (method : Method) (path : String) (status : Nat)
  | timed (method : Method) (path : String) (elapsed : Duration) (responseBytes : Nat)
  | undelivered (method : Method) (path : String) (elapsed : Duration) (reason : String)
  | failed (reason : String)
  | announced (type : EventType) (reason message : String)
  | recorded
  | rejected (status : Nat)
  | unwritten (reason : String)
  | unaddressed (reason : String)
  | leadershipLost
  deriving DecidableEq

namespace LogEvent

def level : LogEvent → LogLevel
  | failed _ => .error
  | timingInconsistent _ | hostnameEmpty _ | hostnameUnavailable .. | undelivered .. | rejected _ | unwritten _
  | unaddressed _ | leadershipLost => .warn
  | assembled .. | announced .. => .info
  | ambientUnavailable .. | ambientBlank _ | sending .. | finished .. | answered .. | timed .. | recorded => .debug

/-- The sentence that an event is shown with. A failure has none. -/
def message? : LogEvent → Option String
  | ambientUnavailable .. => some "No ambient namespace available"
  | ambientBlank _ => some "Ambient namespace file is blank"
  | timingInconsistent _ => some "Lease timing is inconsistent, using it as configured"
  | hostnameEmpty _ => some "Hostname is empty, using a bare unique identity"
  | hostnameUnavailable .. => some "Failed to read hostname, using a bare unique identity"
  | assembled .. => some "Assembled leader election config"
  | sending .. => some "Sending lock backend request"
  | finished .. => some "Lock backend request finished"
  | answered .. => some "Lock backend response status"
  | timed .. => some "Lock backend request timing"
  | undelivered .. => some "Lock backend request failed"
  | failed _ => none
  | announced .. => some "Leader election event"
  | recorded => some "Leader election event recorded"
  | rejected _ => some "Event sink rejected leader election event"
  | unwritten _ => some "Failed to write leader election event"
  | unaddressed _ => some "Failed to address leader election event"
  | leadershipLost => some "leader election lost"

def timingFields (timing : Profile) : List (String × String) :=
  [("lease_duration", timing.leaseDuration.text), ("renew_deadline", timing.renewDeadline.text),
    ("retry_period", timing.retryPeriod.text)]

def details : LogEvent → List (String × String)
  | ambientUnavailable path reason => [("path", path), ("error", reason)]
  | ambientBlank path => [("path", path)]
  | timingInconsistent timing => timingFields timing
  | hostnameEmpty identity => [("identity", identity)]
  | hostnameUnavailable identity reason => [("identity", identity), ("error", reason)]
  | assembled identity timing => ("identity", identity) :: timingFields timing
  | sending method path requestBytes =>
    [("method", method.name), ("path", path), ("request_bytes", toString requestBytes)]
  | finished method path elapsed =>
    [("method", method.name), ("path", path), ("elapsed_ms", toString elapsed.millis)]
  | answered method path status => [("method", method.name), ("path", path), ("status", toString status)]
  | timed method path elapsed responseBytes =>
    [("method", method.name), ("path", path), ("elapsed", elapsed.text), ("response_bytes", toString responseBytes)]
  | undelivered method path elapsed reason =>
    [("method", method.name), ("path", path), ("elapsed", elapsed.text), ("error", reason)]
  | failed reason => [("error", reason)]
  | announced type reason message => [("event_type", type.name), ("reason", reason), ("message", message)]
  | rejected status => [("status", toString status)]
  | unwritten reason => [("error", reason)]
  | unaddressed reason => [("error", reason)]
  | recorded | leadershipLost => []

def fields (e : LogEvent) : List (String × String) :=
  e.message?.toList.map (("message", ·)) ++ e.details

end LogEvent

end LeaderLease
