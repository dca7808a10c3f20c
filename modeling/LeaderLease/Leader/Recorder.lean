import LeaderLease.Transport

/-!
Writing leader events to the backend. An event that cannot be written is logged, and nothing else comes of it.
-/

namespace LeaderLease

structure EventRecorder (ω : Type) where
  component : String
  namespaceName : String
  object : String
  transport : Transport ω
  now : ω → Timestamp

namespace EventRecorder

variable {ω : Type}

def path (r : EventRecorder ω) : String := "/namespaces/" ++ r.namespaceName ++ "/events"

def event (r : EventRecorder ω) (type : EventType) (reason message : String) (timestamp : Timestamp) :
    LeaderEvent where
  component := r.component
  namespaceName := r.namespaceName
  involvedObject := r.object
  type
  reason
  message
  timestamp

def verdict : Except TransportError Response → LogEvent
  | .ok response => if response.isSuccess then .recorded else .rejected response.status
  | .error e => .unwritten e.message

def record (r : EventRecorder ω) (type : EventType) (reason message : String) : Act ω Unit := do
  .emit (.announced type reason message)
  let event := r.event type reason message (← .look r.now)
  match Request.address .post r.path event.encode with
  | .ok request => do .emit (verdict (← r.transport request))
  | .error e => .emit (.unaddressed e.message)

end EventRecorder

end LeaderLease
