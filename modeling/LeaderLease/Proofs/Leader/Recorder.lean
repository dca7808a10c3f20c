import LeaderLease.Leader.Recorder
import LeaderLease.Proofs.Act.Basic
import LeaderLease.Proofs.Leader.RoundTrip
import LeaderLease.StandIn.Recording

namespace LeaderLease

def LeaderEvent.timeless (e : LeaderEvent) : LeaderEvent := { e with timestamp := .epoch }

/-- The request without the time of the event in its body, if there is one. -/
def Request.timeless (r : Request) : Request :=
  match LeaderEvent.decode r.body with
  | .ok event => { r with body := event.timeless.encode }
  | .error _ => r

theorem Request.timeless_encode (method : Method) (target : Target) (event : LeaderEvent) :
    Request.timeless ⟨method, target, event.encode⟩ = ⟨method, target, event.timeless.encode⟩ := by
  unfold Request.timeless
  dsimp only
  rw [LeaderEvent.decode_encode]
  rfl

def Recording.timeless (r : Recording) : Recording := { r with requests := r.requests.map Request.timeless }

namespace EventRecorder

variable {σ : Type}

/-- What a connection has recorded once an event was sent to it. -/
def sent (r : EventRecorder σ) (event : LeaderEvent) (recording : Recording) : Recording :=
  match Request.address .post r.path event.encode with
  | .ok request => ⟨recording.requests ++ [request], recording.outcomes.tail⟩
  | .error _ => recording

theorem sent_eq (r : EventRecorder σ) (event : LeaderEvent) (recording : Recording) :
    r.sent event recording =
      match Target.parse r.path with
      | .ok target => ⟨recording.requests ++ [⟨.post, target, event.encode⟩], recording.outcomes.tail⟩
      | .error _ => recording := by
  unfold sent Request.address
  cases Target.parse r.path <;> rfl

theorem record_world {r : EventRecorder σ} {part : Part σ Recording}
    (htransport : r.transport = Recording.transport.on part) (type : EventType) (reason message : String) (s : σ) :
    (r.record type reason message s).world =
      part.set (r.sent (r.event type reason message (r.now s)) (part.get s)) s := by
  unfold record sent
  simp only [Act.bind_apply, Act.emit_apply, Act.look_apply]
  cases Request.address .post r.path (r.event type reason message (r.now s)).encode with
  | ok request =>
      dsimp only
      rw [htransport]
      rfl
  | error e => exact (part.set_get s).symm

theorem timeless_sent {r : EventRecorder σ} {event event' : LeaderEvent} {recording recording' : Recording}
    (hevent : event.timeless = event'.timeless) (hrecording : recording.timeless = recording'.timeless) :
    (r.sent event recording).timeless = (r.sent event' recording').timeless := by
  rw [sent_eq, sent_eq]
  cases Target.parse r.path with
  | error e => exact hrecording
  | ok target =>
      have hrequests : recording.requests.map Request.timeless = recording'.requests.map Request.timeless :=
        congrArg Recording.requests hrecording
      have houtcomes := congrArg Recording.outcomes hrecording
      change recording.outcomes = recording'.outcomes at houtcomes
      unfold Recording.timeless
      dsimp only
      rw [List.map_append, List.map_append, hrequests, houtcomes, List.map_singleton, List.map_singleton,
        Request.timeless_encode, Request.timeless_encode, hevent]

end EventRecorder

end LeaderLease
