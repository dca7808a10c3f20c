import LeaderLease.Proofs.Act.Basic
import LeaderLease.Transport

namespace LeaderLease.Transport

variable {ω : Type}

def answerEvents (flags : DebugFlags) (request : Request) (elapsed : Duration) (response : Response) :
    List LogEvent :=
  (if flags.urlTiming then [.finished request.method request.path elapsed] else []) ++
    ((if flags.responseStatus then [.answered request.method request.path response.status] else []) ++
      if flags.detailedTiming then [.timed request.method request.path elapsed response.body.length] else [])

theorem logAnswer_apply (flags : DebugFlags) (request : Request) (elapsed : Duration) (response : Response)
    (w : ω) :
    logAnswer flags request elapsed response w = ⟨(), w, answerEvents flags request elapsed response⟩ := rfl

def resultEvents (flags : DebugFlags) (request : Request) (elapsed : Duration) :
    Except TransportError Response → List LogEvent
  | .ok response => answerEvents flags request elapsed response
  | .error e => [.undelivered request.method request.path elapsed e.message]

theorem logged_apply (clock : Clock ω) (flags : DebugFlags) (inner : Transport ω) (request : Request) (w : ω) :
    logged clock flags inner request w =
      ⟨(inner request w).value, (inner request w).world,
        (if flags.detailedTiming then [.sending request.method request.path request.body.length] else []) ++
          ((inner request w).log ++
            resultEvents flags request (clock.running (inner request w).world - clock.running w)
              (inner request w).value)⟩ := by
  unfold logged
  simp only [Act.bind_apply, Act.emitIf_apply, Act.look_apply, List.nil_append]
  cases hvalue : (inner request w).value with
  | ok response =>
      simp only [Act.bind_apply, logAnswer_apply, Act.pure_apply, List.append_nil, resultEvents]
  | error e =>
      simp only [Act.bind_apply, Act.emit_apply, Act.pure_apply, List.append_nil, resultEvents]

@[simp]
theorem logged_value (clock : Clock ω) (flags : DebugFlags) (inner : Transport ω) (request : Request) (w : ω) :
    (logged clock flags inner request w).value = (inner request w).value := by
  rw [logged_apply]

@[simp]
theorem logged_world (clock : Clock ω) (flags : DebugFlags) (inner : Transport ω) (request : Request) (w : ω) :
    (logged clock flags inner request w).world = (inner request w).world := by
  rw [logged_apply]

end LeaderLease.Transport
