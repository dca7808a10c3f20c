import LeaderLease.Lock.Lease
import LeaderLease.Proofs.Act.Within
import LeaderLease.Proofs.Transport.Logged

namespace LeaderLease

variable {σ ω α : Type} {part : Part σ ω}

theorem Transport.on_within (t : Transport ω) (request : Request) : Act.Within part (t.on part request) :=
  Act.within_on (t request)

theorem Transport.logged_within {clock : Clock σ} {flags : DebugFlags} {inner : Transport σ} {request : Request}
    (hinner : Act.Within part (inner request)) : Act.Within part (logged clock flags inner request) where
  frame s := by
    rw [logged_world]
    exact hinner.frame s
  value s t hget := by
    rw [logged_value, logged_value]
    exact hinner.value s t hget
  world s t hget := by
    rw [logged_world, logged_world]
    exact hinner.world s t hget

namespace LeaseLock

variable {l : LeaseLock σ}

theorem send_within (hclient : ∀ request, Act.Within part (l.client request)) (method : Method) (path : String)
    (body : Bytes) : Act.Within part (l.send method path body) := by
  unfold send
  cases Request.address method path body with
  | error e => exact Act.within_pure _
  | ok request =>
      apply (hclient request).bind
      intro result
      cases result with
      | ok response => exact Act.within_pure _
      | error e => exact Act.within_pure _

theorem operation_within (hclient : ∀ request, Act.Within part (l.client request)) (method : Method) (path : String)
    (body : Bytes) (interpret : Response → Except LockError α) :
    Act.Within part (Act.reportingFailure LockError.message (do
      return (← l.send method path body) >>= interpret)) := by
  apply Act.Within.reportingFailure
  apply (send_within hclient method path body).bind
  intro result
  exact Act.within_pure _

theorem get_within (hclient : ∀ request, Act.Within part (l.client request)) : Act.Within part l.get :=
  operation_within hclient .get _ _ _

theorem create_within (hclient : ∀ request, Act.Within part (l.client request)) (record : LeaderRecord) :
    Act.Within part (l.create record) :=
  operation_within hclient .post _ _ _

theorem update_within (hclient : ∀ request, Act.Within part (l.client request)) (record : LeaderRecord) :
    Act.Within part (l.update record) :=
  operation_within hclient .put _ _ _

end LeaseLock

end LeaderLease
