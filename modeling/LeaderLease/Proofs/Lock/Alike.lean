import LeaderLease.Lock.Lease
import LeaderLease.Proofs.Transport.Flags

namespace LeaderLease

variable {ω α : Type} {L : LogRelation} {flags : DebugFlags}

/-- The same locks, but for the log of their traffic. -/
structure LeaseLock.Alike (L : LogRelation) (l m : LeaseLock ω) : Prop where
  namespaceName : l.namespaceName = m.namespaceName
  name : l.name = m.name
  identity : l.identity = m.identity
  locate : l.locate = m.locate
  recorder : l.recorder = m.recorder
  client : ∀ request, Act.Matches L Eq Eq (l.client request) (m.client request)
  events : ∀ request, Act.Steady L (m.recorder.transport request)

namespace LeaseLock.Alike

variable {l m : LeaseLock ω}

theorem collectionPath (h : Alike L l m) : l.collectionPath = m.collectionPath := by
  rw [LeaseLock.collectionPath, LeaseLock.collectionPath, h.namespaceName]

theorem resourcePath (h : Alike L l m) : l.resourcePath = m.resourcePath := by
  rw [LeaseLock.resourcePath, LeaseLock.resourcePath, h.collectionPath, h.name]

theorem describe (h : Alike L l m) : l.describe = m.describe := by
  rw [LeaseLock.describe, LeaseLock.describe, h.namespaceName, h.name]

theorem send (h : Alike L l m) (method : Method) (path : String) (body : Bytes) :
    Act.Matches L Eq Eq (l.send method path body) (m.send method path body) := by
  unfold LeaseLock.send
  cases Request.address method path body with
  | error e => exact Act.matches_pure rfl
  | ok request =>
      apply (h.client request).bind_same
      intro result
      cases result with
      | ok response => exact Act.matches_pure rfl
      | error e => exact Act.matches_pure rfl

theorem operation (hL : L.Respects flags) (h : Alike L l m) (method : Method) (path : String) (body : Bytes)
    (interpret : Response → Except LockError α) :
    Act.Matches L Eq Eq
      (Act.reportingFailure LockError.message (do return (← l.send method path body) >>= interpret))
      (Act.reportingFailure LockError.message (do return (← m.send method path body) >>= interpret)) := by
  have hresult : Act.Matches L (Act.SameEnd Eq) Eq
      (do return (← l.send method path body) >>= interpret) (do return (← m.send method path body) >>= interpret) := by
    apply (h.send method path body).bind_same
    intro result
    exact Act.matches_pure (Act.sameEnd_eq.mpr rfl)
  exact (hresult.reportingFailure fun _ => hL.kept rfl).weaken fun _ _ => Act.sameEnd_eq.mp

theorem get (hL : L.Respects flags) (h : Alike L l m) : Act.Matches L Eq Eq l.get m.get := by
  unfold LeaseLock.get
  rw [h.resourcePath, h.describe, h.locate]
  exact operation hL h .get _ _ _

theorem create (hL : L.Respects flags) (h : Alike L l m) (record : LeaderRecord) :
    Act.Matches L Eq Eq (l.create record) (m.create record) := by
  unfold LeaseLock.create
  rw [h.collectionPath, h.describe]
  exact operation hL h .post _ _ _

theorem update (hL : L.Respects flags) (h : Alike L l m) (record : LeaderRecord) :
    Act.Matches L Eq Eq (l.update record) (m.update record) := by
  unfold LeaseLock.update
  rw [h.resourcePath, h.describe]
  exact operation hL h .put _ _ _

end LeaseLock.Alike

theorem EventRecorder.verdict_kept (result : Except TransportError Response) :
    DebugFlags.none.keeps (EventRecorder.verdict result) = true := by
  cases result with
  | error e => rfl
  | ok response =>
      unfold EventRecorder.verdict
      dsimp only
      split <;> rfl

theorem EventRecorder.record_matches (hL : L.Respects flags) {r : EventRecorder ω}
    (hsteady : ∀ request, Act.Steady L (r.transport request)) (type : EventType) (reason message : String) :
    Act.Matches L Eq Eq (r.record type reason message) (r.record type reason message) := by
  unfold EventRecorder.record
  apply Act.Matches.bind_same (Act.matches_emit (hL.kept rfl))
  intro _
  have hlook : Act.Matches L Eq Eq (.look r.now) (.look r.now) :=
    Act.matches_look fun _ _ hst => congrArg r.now hst
  apply hlook.bind_same
  intro time
  dsimp only
  cases Request.address .post r.path (r.event type reason message time).encode with
  | error e => exact Act.matches_emit (hL.kept rfl)
  | ok request =>
      apply (hsteady request).matches.bind_same
      intro result
      exact Act.matches_emit (hL.kept (EventRecorder.verdict_kept result))

theorem LeaseLock.Alike.recordEvent (hL : L.Respects flags) {l m : LeaseLock ω} (h : Alike L l m) (message : String) :
    Act.Matches L Eq Eq (l.recordEvent message) (m.recordEvent message) := by
  unfold LeaseLock.recordEvent
  rw [h.recorder, h.identity]
  exact EventRecorder.record_matches hL h.events _ _ _

end LeaderLease
