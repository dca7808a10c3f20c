import LeaderLease.Proofs.Election.Loss
import LeaderLease.Proofs.Lock.Register

namespace LeaderLease

variable {ω σ α β ε : Type}

def Act.Keeps (read : σ → β) (a : Act σ α) : Prop := ∀ s, read (a s).world = read s

namespace Act

variable {read : σ → β}

theorem keeps_pure (x : α) : Keeps read (pure x : Act σ α) := fun _ => rfl

theorem keeps_emit (e : LogEvent) : Keeps read (emit e) := fun _ => rfl

theorem keeps_look (f : σ → α) : Keeps read (look f) := fun _ => rfl

theorem Keeps.bind {γ : Type} {a : Act σ α} {f : α → Act σ γ} (ha : Keeps read a) (hf : ∀ x, Keeps read (f x)) :
    Keeps read (a >>= f) := fun s => (hf _ _).trans (ha s)

theorem Keeps.reportingFailure {message : ε → String} {a : Act σ (Except ε α)} (ha : Keeps read a) :
    Keeps read (reportingFailure message a) := by
  intro s
  rw [reportingFailure_apply]
  exact ha s

end Act

section Keeps

variable {read : σ → β}

theorem Transport.logged_keeps {clock : Clock σ} {flags : DebugFlags} {inner : Transport σ} {request : Request}
    (hinner : Act.Keeps read (inner request)) : Act.Keeps read (logged clock flags inner request) := by
  intro s
  rw [logged_world]
  exact hinner s

theorem LeaseLock.operation_keeps {l : LeaseLock σ} (hclient : ∀ request, Act.Keeps read (l.client request))
    (method : Method) (path : String) (body : Bytes) (interpret : Response → Except LockError α) :
    Act.Keeps read (Act.reportingFailure LockError.message (do
      return (← l.send method path body) >>= interpret)) := by
  apply Act.Keeps.reportingFailure
  have hsend : Act.Keeps read (l.send method path body) := by
    unfold send
    cases Request.address method path body with
    | error e => exact Act.keeps_pure _
    | ok request =>
        apply (hclient request).bind
        intro result
        cases result with
        | ok response => exact Act.keeps_pure _
        | error e => exact Act.keeps_pure _
  exact hsend.bind fun _ => Act.keeps_pure _

theorem LockCall.perform_keeps {l : LeaseLock σ} (hclient : ∀ request, Act.Keeps read (l.client request))
    (call : LockCall) : Act.Keeps read (call.perform l) := by
  intro s
  cases call with
  | get =>
      rw [(perform_get l s).2]
      exact LeaseLock.operation_keeps hclient .get _ _ (LeaseLock.interpretGet l.locate l.describe) s
  | create record =>
      rw [(perform_create l record s).2]
      exact LeaseLock.operation_keeps hclient .post _ _ (LeaseLock.interpretCreate l.describe) s
  | update record =>
      rw [(perform_update l record s).2]
      exact LeaseLock.operation_keeps hclient .put _ _ (LeaseLock.interpretUpdate l.describe) s

theorem EventRecorder.record_keeps {r : EventRecorder σ} (htransport : ∀ request, Act.Keeps read (r.transport request))
    (type : EventType) (reason message : String) : Act.Keeps read (r.record type reason message) := by
  apply (Act.keeps_emit _).bind
  intro _
  apply (Act.keeps_look _).bind
  intro now
  dsimp only
  cases Request.address .post r.path (r.event type reason message now).encode with
  | error e => exact Act.keeps_emit _
  | ok request => exact (htransport request).bind fun _ => Act.keeps_emit _

end Keeps

inductive ElectionUse where
  | lock (call : LockCall)
  | recordEvent (message : String)
  | startedLeading (token : CancellationToken)
  | newLeader (identity : String)
  | stoppedLeading
  | intoParts
  deriving DecidableEq

structure InUse (ω : Type) where
  held : ElectionConfig ω ⊕ ElectionParts ω
  guarded : Guarded ω

namespace InUse

def fresh (config : ElectionConfig ω) (w : ω) : InUse ω := ⟨.inl config, .fresh w⟩

def lock (u : InUse ω) : LeaseLock ω := u.held.elim ElectionConfig.lock ElectionParts.lock

def callbacks (u : InUse ω) : LeaderCallbacks (Guarded ω) :=
  u.held.elim ElectionConfig.callbacks ElectionParts.callbacks

def parts (u : InUse ω) : ElectionParts ω := u.held.elim ElectionConfig.intoParts id

def after (u : InUse ω) (a : Act (Guarded ω) α) : InUse ω := { u with guarded := (a u.guarded).world }

def step (u : InUse ω) : ElectionUse → InUse ω
  | .lock call => u.after ((call.perform u.lock).on Guarded.inner)
  | .recordEvent message => u.after ((u.lock.recordEvent message).on Guarded.inner)
  | .startedLeading token => u.after (u.callbacks.startedLeading token)
  | .newLeader identity => u.after (u.callbacks.newLeader identity)
  | .stoppedLeading => u.after u.callbacks.stoppedLeading
  | .intoParts => { u with held := .inr u.parts }

theorem step_lock (u : InUse ω) (call : LockCall) :
    (u.step (.lock call)).guarded = ⟨u.guarded.fired, (call.perform u.lock u.guarded.world).world⟩ := by
  rw [step, after, Act.on_apply]
  rfl

theorem step_recordEvent (u : InUse ω) (message : String) :
    (u.step (.recordEvent message)).guarded =
      ⟨u.guarded.fired, (u.lock.recordEvent message u.guarded.world).world⟩ := by
  rw [step, after, Act.on_apply]
  rfl

def run (u : InUse ω) (uses : List ElectionUse) : InUse ω := uses.foldl step u

/-- The config is there, as a whole or in its parts. -/
def Holds (config : ElectionConfig ω) (u : InUse ω) : Prop := u.held = .inl config ∨ u.held = .inr config.intoParts

section Holds

variable {config : ElectionConfig ω} {u : InUse ω}

theorem Holds.lock_eq (h : Holds config u) : u.lock = config.lock := by
  unfold lock
  obtain hheld | hheld := h <;> rw [hheld] <;> rfl

theorem Holds.callbacks_eq (h : Holds config u) : u.callbacks = config.callbacks := by
  unfold callbacks
  obtain hheld | hheld := h <;> rw [hheld] <;> rfl

theorem Holds.parts_eq (h : Holds config u) : u.parts = config.intoParts := by
  unfold parts
  obtain hheld | hheld := h <;> rw [hheld] <;> rfl

theorem Holds.after (h : Holds config u) (a : Act (Guarded ω) α) : Holds config (u.after a) := h

theorem Holds.step (h : Holds config u) (use : ElectionUse) : Holds config (u.step use) := by
  cases use with
  | intoParts => exact .inr (congrArg Sum.inr h.parts_eq)
  | lock | recordEvent | startedLeading | newLeader | stoppedLeading => exact h.after _

theorem Holds.run (h : Holds config u) (uses : List ElectionUse) : Holds config (u.run uses) := by
  induction uses generalizing u with
  | nil => exact h
  | cons use uses ih => exact ih (h.step use)

end Holds

end InUse

theorem Spied.call_keeps {read : List BuilderCall → β} {c : BuilderCall}
    (hread : ∀ calls, read (calls ++ [c]) = read calls) (a : Act ω α) :
    Act.Keeps (fun s => read s.calls) (call c a) := by
  intro s
  rw [call_apply]
  exact hread s.calls

structure ElectionConfig.SpiedOn (config : ElectionConfig (Spied ω)) : Prop where
  client : ∃ clock flags client, config.lock.client = Transport.logged clock flags (Spied.transport 1 client)
  events : ∃ events, config.lock.recorder.transport = Spied.transport 0 events
  started : ∀ f ∈ config.callbacks.onStartedLeading, ∃ g : CancellationToken → Act ω Unit,
    f = fun token => (Spied.call (.startedLeading token) (g token)).on Guarded.inner
  stopped : ∃ terminate, config.callbacks.onStoppedLeading = Guarded.onStoppedLeading (Spied.call .terminate terminate)
  newLeader : ∀ f ∈ config.callbacks.onNewLeader, ∃ g : String → Act ω Unit,
    f = fun identity => (Spied.call (.newLeader identity) (g identity)).on Guarded.inner

theorem ConfigBuilder.spied_config {b : ConfigBuilder ω} {w : ω} {config : ElectionConfig (Spied ω)}
    (hbuild : (b.spied.build ⟨w, []⟩).value = .ok config) :
    ∃ events client identity, (b.connect w).value = .ok events ∧ (b.connect (b.connect w).world).value = .ok client ∧
      config = .ofLock (b.spied.lock (Spied.transport 0 events) (Spied.transport 1 client) identity) b.timing
        b.spied.callbacks := by
  obtain ⟨spiedEvents, spiedClient, -, hspiedFirst, hspiedSecond, rfl⟩ := eq_of_build_ok hbuild
  cases hfirst : (b.connect w).value with
  | error fault =>
      rw [spied_connect, hfirst] at hspiedFirst
      cases hspiedFirst
  | ok events =>
      obtain ⟨hfirst', hsecond'⟩ := spied_connects hfirst
      obtain rfl := Except.ok.inj (hfirst'.symm.trans hspiedFirst)
      rw [hsecond'] at hspiedSecond
      cases hsecond : (b.connect (b.connect w).world).value with
      | error fault =>
          rw [hsecond] at hspiedSecond
          cases hspiedSecond
      | ok client =>
          rw [hsecond] at hspiedSecond
          obtain rfl := Except.ok.inj hspiedSecond
          exact ⟨events, client, _, rfl, rfl, rfl⟩

theorem ConfigBuilder.spiedOn_of_build {b : ConfigBuilder ω} {w : ω} {config : ElectionConfig (Spied ω)}
    (hbuild : (b.spied.build ⟨w, []⟩).value = .ok config) : config.SpiedOn := by
  obtain ⟨events, client, identity, -, -, rfl⟩ := spied_config hbuild
  exact {
    client := ⟨_, _, client, rfl⟩
    events := ⟨events, rfl⟩
    started := by
      intro f hf
      change f ∈ (b.onStartedLeading.map _).map _ at hf
      cases hstarted : b.onStartedLeading with
      | none =>
          rw [hstarted] at hf
          cases hf
      | some g =>
          rw [hstarted] at hf
          obtain rfl := Option.some.inj hf
          exact ⟨g, rfl⟩
    stopped := ⟨b.terminate, rfl⟩
    newLeader := by
      intro f hf
      change f ∈ (b.onNewLeader.map _).map _ at hf
      cases hnew : b.onNewLeader with
      | none =>
          rw [hnew] at hf
          cases hf
      | some g =>
          rw [hnew] at hf
          obtain rfl := Option.some.inj hf
          exact ⟨g, rfl⟩ }

def ElectionUse.MayCall : ElectionUse → BuilderCall → Prop
  | lock _, c => ∃ request, c = .request 1 request
  | recordEvent _, c => ∃ request, c = .request 0 request
  | startedLeading token, c => c = .startedLeading token
  | newLeader identity, c => c = .newLeader identity
  | stoppedLeading, c => c = .terminate
  | intoParts, _ => False

namespace InUse

variable {config : ElectionConfig (Spied ω)} {u : InUse (Spied ω)}

/-- What does not depend on the calls that a use may lead to is the same after the use. -/
theorem step_keeps (hspied : config.SpiedOn) (hholds : Holds config u) (use : ElectionUse)
    {read : List BuilderCall → β} (hread : ∀ c, use.MayCall c → ∀ calls, read (calls ++ [c]) = read calls) :
    read (u.step use).guarded.world.calls = read u.guarded.world.calls := by
  cases use with
  | lock call =>
      obtain ⟨clock, flags, client, hclient⟩ := hspied.client
      rw [← hholds.lock_eq] at hclient
      have hkeeps : Act.Keeps (fun s => read s.calls) (call.perform u.lock) := by
        apply LockCall.perform_keeps
        intro request
        rw [hclient]
        exact Transport.logged_keeps (Spied.call_keeps (hread _ ⟨request, rfl⟩) _)
      rw [step_lock]
      dsimp only
      exact hkeeps u.guarded.world
  | recordEvent message =>
      obtain ⟨events, hevents⟩ := hspied.events
      rw [← hholds.lock_eq] at hevents
      have hkeeps : Act.Keeps (fun s => read s.calls) (u.lock.recordEvent message) := by
        apply EventRecorder.record_keeps
        intro request
        rw [hevents]
        exact Spied.call_keeps (hread _ ⟨request, rfl⟩) _
      rw [step_recordEvent]
      dsimp only
      exact hkeeps u.guarded.world
  | startedLeading token =>
      change read (u.callbacks.startedLeading token u.guarded).world.world.calls = _
      rw [hholds.callbacks_eq, LeaderCallbacks.startedLeading]
      cases hstarted : config.callbacks.onStartedLeading with
      | none => rfl
      | some f =>
          obtain ⟨g, rfl⟩ := hspied.started f hstarted
          exact Spied.call_keeps (hread _ rfl) (g token) u.guarded.world
  | newLeader identity =>
      change read (u.callbacks.newLeader identity u.guarded).world.world.calls = _
      rw [hholds.callbacks_eq, LeaderCallbacks.newLeader]
      cases hnew : config.callbacks.onNewLeader with
      | none => rfl
      | some f =>
          obtain ⟨g, rfl⟩ := hspied.newLeader f hnew
          exact Spied.call_keeps (hread _ rfl) (g identity) u.guarded.world
  | stoppedLeading =>
      obtain ⟨terminate, hstopped⟩ := hspied.stopped
      change read (u.callbacks.onStoppedLeading u.guarded).world.world.calls = _
      rw [hholds.callbacks_eq, hstopped]
      obtain ⟨held, fired, s⟩ := u
      cases fired with
      | true => rfl
      | false => exact hread _ rfl s.calls
  | intoParts => rfl

theorem step_fired (hspied : config.SpiedOn) (hholds : Holds config u) {use : ElectionUse}
    (huse : use ≠ .stoppedLeading) : (u.step use).guarded.fired = u.guarded.fired := by
  cases use with
  | startedLeading token =>
      change (u.callbacks.startedLeading token u.guarded).world.fired = _
      rw [hholds.callbacks_eq, LeaderCallbacks.startedLeading]
      cases hstarted : config.callbacks.onStartedLeading with
      | none => rfl
      | some f =>
          obtain ⟨g, rfl⟩ := hspied.started f hstarted
          rfl
  | newLeader identity =>
      change (u.callbacks.newLeader identity u.guarded).world.fired = _
      rw [hholds.callbacks_eq, LeaderCallbacks.newLeader]
      cases hnew : config.callbacks.onNewLeader with
      | none => rfl
      | some f =>
          obtain ⟨g, rfl⟩ := hspied.newLeader f hnew
          rfl
  | stoppedLeading => exact absurd rfl huse
  | intoParts => rfl
  | lock call => rw [step_lock]
  | recordEvent message => rw [step_recordEvent]

end InUse

end LeaderLease
