import LeaderLease.Proofs.Election.Assembly
import LeaderLease.Proofs.Lock.Within
import LeaderLease.StandIn.Session

namespace LeaderLease

theorem Backend.accept_ok {b : Backend} {client : Transport Backend} (haccept : (accept b).value = .ok client) :
    client = Recording.transport.on (connection b.made) ∧ (accept b).world.made = b.made + 1 := by
  unfold accept at haccept ⊢
  cases hunavailable : b.unavailable with
  | none =>
      simp only [hunavailable, Except.ok.injEq] at haccept ⊢
      exact ⟨haccept.symm, trivial⟩
  | some reason =>
      simp only [hunavailable] at haccept
      cases haccept

theorem Backend.connect_cases (b : Backend) :
    (∃ fault, (connect b).value = .error fault) ∨ connect b = accept { b with attempts := b.attempts + 1 } := by
  unfold connect
  dsimp only
  split
  next attempt fault hfailing =>
    by_cases hattempt : b.attempts + 1 = attempt
    · left
      rw [if_pos hattempt]
      exact ⟨fault, rfl⟩
    · right
      rw [if_neg hattempt]
  next => exact .inr rfl

theorem Backend.connect_ok {b : Backend} {client : Transport Backend} (hconnect : (connect b).value = .ok client) :
    client = Recording.transport.on (connection b.made) ∧ (connect b).world.made = b.made + 1 := by
  obtain ⟨fault, hfault⟩ | haccept := connect_cases b
  · rw [hfault] at hconnect
    cases hconnect
  · rw [haccept] at hconnect ⊢
    exact accept_ok hconnect

/-- Connections are handed out in the order of their numbers. -/
theorem Rehearsal.connect_ok {w : Rehearsal} {client : Transport Rehearsal}
    (hconnect : (connect w).value = .ok client) :
    client = Recording.transport.on (connection w.backend.made) ∧
      (connect w).world.backend.made = w.backend.made + 1 := by
  unfold connect at hconnect ⊢
  rw [Act.bind_apply, Act.on_apply] at hconnect ⊢
  cases hbackend : (Backend.connect (backendPart.get w)).value with
  | error fault =>
      rw [hbackend] at hconnect
      cases hconnect
  | ok inner =>
      rw [hbackend] at hconnect
      obtain ⟨hinner, hmade⟩ := Backend.connect_ok hbackend
      obtain rfl := Except.ok.inj hconnect
      subst hinner
      exact ⟨rfl, hmade⟩

structure LeaderCallbacks.Within {σ ω : Type} (part : Part σ ω) (c : LeaderCallbacks σ) : Prop where
  startedLeading : ∀ token, Act.Within part (c.startedLeading token)
  stoppedLeading : Act.Within part c.stoppedLeading
  newLeader : ∀ identity, Act.Within part (c.newLeader identity)

/-- The builder has its connections from the backend, and what it calls back stays with the audience. -/
structure ConfigBuilder.AmongStandIns (b : ConfigBuilder Rehearsal) : Prop where
  connect : b.connect = Rehearsal.connect
  terminate : Act.Within Rehearsal.audiencePart b.terminate
  onStartedLeading : ∀ f ∈ b.onStartedLeading, ∀ token, Act.Within Rehearsal.audiencePart (f token)
  onNewLeader : ∀ f ∈ b.onNewLeader, ∀ identity, Act.Within Rehearsal.audiencePart (f identity)

theorem Rehearsal.builder_amongStandIns (spec : TimingSpec) (hostname : Option String) :
    (builder spec hostname).AmongStandIns where
  connect := rfl
  terminate := Act.within_on _
  onStartedLeading := nofun
  onNewLeader := nofun

theorem ConfigBuilder.AmongStandIns.withAudience {b : ConfigBuilder Rehearsal} (h : b.AmongStandIns) :
    (Rehearsal.withAudience b).AmongStandIns where
  connect := h.connect
  terminate := h.terminate
  onStartedLeading := by
    rintro f ⟨⟩ token
    exact Act.within_on _
  onNewLeader := by
    rintro f ⟨⟩ identity
    exact Act.within_on _

/-- Where the callbacks of a config among stand-ins act: on the guard and the audience. -/
def Guarded.listeners : Part (Guarded Rehearsal) (Bool × Audience) where
  get g := (g.fired, g.world.audience)
  set v g := ⟨v.1, { g.world with audience := v.2 }⟩
  get_set _ _ := rfl
  set_get _ := rfl
  set_set _ _ _ := rfl

theorem Guarded.within_listeners {α : Type} {a : Act Rehearsal α} (ha : Act.Within Rehearsal.audiencePart a) :
    Act.Within listeners (a.on inner) := by
  have hsame : inner.trans Rehearsal.audiencePart = listeners.trans .snd := rfl
  have hon : Act.Within (inner.trans Rehearsal.audiencePart) (a.on inner) := ha.on
  rw [hsame] at hon
  exact hon.of_trans

theorem Guarded.onStoppedLeading_within {terminate : Act Rehearsal Unit}
    (hterminate : Act.Within Rehearsal.audiencePart terminate) :
    Act.Within listeners (onStoppedLeading terminate) := by
  have hswap : Act.Within listeners swap := Act.within_on fun v => ⟨v.1, (true, v.2), []⟩
  apply hswap.bind
  intro fired
  cases fired with
  | true => exact Act.within_pure ()
  | false =>
      apply (Act.within_emit _).bind
      intro _
      exact within_listeners hterminate

theorem ConfigBuilder.AmongStandIns.callbacks_within {b : ConfigBuilder Rehearsal} (h : b.AmongStandIns) :
    b.callbacks.Within Guarded.listeners where
  startedLeading token := by
    unfold LeaderCallbacks.startedLeading callbacks
    cases hstarted : b.onStartedLeading with
    | none => exact Act.within_pure ()
    | some f => exact Guarded.within_listeners (h.onStartedLeading f hstarted token)
  stoppedLeading := Guarded.onStoppedLeading_within h.terminate
  newLeader identity := by
    unfold LeaderCallbacks.newLeader callbacks
    cases hnew : b.onNewLeader with
    | none => exact Act.within_pure ()
    | some f => exact Guarded.within_listeners (h.onNewLeader f hnew identity)

/-- A config whose traffic and callbacks keep to their own parts of the stand-ins. -/
structure ElectionConfig.KeepsApart (first : Nat) (config : ElectionConfig Rehearsal) : Prop where
  client : ∀ request,
    Act.Within (Rehearsal.connection (Channel.lock.connection first)) (config.lock.client request)
  events : config.lock.recorder.transport =
    Recording.transport.on (Rehearsal.connection (Channel.event.connection first))
  callbacks : config.callbacks.Within Guarded.listeners

theorem ConfigBuilder.AmongStandIns.config_eq {b : ConfigBuilder Rehearsal} (h : b.AmongStandIns) {w : Rehearsal}
    {config : ElectionConfig Rehearsal} (hbuild : (b.build w).value = .ok config) :
    ∃ identity, config = .ofLock
      (b.lock (Recording.transport.on (Rehearsal.connection (Channel.event.connection w.backend.made)))
        (Recording.transport.on (Rehearsal.connection (Channel.lock.connection w.backend.made))) identity)
      b.timing b.callbacks := by
  obtain ⟨events, client, -, hfirst, hsecond, rfl⟩ := eq_of_build_ok hbuild
  rw [h.connect] at hfirst hsecond
  obtain ⟨hevents, hmadeOne⟩ := Rehearsal.connect_ok hfirst
  obtain ⟨hclient, -⟩ := Rehearsal.connect_ok hsecond
  rw [hmadeOne] at hclient
  subst hevents hclient
  exact ⟨_, rfl⟩

theorem ConfigBuilder.AmongStandIns.keepsApart {b : ConfigBuilder Rehearsal} (h : b.AmongStandIns) {w : Rehearsal}
    {config : ElectionConfig Rehearsal} (hbuild : (b.build w).value = .ok config) :
    config.KeepsApart w.backend.made := by
  obtain ⟨identity, rfl⟩ := h.config_eq hbuild
  exact {
    client := fun request => Transport.logged_within (Transport.on_within _ request)
    events := rfl
    callbacks := h.callbacks_within }

end LeaderLease
