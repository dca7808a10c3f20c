import Mathlib.Data.List.Forall2
import LeaderLease.Proofs.Lock.Outcome

/-!
# What is told of an election, and by whom

A contender announces what it has to say about the election through the lock that it contends for. An announcement is
one request on the first connection. Who speaks, and of which lock, is settled when the config is assembled.
-/

namespace LeaderLease

variable {ω : Type}

/-- Who speaks: one of the contenders for a lock, in a component. -/
structure Announcer where
  component : String
  lock : LeaseName
  identity : String

namespace Announcer

def path (a : Announcer) : String := "/namespaces/" ++ a.lock.namespaceName ++ "/events"

def signed (a : Announcer) (message : String) : String := a.identity ++ " " ++ message

def event (a : Announcer) (message : String) (time : Timestamp) : LeaderEvent where
  component := a.component
  namespaceName := a.lock.namespaceName
  involvedObject := a.lock.name
  type := .normal
  reason := "LeaderElection"
  message := a.signed message
  timestamp := time

def request (a : Announcer) (message : String) (time : Timestamp) : Request :=
  ⟨.post, ⟨a.path, none⟩, (a.event message time).encode⟩

/-- The request tells this message to whoever reads its body. -/
structure Tells (a : Announcer) (message : String) (request : Request) : Prop where
  method : request.method = .post
  target : request.target = ⟨a.path, none⟩
  body : ∃ time, LeaderEvent.decode request.body = .ok (a.event message time)

theorem tells_request (a : Announcer) (message : String) (time : Timestamp) :
    a.Tells message (a.request message time) where
  method := rfl
  target := rfl
  body := ⟨time.asWritten, LeaderEvent.decode_encode (a.event message time)⟩

theorem target_eq {a : Announcer} (hquery : '?' ∉ a.lock.namespaceName.toList)
    (hfragment : '#' ∉ a.lock.namespaceName.toList) {target : Target} (htarget : Target.parse a.path = .ok target) :
    target = ⟨a.path, none⟩ := by
  have hpath : a.path = .ofList ('/' :: ("namespaces/".toList ++ a.lock.namespaceName.toList ++ "/events".toList)) :=
    LeaseName.inNamespace_eq a.lock.namespaceName "/events"
  rw [hpath] at htarget ⊢
  exact Target.eq_of_parse_plain (Target.endsPath_inNamespace (Target.endsPath_of_notMem hquery hfragment) rfl) htarget

end Announcer

theorem EventRecorder.record_of_target {σ : Type} {r : EventRecorder σ} {target : Target}
    (htarget : Target.parse r.path = .ok target) (type : EventType) (reason message : String) (s : σ) :
    let outcome := r.transport ⟨.post, target, (r.event type reason message (r.now s)).encode⟩ s
    r.record type reason message s =
      ⟨(), outcome.world, .announced type reason message :: outcome.log ++ [verdict outcome.value]⟩ := by
  have haddress := Request.address_of_ok htarget .post (r.event type reason message (r.now s)).encode
  unfold record
  simp only [Act.bind_apply, Act.emit_apply, Act.look_apply, haddress]
  rfl

/-- A lock that announces for somebody, with a spy on the connection. -/
structure LeaseLock.AnnouncesFor (a : Announcer) (events : Transport ω) (now : ω → Timestamp)
    (l : LeaseLock (Spied ω)) : Prop where
  identity : l.identity = a.identity
  recorder : l.recorder =
    ⟨a.component, a.lock.namespaceName, a.lock.name, Spied.transport 0 events, fun s => now s.world⟩

section

variable {a : Announcer} {events : Transport ω} {now : ω → Timestamp} {l : LeaseLock (Spied ω)}

theorem LeaseLock.AnnouncesFor.recordEvent_apply (hl : l.AnnouncesFor a events now)
    (htarget : Target.parse a.path = .ok ⟨a.path, none⟩) (message : String) (before : Spied ω) :
    let request := a.request message (now before.world)
    let outcome := events request before.world
    l.recordEvent message before =
      ⟨(), ⟨outcome.world, before.calls ++ [.request 0 request]⟩,
        .announced .normal "LeaderElection" (a.signed message) :: outcome.log ++
          [EventRecorder.verdict outcome.value]⟩ := by
  intro request outcome
  have hpath : Target.parse l.recorder.path = .ok ⟨a.path, none⟩ := by
    rw [hl.recorder]
    exact htarget
  have hevent : l.recorder.event .normal LeaderEvent.electionReason (a.signed message) (l.recorder.now before) =
      a.event message (now before.world) := by
    rw [hl.recorder]
    rfl
  have htransport : l.recorder.transport = Spied.transport 0 events := by rw [hl.recorder]
  have hrecord := EventRecorder.record_of_target hpath .normal LeaderEvent.electionReason (a.signed message) before
  rw [hevent, htransport] at hrecord
  unfold recordEvent
  rw [hl.identity]
  exact hrecord

end

theorem ConfigBuilder.announcesFor_of_build {b : ConfigBuilder ω} {w : ω} {config : ElectionConfig (Spied ω)}
    (hbuild : (b.spied.build ⟨w, []⟩).value = .ok config) :
    ∃ events, (b.connect w).value = .ok events ∧
      config.lock.AnnouncesFor ⟨b.component, ⟨b.spec.namespaceName, b.spec.name⟩, config.lock.identity⟩ events
        b.clock.now := by
  obtain ⟨events, client, identity, hevents, -, rfl⟩ := spied_config hbuild
  exact ⟨events, hevents, rfl, rfl⟩

theorem ConfigBuilder.spied_identity {b : ConfigBuilder ω} {w : ω} {config : ElectionConfig (Spied ω)}
    (hbuild : (b.spied.build ⟨w, []⟩).value = .ok config) :
    config.lock.identity = (b.resolver.resolve b.identity (b.connect (b.connect w).world).world).value := by
  obtain ⟨events, client, -, -, -, rfl⟩ := eq_of_build_ok hbuild
  change ((Spied.resolver b.resolver).resolve b.identity _).value = _
  rw [Spied.resolve_apply, spied_connect, spied_connect]

def ElectionUse.message? : ElectionUse → Option String
  | recordEvent message => some message
  | _ => none

theorem ElectionUse.not_mayCall_events {use : ElectionUse} (huse : use.message? = none) (request : Request) :
    ¬ use.MayCall (.request 0 request) := by
  intro hmay
  cases use with
  | recordEvent message => cases huse
  | lock => exact nomatch hmay
  | startedLeading | newLeader | stoppedLeading | intoParts => cases hmay

namespace InUse

variable {a : Announcer} {events : Transport ω} {now : ω → Timestamp} {config : ElectionConfig (Spied ω)}
  {u : InUse (Spied ω)}

theorem step_tells (hspied : config.SpiedOn) (hlock : config.lock.AnnouncesFor a events now)
    (htarget : Target.parse a.path = .ok ⟨a.path, none⟩) (hholds : Holds config u) (use : ElectionUse) :
    ∃ told, traffic 0 (u.step use).guarded.world.calls = traffic 0 u.guarded.world.calls ++ told ∧
      List.Forall₂ a.Tells use.message?.toList told := by
  by_cases huse : ∃ message, use = .recordEvent message
  · obtain ⟨message, rfl⟩ := huse
    have hworld := congrArg Ended.world (hlock.recordEvent_apply htarget message u.guarded.world)
    refine ⟨[a.request message (now u.guarded.world.world)], ?_, .cons (a.tells_request message _) .nil⟩
    rw [step_recordEvent, hholds.lock_eq]
    dsimp only at hworld ⊢
    rw [hworld, traffic_append_request]
  · have hnone : use.message? = none := by
      cases use with
      | recordEvent message => exact absurd ⟨message, rfl⟩ huse
      | lock | startedLeading | newLeader | stoppedLeading | intoParts => rfl
    rw [hnone]
    refine ⟨[], ?_, .nil⟩
    rw [List.append_nil]
    exact step_keeps_traffic hspied hholds (ElectionUse.not_mayCall_events hnone)

theorem run_tells (hspied : config.SpiedOn) (hlock : config.lock.AnnouncesFor a events now)
    (htarget : Target.parse a.path = .ok ⟨a.path, none⟩) (hholds : Holds config u) (uses : List ElectionUse) :
    ∃ told, traffic 0 (u.run uses).guarded.world.calls = traffic 0 u.guarded.world.calls ++ told ∧
      List.Forall₂ a.Tells (uses.filterMap ElectionUse.message?) told := by
  induction uses generalizing u with
  | nil => exact ⟨[], (List.append_nil _).symm, .nil⟩
  | cons use uses ih =>
      obtain ⟨first, hstep, hfirst⟩ := step_tells hspied hlock htarget hholds use
      obtain ⟨rest, hrun, hrest⟩ := ih (hholds.step use)
      refine ⟨first ++ rest, ?_, ?_⟩
      · change traffic 0 ((u.step use).run uses).guarded.world.calls = _
        rw [hrun, hstep, List.append_assoc]
      · rw [List.filterMap_eq_flatMap_toList, List.flatMap_cons, ← List.filterMap_eq_flatMap_toList]
        exact List.rel_append hfirst hrest

end InUse

/-- **Who said what.** In whatever state a config is used, an announcement is one request on the first connection, and
it comes to its end whatever becomes of the request, which only the log tells of. Whoever reads the bodies that a run
has sent on this connection finds its announcements in their order, each signed with the identity of the lock, and
nothing else. On the connection of the lock nothing is sent for them. -/
theorem events_say_who_said_what {b : ConfigBuilder ω} {w : ω} {config : ElectionConfig (Spied ω)}
    (hbuild : (b.spied.build ⟨w, []⟩).value = .ok config) (hquery : '?' ∉ b.spec.namespaceName.toList)
    (hfragment : '#' ∉ b.spec.namespaceName.toList)
    (htarget : ∃ target, Target.parse ("/namespaces/" ++ b.spec.namespaceName ++ "/events") = .ok target)
    (uses : List ElectionUse) :
    let a : Announcer := ⟨b.component, ⟨b.spec.namespaceName, b.spec.name⟩, config.lock.identity⟩
    let used := (InUse.fresh config (b.spied.build ⟨w, []⟩).world).run uses
    config.lock.identity = (b.resolver.resolve b.identity (b.connect (b.connect w).world).world).value ∧
    used.lock.identity = config.lock.identity ∧
    (∃ events, (b.connect w).value = .ok events ∧ ∀ (message : String) (before : Spied ω),
      let request := a.request message (b.clock.now before.world)
      let outcome := events request before.world
      a.Tells message request ∧ used.lock.recordEvent message before =
        ⟨(), ⟨outcome.world, before.calls ++ [.request 0 request]⟩,
          .announced .normal "LeaderElection" (a.signed message) :: outcome.log ++
            [EventRecorder.verdict outcome.value]⟩) ∧
    List.Forall₂ a.Tells (uses.filterMap ElectionUse.message?) (traffic 0 used.guarded.world.calls) ∧
    ((∀ use ∈ uses, use.lockCall? = none) → traffic 1 used.guarded.world.calls = []) := by
  intro a used
  have hspied := ConfigBuilder.spiedOn_of_build hbuild
  have hstart : InUse.Holds config (InUse.fresh config (b.spied.build ⟨w, []⟩).world) := .inl rfl
  have hlock : used.lock = config.lock := (hstart.run uses).lock_eq
  have hnone : ∀ connection, traffic connection (b.spied.build ⟨w, []⟩).world.calls = [] := by
    intro connection
    rw [(ConfigBuilder.spied_build b w).1]
    exact traffic_callsOf connection b w
  obtain ⟨target, htarget⟩ := htarget
  obtain rfl : target = ⟨a.path, none⟩ := Announcer.target_eq (a := a) hquery hfragment htarget
  obtain ⟨events, hevents, hannounces⟩ := ConfigBuilder.announcesFor_of_build hbuild
  refine ⟨ConfigBuilder.spied_identity hbuild, congrArg LeaseLock.identity hlock, ⟨events, hevents, ?_⟩, ?_, ?_⟩
  · intro message before request outcome
    rw [hlock]
    exact ⟨a.tells_request message _, hannounces.recordEvent_apply htarget message before⟩
  · obtain ⟨told, hrun, htold⟩ := InUse.run_tells hspied hannounces htarget hstart uses
    have hcalls : traffic 0 used.guarded.world.calls = told :=
      hrun.trans ((congrArg (· ++ told) (hnone 0)).trans (List.nil_append told))
    rw [hcalls]
    exact htold
  · intro huses
    have hsilent : ∀ use ∈ uses, ∀ request, ¬ use.MayCall (.request 1 request) :=
      fun use huse => ElectionUse.not_mayCall_lock (huses use huse)
    exact (InUse.run_keeps_traffic hspied hstart hsilent).trans (hnone 1)

def refuseAll : Transport Program :=
  fun request => (return .error (.ofRequest request ⟨"refused", []⟩) : Act Program (Except TransportError Response))

/-- A contender without a name of its own, whose announcements are all lost. -/
def unheardBuilder : ConfigBuilder Program :=
  { Program.builder with identity := "", component := "worker", connect := return .ok refuseAll }

theorem events_say_who_said_what_unheard :
    '?' ∉ "team-a".toList ∧ '#' ∉ "team-a".toList ∧
    (∃ target, Target.parse ("/namespaces/" ++ "team-a" ++ "/events") = .ok target) ∧
    ∃ config, (unheardBuilder.spied.build ⟨.fresh, []⟩).value = .ok config ∧
      let a : Announcer := ⟨"worker", ⟨"team-a", "controller-lock"⟩, "00000000-0000-7000-8000-000000000000"⟩
      let used := (InUse.fresh config (unheardBuilder.spied.build ⟨.fresh, []⟩).world).run
        [.recordEvent "said \"yes\"\n\x01", .intoParts, .recordEvent "\x7f", .recordEvent "🗳"]
      used.lock.identity = a.identity ∧
      List.Forall₂ a.Tells ["said \"yes\"\n\x01", "\x7f", "🗳"] (traffic 0 used.guarded.world.calls) ∧
      traffic 1 used.guarded.world.calls = [] := by
  have htarget : ∃ target, Target.parse ("/namespaces/" ++ "team-a" ++ "/events") = .ok target := ⟨_, rfl⟩
  have hbuild : ∃ config, (unheardBuilder.spied.build ⟨.fresh, []⟩).value = .ok config :=
    ConfigBuilder.spied_build_ok (by decide) (by decide) rfl rfl
  obtain ⟨config, hbuild⟩ := hbuild
  refine ⟨by decide, by decide, htarget, config, hbuild, ?_⟩
  obtain ⟨hresolved, hidentity, -, htold, hlock⟩ := events_say_who_said_what hbuild (by decide) (by decide) htarget
    [.recordEvent "said \"yes\"\n\x01", .intoParts, .recordEvent "\x7f", .recordEvent "🗳"]
  have hgenerated : config.lock.identity = "00000000-0000-7000-8000-000000000000" := hresolved.trans rfl
  rw [hgenerated] at hidentity htold
  exact ⟨hidentity, htold, hlock (by decide)⟩

end LeaderLease
