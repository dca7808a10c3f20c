import LeaderLease.Proofs.Election.Flags
import LeaderLease.Proofs.Session.Config

/-!
# Flags in a session

Two runs of a session that differ in their flags are compared step by step. The locks in them are alike, and every
step keeps the two runs alike, so they differ in nothing but their logs.
-/

namespace LeaderLease

variable {α : Type} {L : LogRelation} {flags : DebugFlags}

/-- The answer, but for the way to the backend in it. -/
def SessionReply.withoutClient : SessionReply → SessionReply
  | .parts p => .parts { p with lock := { p.lock with client := p.lock.recorder.transport } }
  | reply => reply

theorem ElectionParts.Alike.withoutClient {p q : ElectionParts Rehearsal} (h : p.Alike L q) :
    (SessionReply.parts p).withoutClient = (SessionReply.parts q).withoutClient := by
  obtain ⟨⟨_, _, _, _, _, _⟩, _, _, _⟩ := p
  obtain ⟨⟨_, _, _, _, _, _⟩, _, _, _⟩ := q
  obtain ⟨⟨rfl, rfl, rfl, rfl, rfl, -, -⟩, rfl, rfl, rfl, -⟩ := h
  rfl

inductive ConfigHandle.Alike (L : LogRelation) : ConfigHandle → ConfigHandle → Prop
  | whole {c d : ElectionConfig Rehearsal} (h : c.intoParts.Alike L d.intoParts) : Alike L (.whole c) (.whole d)
  | split {p q : ElectionParts Rehearsal} (h : p.Alike L q) : Alike L (.split p) (.split q)

namespace ConfigHandle.Alike

variable {h k : ConfigHandle}

theorem parts (halike : Alike L h k) : h.parts.Alike L k.parts := by
  cases halike with
  | whole h => exact h
  | split h => exact h

theorem lock (halike : Alike L h k) : h.lock.Alike L k.lock := by
  cases halike with
  | whole h => exact h.lock
  | split h => exact h.lock

theorem callbacks (halike : Alike L h k) : h.callbacks = k.callbacks ∧ k.callbacks.Steady L := by
  cases halike with
  | whole h => exact ⟨h.callbacks, h.steady⟩
  | split h => exact ⟨h.callbacks, h.steady⟩

end ConfigHandle.Alike

namespace Session

variable {first : Nat}

structure Alike (first : Nat) (L : LogRelation) (s t : Session first) : Prop where
  handle : s.handle.Alike L t.handle
  guarded : s.guarded = t.guarded
  lastRead : s.lastRead = t.lastRead

theorem guardedPart_common : guardedPart.Common (Alike first L) where
  get _ _ hst := hst.guarded
  set _ _ _ hst := ⟨hst.handle, rfl, hst.lastRead⟩

theorem world_common : world.Common (Alike first L) := guardedPart_common.trans Guarded.inner

def SameReply (x y : SessionReply) : Prop := x.withoutClient = y.withoutClient

theorem lock_matches : Act.Matches L (LeaseLock.Alike L) (Alike first L) lock lock :=
  Act.matches_look fun _ _ hst => hst.handle.lock

theorem get_matches (hL : L.Respects flags) : Act.Matches L SameReply (Alike first L) get get := by
  unfold get
  apply lock_matches.bind
  intro l m hlock
  apply ((hlock.get hL).on world_common).bind_same
  intro result
  cases result with
  | error e => exact Act.matches_pure rfl
  | ok record =>
      apply Act.Matches.bind_same (Act.matches_change fun s t hst => ⟨hst.handle, hst.guarded, rfl⟩)
      intro _
      exact Act.matches_pure rfl

theorem write_matches {f : LeaseLock Rehearsal → Act Rehearsal (Except LockError Unit)}
    (hf : ∀ l m, LeaseLock.Alike L l m → Act.Matches L Eq Eq (f l) (f m)) :
    Act.Matches L SameReply (Alike first L) (do return replyTo (← (f (← lock)).on world))
      (do return replyTo (← (f (← lock)).on world)) := by
  apply lock_matches.bind
  intro l m hlock
  apply ((hf l m hlock).on world_common).bind_same
  intro result
  exact Act.matches_pure rfl

theorem report_matches {callbacks : LeaderCallbacks (Guarded Rehearsal)} (hsteady : callbacks.Steady L)
    (change : LeadershipChange) :
    Act.Matches L Eq Eq (change.report audience callbacks) (change.report audience callbacks) := by
  have haudience : ∀ {α : Type} {a : Act Audience α}, (∀ s, (a s).log = []) →
      Act.Matches L Eq Eq (a.on audience) (a.on audience) := by
    intro α a hsilent
    apply Act.Steady.matches
    apply Act.steady_of_log
    intro g
    rw [Act.on_apply, hsilent]
  cases change with
  | stoppedLeading => exact hsteady.stoppedLeading
  | newLeader identity => exact hsteady.newLeader identity
  | startedLeading =>
      apply (haudience fun _ => rfl).bind_same
      intro token
      exact hsteady.startedLeading token
  | cancel token => exact haudience fun _ => rfl

/-- Every step keeps two sessions alike. -/
theorem perform_matches (hL : L.Respects flags) (step : SessionStep) :
    Act.Matches L SameReply (Alike first L) (perform step) (perform step) := by
  cases step with
  | script channel outcomes =>
      have hcommon : (connection channel).Common (Alike first L) := world_common.trans _
      have hqueue : Act.Matches L Eq Eq (.change (Recording.queue outcomes))
          (.change (Recording.queue outcomes)) := Act.matches_change fun _ _ hst => congrArg _ hst
      apply (hqueue.on hcommon).bind_same
      intro _
      exact Act.matches_pure rfl
  | get => exact get_matches hL
  | create record => exact write_matches fun _ _ hlock => hlock.create hL record
  | update record => exact write_matches fun _ _ hlock => hlock.update hL record
  | updateLast =>
      have hlook : Act.Matches L Eq (Alike first L) (.look (·.lastRead)) (.look (·.lastRead)) :=
        Act.matches_look fun _ _ hst => hst.lastRead
      apply hlook.bind_same
      intro last
      cases last with
      | none => exact Act.matches_pure rfl
      | some record => exact write_matches fun _ _ hlock => hlock.update hL record
  | recordEvent message =>
      apply lock_matches.bind
      intro l m hlock
      apply ((hlock.recordEvent hL message).on world_common).bind_same
      intro _
      exact Act.matches_pure rfl
  | intoParts =>
      have hlook : Act.Matches L (ElectionParts.Alike L) (Alike first L) (.look (·.handle.parts))
          (.look (·.handle.parts)) := Act.matches_look fun _ _ hst => hst.handle.parts
      apply hlook.bind
      intro p q hparts
      apply Act.Matches.bind_same (Act.matches_change fun s t hst => ⟨.split hparts, hst.guarded, hst.lastRead⟩)
      intro _
      exact Act.matches_pure hparts.withoutClient
  | change change =>
      have hlook : Act.Matches L (fun c d => c = d ∧ d.Steady L) (Alike first L)
          (.look (·.handle.callbacks)) (.look (·.handle.callbacks)) :=
        Act.matches_look fun _ _ hst => hst.handle.callbacks
      apply hlook.bind
      rintro callbacks _ ⟨rfl, hsteady⟩
      apply ((report_matches hsteady change).on guardedPart_common).bind_same
      intro _
      have hheard : Act.Matches L Eq (Alike first L) (.look (·.guarded.world.audience.heard))
          (.look (·.guarded.world.audience.heard)) :=
        Act.matches_look fun _ _ hst => congrArg (·.world.audience.heard) hst.guarded
      apply hheard.bind_same
      intro heard
      exact Act.matches_pure rfl

def run : List SessionStep → Act (Session first) (List SessionReply)
  | [] => return []
  | step :: steps => do
    let reply ← perform step
    return reply :: (← run steps)

def SameReplies (xs ys : List SessionReply) : Prop :=
  xs.map SessionReply.withoutClient = ys.map SessionReply.withoutClient

theorem run_matches (hL : L.Respects flags) (steps : List SessionStep) :
    Act.Matches L SameReplies (Alike first L) (run steps) (run steps) := by
  induction steps with
  | nil => exact Act.matches_pure rfl
  | cons step steps ih =>
      apply (perform_matches hL step).bind
      intro x y hreply
      apply ih.bind
      intro xs ys hreplies
      apply Act.matches_pure
      unfold SameReplies
      rw [List.map_cons, List.map_cons, hreply, hreplies]

/-- What is done in a session with a config, as it is seen from outside. -/
def during (config : ElectionConfig Rehearsal) (a : Act (Session first) α) : Act Rehearsal α := fun w =>
  let ended := a (.fresh config w)
  ⟨ended.value, ended.world.guarded.world, ended.log⟩

theorem during_matches {V : α → α → Prop} {a : Act (Session first) α} {c d : ElectionConfig Rehearsal}
    (hconfig : c.intoParts.Alike L d.intoParts) (ha : Act.Matches L V (Alike first L) a a) :
    Act.Matches L V Eq (during c a) (during d a) := by
  have hfresh : ∀ w, Alike first L (.fresh c w) (.fresh d w) := fun w => ⟨.whole hconfig, rfl, rfl⟩
  exact {
    value := fun w _ hw => hw ▸ ha.value _ _ (hfresh w)
    world := fun w _ hw => hw ▸ congrArg Guarded.world (ha.world _ _ (hfresh w)).guarded
    log := fun w _ hw => hw ▸ ha.log _ _ (hfresh w) }

end Session

def ConfigBuilder.play (b : ConfigBuilder Rehearsal) (steps : List SessionStep) :
    Act Rehearsal (Except AssemblyError (List SessionReply)) := do
  let first ← .look (·.backend.made)
  match ← b.build with
  | .error e => return .error e
  | .ok config => return .ok (← Session.during config (Session.run steps : Act (Session first) _))

theorem ConfigBuilder.Steady.play (hL : L.Respects flags) {b : ConfigBuilder Rehearsal} (h : b.Steady L)
    (steps : List SessionStep) :
    Act.Matches L (Act.SameEnd Session.SameReplies) Eq ((b.withFlags flags).play steps)
      ((b.withFlags .all).play steps) := by
  have hlook : Act.Matches L Eq Eq (.look (·.backend.made)) (.look fun w : Rehearsal => w.backend.made) :=
    Act.matches_look fun _ _ hw => congrArg (·.backend.made) hw
  apply hlook.bind_same
  intro first
  apply (ConfigBuilder.Steady.build hL h).bind
  rintro _ _ (⟨c, d, hconfig⟩ | e)
  · apply (Session.during_matches hconfig (Session.run_matches hL steps)).bind
    intro xs ys hreplies
    exact Act.matches_pure (.ok xs ys hreplies)
  · exact Act.matches_pure (.error e)

theorem Session.sameReplies_of_sameEnd {x y : Except AssemblyError (List SessionReply)}
    (h : Act.SameEnd Session.SameReplies x y) :
    x.map (List.map SessionReply.withoutClient) = y.map (List.map SessionReply.withoutClient) := by
  cases h with
  | ok xs ys hreplies => exact congrArg Except.ok hreplies
  | error e => rfl

theorem Backend.connect_log (b : Backend) : (connect b).log = [] := by
  have haccept : ∀ b : Backend, b.accept.log = [] := by
    intro b
    unfold accept
    dsimp only
    split <;> rfl
  unfold connect
  dsimp only
  split
  · split
    · rfl
    · exact haccept _
  · exact haccept _

theorem Rehearsal.connect_log (w : Rehearsal) : (connect w).log = [] := by
  unfold connect
  rw [Act.bind_apply, Act.on_apply, Backend.connect_log]
  cases (Backend.connect (backendPart.get w)).value <;> rfl

theorem Rehearsal.builder_steady (spec : TimingSpec) (hostname : Option String) :
    (builder spec hostname).Steady L where
  connect := Act.steady_of_log connect_log
  connections w t ht request := by
    rw [(connect_ok ht).1]
    exact Act.steady_of_log fun _ => rfl
  hostname := Act.steady_of_log fun _ => rfl
  draw := Act.steady_of_log fun _ => rfl
  terminate := Act.steady_of_log fun _ => rfl
  onStartedLeading := nofun
  onNewLeader := nofun

theorem ConfigBuilder.Steady.withAudience {b : ConfigBuilder Rehearsal} (h : b.Steady L) :
    (Rehearsal.withAudience b).Steady L where
  connect := h.connect
  connections := h.connections
  hostname := h.hostname
  draw := h.draw
  terminate := h.terminate
  onStartedLeading := by
    rintro f ⟨⟩ token
    exact Act.steady_of_log fun _ => rfl
  onNewLeader := by
    rintro f ⟨⟩ identity
    exact Act.steady_of_log fun _ => rfl

/-- **Flags only thin the log.** A logged transport answers as the one inside it and leaves it as it would be left
without a log. In a session nothing depends on the flags but the log, and of that only which events are in it, as long
as nothing else logs traffic. -/
theorem flags_only_thin_the_log :
    (∀ {ω : Type} (clock : Clock ω) (inner : Transport ω) (flags : DebugFlags) (requests : List Request) (w : ω),
      let sent := (Transport.logged clock flags inner).sendAll requests w
      sent.value = (inner.sendAll requests w).value ∧ sent.world = (inner.sendAll requests w).world ∧
        ((∀ request, Act.Steady .quiet (inner request)) →
          sent.log = ((Transport.logged clock .all inner).sendAll requests w).log.filter flags.keeps)) ∧
    ∀ (b : ConfigBuilder Rehearsal) (flags other : DebugFlags) (steps : List SessionStep) (w : Rehearsal),
      let played := (b.withFlags flags).play steps w
      let replayed := (b.withFlags other).play steps w
      played.value.map (List.map SessionReply.withoutClient) =
          replayed.value.map (List.map SessionReply.withoutClient) ∧
        played.world = replayed.world ∧
        (b.Steady .quiet → played.log = ((b.withFlags .all).play steps w).log.filter flags.keeps) := by
  refine ⟨?_, ?_⟩
  · intro ω clock inner flags requests w
    obtain ⟨hvalue, hworld⟩ := Transport.sendAll_logged clock flags inner requests w
    refine ⟨hvalue, hworld, ?_⟩
    intro hquiet
    have hmatches := Transport.sendAll_matches (LogRelation.filtered_respects flags) clock
      (fun request => (hquiet request).of_quiet) requests
    exact hmatches.log w w rfl
  · intro b flags other steps w
    have hflags := ConfigBuilder.Steady.play (LogRelation.any_respects flags) b.steady_any steps
    have hother := ConfigBuilder.Steady.play (LogRelation.any_respects other) b.steady_any steps
    refine ⟨?_, ?_, ?_⟩
    · have hone := Session.sameReplies_of_sameEnd (hflags.value w w rfl)
      have htwo := Session.sameReplies_of_sameEnd (hother.value w w rfl)
      exact hone.trans htwo.symm
    · exact (hflags.world w w rfl).trans (hother.world w w rfl).symm
    · intro hquiet
      have hmatches := ConfigBuilder.Steady.play (LogRelation.filtered_respects flags) hquiet.of_quiet steps
      exact hmatches.log w w rfl

theorem flags_only_thin_the_log_withAudience :
    let b := Rehearsal.withAudience (Rehearsal.builder (.forLock "team-a" "controller-lock") (some "host-a"))
    let steps : List SessionStep := [.get, .recordEvent "became leader", .intoParts, .change .stoppedLeading]
    b.Steady .quiet ∧ ((b.withFlags .none).play steps (.fresh (.fresh none none))).log =
      ((b.withFlags .all).play steps (.fresh (.fresh none none))).log.filter DebugFlags.none.keeps := by
  intro b steps
  have hquiet : b.Steady .quiet := (Rehearsal.builder_steady _ _).withAudience
  exact ⟨hquiet, (flags_only_thin_the_log.2 b .none .all steps _).2.2 hquiet⟩

end LeaderLease
