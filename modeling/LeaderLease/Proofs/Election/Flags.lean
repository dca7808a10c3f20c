import LeaderLease.Election.Builder
import LeaderLease.Proofs.Lock.Alike

namespace LeaderLease

variable {ω α : Type} {L : LogRelation} {flags : DebugFlags}

structure ConfigBuilder.Steady (L : LogRelation) (b : ConfigBuilder ω) : Prop where
  connect : Act.Steady L b.connect
  connections : ∀ w t, (b.connect w).value = .ok t → ∀ request, Act.Steady L (t request)
  hostname : Act.Steady L b.resolver.hostname
  draw : Act.Steady L b.resolver.draw
  terminate : Act.Steady L b.terminate
  onStartedLeading : ∀ f ∈ b.onStartedLeading, ∀ token, Act.Steady L (f token)
  onNewLeader : ∀ f ∈ b.onNewLeader, ∀ identity, Act.Steady L (f identity)

structure LeaderCallbacks.Steady (L : LogRelation) (c : LeaderCallbacks ω) : Prop where
  startedLeading : ∀ token, Act.Matches L Eq Eq (c.startedLeading token) (c.startedLeading token)
  stoppedLeading : Act.Matches L Eq Eq c.stoppedLeading c.stoppedLeading
  newLeader : ∀ identity, Act.Matches L Eq Eq (c.newLeader identity) (c.newLeader identity)

/-- The same parts, but for the log of the lock's traffic. -/
structure ElectionParts.Alike (L : LogRelation) (p q : ElectionParts ω) : Prop where
  lock : p.lock.Alike L q.lock
  timing : p.timing = q.timing
  releaseOnCancel : p.releaseOnCancel = q.releaseOnCancel
  callbacks : p.callbacks = q.callbacks
  steady : q.callbacks.Steady L

theorem IdentityResolver.resolve_matches (hL : L.Respects flags) {r : IdentityResolver ω}
    (hhostname : Act.Steady L r.hostname) (hdraw : Act.Steady L r.draw) (explicit : String) :
    Act.Matches L Eq Eq (r.resolve explicit) (r.resolve explicit) := by
  unfold resolve
  by_cases hexplicit : explicit = ""
  · rw [if_neg (not_not_intro hexplicit)]
    apply hdraw.matches.bind_same
    intro unique
    apply hhostname.matches.bind_same
    intro result
    cases result with
    | error reason =>
        apply Act.Matches.bind_same (Act.matches_emit (hL.kept rfl))
        intro _
        exact Act.matches_pure rfl
    | ok hostname =>
        by_cases hhost : hostname = ""
        · simp only [hhost, ne_eq, not_true_eq_false, if_false]
          apply Act.Matches.bind_same (Act.matches_emit (hL.kept rfl))
          intro _
          exact Act.matches_pure rfl
        · simp only [hhost, ne_eq, not_false_eq_true, if_true]
          exact Act.matches_pure rfl
  · rw [if_pos hexplicit]
    exact Act.matches_pure rfl

theorem Guarded.on_inner_matches {a : Act ω α} (ha : Act.Steady L a) :
    Act.Matches L Eq Eq (a.on inner) (a.on inner) := by
  have hcommon : (inner (ω := ω)).Common Eq := ⟨fun _ _ hst => congrArg _ hst, fun _ _ _ hst => congrArg _ hst⟩
  exact ha.matches.on hcommon

theorem ConfigBuilder.Steady.callbacks (hL : L.Respects flags) {b : ConfigBuilder ω} (h : b.Steady L) :
    b.callbacks.Steady L where
  startedLeading token := by
    unfold LeaderCallbacks.startedLeading ConfigBuilder.callbacks
    cases hstarted : b.onStartedLeading with
    | none => exact Act.matches_pure rfl
    | some f => exact Guarded.on_inner_matches (h.onStartedLeading f hstarted token)
  stoppedLeading := by
    change Act.Matches _ _ _ (Guarded.onStoppedLeading b.terminate) (Guarded.onStoppedLeading b.terminate)
    unfold Guarded.onStoppedLeading
    have hswap : Act.Steady L (Guarded.swap (ω := ω)) := Act.steady_of_log fun _ => rfl
    apply hswap.matches.bind_same
    intro fired
    cases fired with
    | true => exact Act.matches_pure rfl
    | false =>
        apply Act.Matches.bind_same (Act.matches_emit (hL.kept rfl))
        intro _
        exact Guarded.on_inner_matches h.terminate
  newLeader identity := by
    unfold LeaderCallbacks.newLeader ConfigBuilder.callbacks
    cases hnew : b.onNewLeader with
    | none => exact Act.matches_pure rfl
    | some f => exact Guarded.on_inner_matches (h.onNewLeader f hnew identity)

def ConfigBuilder.withFlags (b : ConfigBuilder ω) (flags : DebugFlags) : ConfigBuilder ω :=
  { b with debugFlags := flags }

theorem ConfigBuilder.lock_alike (hL : L.Respects flags) {b : ConfigBuilder ω} {events client : Transport ω}
    (hevents : ∀ request, Act.Steady L (events request))
    (hclient : ∀ request, Act.Steady L (client request)) (identity : String) :
    ((b.withFlags flags).lock events client identity).Alike L
      ((b.withFlags .all).lock events client identity) where
  namespaceName := rfl
  name := rfl
  identity := rfl
  locate := rfl
  recorder := rfl
  client request := Transport.logged_matches hL (hclient request)
  events := hevents

theorem ConfigBuilder.Steady.connect_matches {b : ConfigBuilder ω} (h : b.Steady L) :
    Act.Matches L (Act.SameEnd fun t u => t = u ∧ ∀ request, Act.Steady L (u request)) Eq
      b.connect b.connect where
  value s t hst := by
    subst hst
    cases hvalue : (b.connect s).value with
    | ok t => exact .ok t t ⟨rfl, h.connections s t hvalue⟩
    | error fault => exact .error fault
  world := h.connect.matches.world
  log := h.connect.matches.log

theorem ConfigBuilder.Steady.connectBoth {b : ConfigBuilder ω} (h : b.Steady L) :
    Act.Matches L
      (Act.SameEnd fun p q => p = q ∧ (∀ request, Act.Steady L (q.1 request)) ∧
        ∀ request, Act.Steady L (q.2 request)) Eq
      b.connectBoth b.connectBoth := by
  unfold ConfigBuilder.connectBoth
  apply h.connect_matches.bind
  rintro _ _ (⟨events, _, rfl, hevents⟩ | fault)
  · apply h.connect_matches.bind
    rintro _ _ (⟨client, _, rfl, hclient⟩ | fault)
    · exact Act.matches_pure (.ok _ _ ⟨rfl, hevents, hclient⟩)
    · exact Act.matches_pure (.error _)
  · exact Act.matches_pure (.error _)

theorem ConfigBuilder.Steady.assemble (hL : L.Respects flags) {b : ConfigBuilder ω} (h : b.Steady L)
    {events client : Transport ω}
    (hevents : ∀ request, Act.Steady L (events request))
    (hclient : ∀ request, Act.Steady L (client request)) :
    Act.Matches L (fun c d => c.intoParts.Alike L d.intoParts) Eq
      ((b.withFlags flags).assemble events client) ((b.withFlags .all).assemble events client) := by
  unfold ConfigBuilder.assemble
  apply (IdentityResolver.resolve_matches hL h.hostname h.draw b.identity).bind_same
  intro identity
  apply Act.Matches.bind_same (Act.matches_emit (hL.kept rfl))
  intro _
  apply Act.matches_pure
  have hcallbacks : b.callbacks.Steady L := callbacks hL h
  exact ⟨ConfigBuilder.lock_alike hL hevents hclient identity, rfl, rfl, rfl, hcallbacks⟩

/-- Configs that are assembled with different flags are the same but for the log of the lock's traffic. -/
theorem ConfigBuilder.Steady.build (hL : L.Respects flags) {b : ConfigBuilder ω} (h : b.Steady L) :
    Act.Matches L (Act.SameEnd fun c d => c.intoParts.Alike L d.intoParts) Eq
      (b.withFlags flags).build (b.withFlags .all).build := by
  have hspec : ∀ flags, (b.withFlags flags).spec = b.spec := fun _ => rfl
  unfold ConfigBuilder.build
  apply Act.Matches.reportingFailure ?_ fun _ => hL.kept rfl
  rw [hspec, hspec]
  cases b.spec.validate with
  | error e => exact Act.matches_pure (.error e)
  | ok _ =>
      apply Act.Matches.bind_same (Act.matches_emitIf _ (hL.kept rfl))
      intro _
      apply h.connectBoth.bind
      rintro _ _ (⟨⟨events, client⟩, _, rfl, hevents, hclient⟩ | e)
      · apply (assemble hL h hevents hclient).bind
        intro c d halike
        exact Act.matches_pure (.ok c d halike)
      · exact Act.matches_pure (.error e)

theorem ConfigBuilder.steady_any (b : ConfigBuilder ω) : b.Steady .any where
  connect _ := trivial
  connections _ _ _ _ _ := trivial
  hostname _ := trivial
  draw _ := trivial
  terminate _ := trivial
  onStartedLeading _ _ _ _ := trivial
  onNewLeader _ _ _ _ := trivial

theorem ConfigBuilder.Steady.of_quiet {b : ConfigBuilder ω} (h : b.Steady .quiet) :
    b.Steady (.filtered flags.keeps) where
  connect := h.connect.of_quiet
  connections w t ht request := (h.connections w t ht request).of_quiet
  hostname := h.hostname.of_quiet
  draw := h.draw.of_quiet
  terminate := h.terminate.of_quiet
  onStartedLeading f hf token := (h.onStartedLeading f hf token).of_quiet
  onNewLeader f hf identity := (h.onNewLeader f hf identity).of_quiet

end LeaderLease
