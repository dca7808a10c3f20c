import LeaderLease.Proofs.Election.Assembly

/-!
# A config is assembled as a whole or not at all

What assembling has called is seen by doing it with a spy on each collaborator: on the factory of connections and each
connection that it makes, on the host, and on everything that may be called back. The spies note the calls and pass
them on, so a spied builder comes to the same end as the builder itself.
-/

namespace LeaderLease

variable {ω α β : Type}

/-- What a collaborator of a builder can be asked for. Connections are numbered by the attempts made before. -/
inductive BuilderCall where
  | connect
  | request (connection : Nat) (request : Request)
  | hostname
  | draw
  | terminate
  | startedLeading (token : CancellationToken)
  | newLeader (identity : String)
  deriving DecidableEq

/-- A world with notes of the calls that were made in it, oldest first. -/
structure Spied (ω : Type) where
  world : ω
  calls : List BuilderCall

namespace Spied

def inner : Part (Spied ω) ω where
  get := world
  set w s := { s with world := w }
  get_set _ _ := rfl
  set_get _ := rfl
  set_set _ _ _ := rfl

def call (c : BuilderCall) (a : Act ω α) : Act (Spied ω) α := do
  .change fun s => { s with calls := s.calls ++ [c] }
  a.on inner

theorem call_apply (c : BuilderCall) (a : Act ω α) (s : Spied ω) :
    call c a s = ⟨(a s.world).value, ⟨(a s.world).world, s.calls ++ [c]⟩, (a s.world).log⟩ := rfl

def transport (connection : Nat) (t : Transport ω) : Transport (Spied ω) :=
  fun request => call (.request connection request) (t request)

/-- Connections are spied on from the first request. -/
def connect (a : Act ω (Except Fault (Transport ω))) : Act (Spied ω) (Except Fault (Transport (Spied ω))) := do
  let attempts ← .look fun s => s.calls.count .connect
  return (← call .connect a).map (transport attempts)

theorem connect_apply (a : Act ω (Except Fault (Transport ω))) (s : Spied ω) :
    connect a s = ⟨(a s.world).value.map (transport (s.calls.count .connect)),
      ⟨(a s.world).world, s.calls ++ [.connect]⟩, (a s.world).log ++ []⟩ := rfl

def resolver (r : IdentityResolver ω) : IdentityResolver (Spied ω) where
  hostname := call .hostname r.hostname
  draw := call .draw r.draw

end Spied

def ConfigBuilder.spied (b : ConfigBuilder ω) : ConfigBuilder (Spied ω) where
  spec := b.spec
  connect := Spied.connect b.connect
  resolver := Spied.resolver b.resolver
  terminate := Spied.call .terminate b.terminate
  clock := ⟨fun s => b.clock.running s.world, fun s => b.clock.now s.world⟩
  locate := b.locate
  identity := b.identity
  component := b.component
  preset := b.preset
  debugFlags := b.debugFlags
  onStartedLeading := b.onStartedLeading.map fun f token => Spied.call (.startedLeading token) (f token)
  onNewLeader := b.onNewLeader.map fun f identity => Spied.call (.newLeader identity) (f identity)

def identityCalls (explicit : String) : List BuilderCall := if explicit = "" then [.draw, .hostname] else []

theorem Spied.resolve_apply (r : IdentityResolver ω) (explicit : String) (s : Spied ω) :
    (resolver r).resolve explicit s =
      ⟨(r.resolve explicit s.world).value,
        ⟨(r.resolve explicit s.world).world, s.calls ++ identityCalls explicit⟩, (r.resolve explicit s.world).log⟩ := by
  unfold IdentityResolver.resolve identityCalls
  by_cases hexplicit : explicit = ""
  · rw [if_neg (not_not_intro hexplicit), if_neg (not_not_intro hexplicit), if_pos hexplicit]
    simp only [resolver, Act.bind_apply, call_apply]
    cases (r.hostname (r.draw s.world).world).value with
    | error reason =>
        simp only [Act.bind_apply, Act.emit_apply, Act.pure_apply, List.append_assoc, List.cons_append, List.nil_append]
    | ok hostname =>
        by_cases hhostname : hostname = ""
        · simp only [hhostname, ne_eq, not_true_eq_false, if_false, Act.bind_apply, Act.emit_apply, Act.pure_apply,
            List.append_assoc, List.cons_append, List.nil_append]
        · simp only [hhostname, ne_eq, not_false_eq_true, if_true, Act.pure_apply, List.append_assoc, List.cons_append,
            List.nil_append]
  · rw [if_pos hexplicit, if_pos hexplicit, if_neg hexplicit, List.append_nil]
    rfl

namespace ConfigBuilder

variable {b : ConfigBuilder ω} {w : ω}

/-! ### The ways through the assembly -/

inductive Way (b : ConfigBuilder ω) (w : ω) : Prop
  | noNamespace (hnamespace : b.spec.namespaceName = "")
  | noName (hnamespace : b.spec.namespaceName ≠ "") (hname : b.spec.name = "")
  | noFirst (hnamespace : b.spec.namespaceName ≠ "") (hname : b.spec.name ≠ "") (fault : Fault)
      (hfirst : (b.connect w).value = .error fault)
  | noSecond (hnamespace : b.spec.namespaceName ≠ "") (hname : b.spec.name ≠ "") (events : Transport ω)
      (fault : Fault) (hfirst : (b.connect w).value = .ok events)
      (hsecond : (b.connect (b.connect w).world).value = .error fault)
  | stands (hnamespace : b.spec.namespaceName ≠ "") (hname : b.spec.name ≠ "") (events client : Transport ω)
      (hfirst : (b.connect w).value = .ok events) (hsecond : (b.connect (b.connect w).world).value = .ok client)

theorem way (b : ConfigBuilder ω) (w : ω) : b.Way w := by
  by_cases hnamespace : b.spec.namespaceName = ""
  · exact .noNamespace hnamespace
  · by_cases hname : b.spec.name = ""
    · exact .noName hnamespace hname
    · cases hfirst : (b.connect w).value with
      | error fault => exact .noFirst hnamespace hname fault hfirst
      | ok events =>
          cases hsecond : (b.connect (b.connect w).world).value with
          | error fault => exact .noSecond hnamespace hname events fault hfirst hsecond
          | ok client => exact .stands hnamespace hname events client hfirst hsecond

theorem spied_connect (b : ConfigBuilder ω) (s : Spied ω) :
    b.spied.connect s = ⟨(b.connect s.world).value.map (Spied.transport (s.calls.count .connect)),
      ⟨(b.connect s.world).world, s.calls ++ [.connect]⟩, (b.connect s.world).log⟩ := by
  change Spied.connect b.connect s = _
  rw [Spied.connect_apply, List.append_nil]

theorem build_value_iff (b : ConfigBuilder ω) (w : ω) :
    ((b.build w).value = .error .namespaceRequired ↔ b.spec.namespaceName = "") ∧
    ((b.build w).value = .error .nameRequired ↔ b.spec.namespaceName ≠ "" ∧ b.spec.name = "") ∧
    ((∃ fault, (b.build w).value = .error (.backendUnavailable fault)) ↔
      b.spec.namespaceName ≠ "" ∧ b.spec.name ≠ "" ∧ ((∃ fault, (b.connect w).value = .error fault) ∨
        ∃ fault, (b.connect (b.connect w).world).value = .error fault)) ∧
    ((∃ config, (b.build w).value = .ok config) ↔
      b.spec.namespaceName ≠ "" ∧ b.spec.name ≠ "" ∧ (∃ events, (b.connect w).value = .ok events) ∧
        ∃ client, (b.connect (b.connect w).world).value = .ok client) := by
  cases b.way w with
  | noNamespace hnamespace =>
      rw [build_of_invalid (TimingSpec.validate_of_missing_namespace hnamespace)]
      simp [hnamespace]
  | noName hnamespace hname =>
      rw [build_of_invalid (TimingSpec.validate_of_missing_name hnamespace hname)]
      simp [hnamespace, hname]
  | noFirst hnamespace hname fault hfirst =>
      rw [build_of_first_failure (TimingSpec.validate_of_named hnamespace hname) hfirst]
      simp [hnamespace, hname, hfirst]
  | noSecond hnamespace hname events fault hfirst hsecond =>
      rw [build_of_second_failure (TimingSpec.validate_of_named hnamespace hname) hfirst hsecond]
      simp [hnamespace, hname, hsecond]
  | stands hnamespace hname events client hfirst hsecond =>
      rw [build_of_connections (TimingSpec.validate_of_named hnamespace hname) hfirst hsecond]
      simp [hnamespace, hname, hfirst, hsecond]

/-- Some attempts to connect and nothing else. -/
def connecting (b : ConfigBuilder ω) : Nat → Act ω Unit
  | 0 => return ()
  | attempts + 1 => do
    let _ ← b.connect
    connecting b attempts

def attempts (b : ConfigBuilder ω) (w : ω) : Nat :=
  if b.spec.namespaceName = "" ∨ b.spec.name = "" then 0
  else match (b.connect w).value with
    | .error _ => 1
    | .ok _ => 2

/-- The warning is due to a lock that is named in full. -/
def dueWarning (b : ConfigBuilder ω) : List LogEvent :=
  if b.spec.namespaceName = "" ∨ b.spec.name = "" then [] else b.timingWarning

theorem connecting_one (b : ConfigBuilder ω) (w : ω) :
    b.connecting 1 w = ⟨(), (b.connect w).world, (b.connect w).log⟩ := by
  simp only [connecting, Act.bind_apply, Act.pure_apply, List.append_nil]

theorem connecting_two (b : ConfigBuilder ω) (w : ω) :
    b.connecting 2 w = ⟨(), (b.connect (b.connect w).world).world,
      (b.connect w).log ++ (b.connect (b.connect w).world).log⟩ := by
  simp only [connecting, Act.bind_apply, Act.pure_apply, List.append_nil]

theorem connecting_quiet (hquiet : ∀ v, (b.connect v).log = []) (attempts : Nat) (w : ω) :
    (b.connecting attempts w).log = [] := by
  induction attempts generalizing w with
  | zero => rfl
  | succ attempts ih =>
      change (b.connect w).log ++ (b.connecting attempts (b.connect w).world).log = []
      rw [hquiet, ih, List.append_nil]

theorem attempts_of_unnamed (hunnamed : b.spec.namespaceName = "" ∨ b.spec.name = "") :
    b.attempts w = 0 ∧ b.dueWarning = [] := ⟨if_pos hunnamed, if_pos hunnamed⟩

theorem attempts_of_first_failure {fault : Fault} (hnamespace : b.spec.namespaceName ≠ "") (hname : b.spec.name ≠ "")
    (hfirst : (b.connect w).value = .error fault) : b.attempts w = 1 ∧ b.dueWarning = b.timingWarning := by
  have hnamed : ¬ (b.spec.namespaceName = "" ∨ b.spec.name = "") := not_or.mpr ⟨hnamespace, hname⟩
  refine ⟨?_, if_neg hnamed⟩
  unfold attempts
  rw [if_neg hnamed, hfirst]

theorem attempts_of_first {events : Transport ω} (hnamespace : b.spec.namespaceName ≠ "") (hname : b.spec.name ≠ "")
    (hfirst : (b.connect w).value = .ok events) : b.attempts w = 2 ∧ b.dueWarning = b.timingWarning := by
  have hnamed : ¬ (b.spec.namespaceName = "" ∨ b.spec.name = "") := not_or.mpr ⟨hnamespace, hname⟩
  refine ⟨?_, if_neg hnamed⟩
  unfold attempts
  rw [if_neg hnamed, hfirst]

/-- A failure leaves nothing behind but the attempts to connect, and ends with a report of itself. -/
theorem build_of_error {e : AssemblyError} (hfailed : (b.build w).value = .error e) :
    (b.build w).world = (b.connecting (b.attempts w) w).world ∧
      (b.build w).log = b.dueWarning ++ (b.connecting (b.attempts w) w).log ++ [.failed e.message] := by
  cases b.way w with
  | noNamespace hnamespace =>
      obtain ⟨hattempts, hwarning⟩ := attempts_of_unnamed (w := w) (.inl hnamespace)
      rw [build_of_invalid (TimingSpec.validate_of_missing_namespace hnamespace)] at hfailed ⊢
      obtain rfl := Except.error.inj hfailed
      rw [hattempts, hwarning]
      exact ⟨rfl, rfl⟩
  | noName hnamespace hname =>
      obtain ⟨hattempts, hwarning⟩ := attempts_of_unnamed (w := w) (.inr hname)
      rw [build_of_invalid (TimingSpec.validate_of_missing_name hnamespace hname)] at hfailed ⊢
      obtain rfl := Except.error.inj hfailed
      rw [hattempts, hwarning]
      exact ⟨rfl, rfl⟩
  | noFirst hnamespace hname fault hfirst =>
      obtain ⟨hattempts, hwarning⟩ := attempts_of_first_failure hnamespace hname hfirst
      rw [build_of_first_failure (TimingSpec.validate_of_named hnamespace hname) hfirst] at hfailed ⊢
      obtain rfl := Except.error.inj hfailed
      rw [hattempts, hwarning, connecting_one]
      exact ⟨rfl, rfl⟩
  | noSecond hnamespace hname events fault hfirst hsecond =>
      obtain ⟨hattempts, hwarning⟩ := attempts_of_first hnamespace hname hfirst
      rw [build_of_second_failure (TimingSpec.validate_of_named hnamespace hname) hfirst hsecond] at hfailed ⊢
      obtain rfl := Except.error.inj hfailed
      rw [hattempts, hwarning, connecting_two]
      exact ⟨rfl, rfl⟩
  | stands hnamespace hname events client hfirst hsecond =>
      rw [build_of_connections (TimingSpec.validate_of_named hnamespace hname) hfirst hsecond] at hfailed
      cases hfailed

theorem spied_connects {events : Transport ω} (hfirst : (b.connect w).value = .ok events) :
    (b.spied.connect ⟨w, []⟩).value = .ok (Spied.transport 0 events) ∧
      b.spied.connect (b.spied.connect ⟨w, []⟩).world =
        ⟨(b.connect (b.connect w).world).value.map (Spied.transport 1),
          ⟨(b.connect (b.connect w).world).world, [.connect, .connect]⟩, (b.connect (b.connect w).world).log⟩ := by
  rw [spied_connect, spied_connect, hfirst]
  exact ⟨rfl, rfl⟩

theorem spied_build_ok {events client : Transport ω} (hnamespace : b.spec.namespaceName ≠ "")
    (hname : b.spec.name ≠ "") (hfirst : (b.connect w).value = .ok events)
    (hsecond : (b.connect (b.connect w).world).value = .ok client) :
    ∃ config, (b.spied.build ⟨w, []⟩).value = .ok config := by
  obtain ⟨hspiedFirst, hspiedSecond⟩ := spied_connects hfirst
  rw [hsecond] at hspiedSecond
  have hvalid : b.spied.spec.validate = .ok () := TimingSpec.validate_of_named hnamespace hname
  rw [build_of_connections hvalid hspiedFirst (congrArg Ended.value hspiedSecond)]
  exact ⟨_, rfl⟩

def callsOf (b : ConfigBuilder ω) (w : ω) : List BuilderCall :=
  match (b.build w).value with
  | .error _ => List.replicate (b.attempts w) .connect
  | .ok _ => List.replicate (b.attempts w) .connect ++ identityCalls b.identity

/-- Spied on, a builder comes to the same end in the same way. -/
theorem spied_build (b : ConfigBuilder ω) (w : ω) :
    (b.spied.build ⟨w, []⟩).world = ⟨(b.build w).world, b.callsOf w⟩ ∧
      (b.spied.build ⟨w, []⟩).log = (b.build w).log ∧
      (b.spied.build ⟨w, []⟩).value.map (fun _ => ()) = (b.build w).value.map (fun _ => ()) := by
  unfold callsOf
  cases b.way w with
  | noNamespace hnamespace =>
      have hinvalid := TimingSpec.validate_of_missing_namespace hnamespace
      have hspied := build_of_invalid (b := b.spied) (w := ⟨w, []⟩) hinvalid
      rw [hspied, build_of_invalid hinvalid, (attempts_of_unnamed (.inl hnamespace)).1]
      exact ⟨rfl, rfl, rfl⟩
  | noName hnamespace hname =>
      have hinvalid := TimingSpec.validate_of_missing_name hnamespace hname
      have hspied := build_of_invalid (b := b.spied) (w := ⟨w, []⟩) hinvalid
      rw [hspied, build_of_invalid hinvalid, (attempts_of_unnamed (.inr hname)).1]
      exact ⟨rfl, rfl, rfl⟩
  | noFirst hnamespace hname fault hfirst =>
      have hvalid := TimingSpec.validate_of_named hnamespace hname
      have hspiedFirst : (b.spied.connect ⟨w, []⟩).value = .error fault := by
        rw [spied_connect, hfirst]
        rfl
      have hspied := build_of_first_failure (b := b.spied) hvalid hspiedFirst
      rw [hspied, build_of_first_failure hvalid hfirst, (attempts_of_first_failure hnamespace hname hfirst).1,
        spied_connect]
      exact ⟨rfl, rfl, rfl⟩
  | noSecond hnamespace hname events fault hfirst hsecond =>
      have hvalid := TimingSpec.validate_of_named hnamespace hname
      obtain ⟨hspiedFirst, hspiedSecond⟩ := spied_connects hfirst
      rw [hsecond] at hspiedSecond
      have hspied := build_of_second_failure (b := b.spied) hvalid hspiedFirst (congrArg Ended.value hspiedSecond)
      rw [hspied, build_of_second_failure hvalid hfirst hsecond, (attempts_of_first hnamespace hname hfirst).1,
        hspiedSecond, spied_connect]
      exact ⟨rfl, rfl, rfl⟩
  | stands hnamespace hname events client hfirst hsecond =>
      have hvalid := TimingSpec.validate_of_named hnamespace hname
      obtain ⟨hspiedFirst, hspiedSecond⟩ := spied_connects hfirst
      rw [hsecond] at hspiedSecond
      have hspied := build_of_connections (b := b.spied) hvalid hspiedFirst (congrArg Ended.value hspiedSecond)
      have hresolve : b.spied.resolver.resolve b.spied.identity _ = _ := Spied.resolve_apply b.resolver b.identity
        ⟨(b.connect (b.connect w).world).world, [.connect, .connect]⟩
      rw [hspied, build_of_connections hvalid hfirst hsecond, (attempts_of_first hnamespace hname hfirst).1,
        hspiedSecond, spied_connect, hresolve]
      exact ⟨rfl, rfl, rfl⟩

/-- **All or nothing.** Assembling checks the namespace, the name, the first and the second connection in this order,
and the first check that fails decides. Until all have passed, nothing is called but the factory of connections. With
a config, events go to the first connection and lock traffic to the second, and at most the host has been asked
besides. -/
theorem build_all_or_nothing (b : ConfigBuilder ω) (w : ω) :
    let first := b.connect w
    let second := b.connect first.world
    let ended := b.build w
    let spied := b.spied.build ⟨w, []⟩
    (ended.value = .error .namespaceRequired ↔ b.spec.namespaceName = "") ∧
    (ended.value = .error .nameRequired ↔ b.spec.namespaceName ≠ "" ∧ b.spec.name = "") ∧
    ((∃ fault, ended.value = .error (.backendUnavailable fault)) ↔
      b.spec.namespaceName ≠ "" ∧ b.spec.name ≠ "" ∧
        ((∃ fault, first.value = .error fault) ∨ ∃ fault, second.value = .error fault)) ∧
    ((∃ config, ended.value = .ok config) ↔
      b.spec.namespaceName ≠ "" ∧ b.spec.name ≠ "" ∧
        (∃ events, first.value = .ok events) ∧ ∃ client, second.value = .ok client) ∧
    (∀ e, ended.value = .error e →
      spied.world.calls = List.replicate (b.attempts w) .connect ∧
      ended.world = (b.connecting (b.attempts w) w).world ∧
      ended.log = b.dueWarning ++ (b.connecting (b.attempts w) w).log ++ [.failed e.message] ∧
      ((∀ v, (b.connect v).log = []) → ended.log = b.dueWarning ++ [.failed e.message])) ∧
    (∀ config, ended.value = .ok config →
      spied.world.calls = [.connect, .connect] ++ identityCalls b.identity ∧
      ∃ events client, first.value = .ok events ∧ second.value = .ok client ∧
        config.lock.recorder.transport = events ∧
        config.lock.client = Transport.logged b.clock b.debugFlags client ∧
        config.lock.recorder.component = b.component ∧
        config.timing = b.spec.resolve b.preset ∧
        config.releaseOnCancel = true ∧
        (b.identity ≠ "" → config.lock.identity = b.identity)) ∧
    spied.world.world = ended.world ∧ spied.log = ended.log ∧
      spied.value.map (fun _ => ()) = ended.value.map (fun _ => ()) := by
  dsimp only
  obtain ⟨hnamespace, hname, hunavailable, hbuilt⟩ := build_value_iff b w
  obtain ⟨hspied, hlog, hvalue⟩ := spied_build b w
  have hworld := congrArg Spied.world hspied
  have hcalls := congrArg Spied.calls hspied
  refine ⟨hnamespace, hname, hunavailable, hbuilt, ?_, ?_, hworld, hlog, hvalue⟩
  · intro e hfailed
    obtain ⟨hleft, hreport⟩ := build_of_error hfailed
    refine ⟨?_, hleft, hreport, ?_⟩
    · rw [hcalls]
      unfold callsOf
      rw [hfailed]
    · intro hquiet
      rw [hreport, connecting_quiet hquiet, List.append_nil]
  · intro config hconfig
    obtain ⟨hnonempty, hnamed, -⟩ := hbuilt.mp ⟨config, hconfig⟩
    obtain ⟨events, client, -, hfirst, hsecond, rfl⟩ := eq_of_build_ok hconfig
    refine ⟨?_, events, client, hfirst, hsecond, rfl, rfl, rfl, rfl, rfl, ?_⟩
    · rw [hcalls]
      unfold callsOf
      rw [hconfig, (attempts_of_first hnonempty hnamed hfirst).1]
      rfl
    · intro hidentity
      change (b.resolver.resolve b.identity _).value = b.identity
      unfold IdentityResolver.resolve
      rw [if_pos hidentity]
      rfl

end ConfigBuilder

end LeaderLease
