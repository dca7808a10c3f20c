import LeaderLease.Proofs.Lock.Reporting
import LeaderLease.Proofs.Session.Flags
import LeaderLease.Proofs.Session.Interference

/-!
# Every failure of a session is reported

Assembling a config and the operations on its lock report their failures, and they report nothing else as a failure.
Nothing that is done with a config makes it forget to. So the errors in the log of a session are its failures, one by
one.
-/

namespace LeaderLease

variable {ω σ α β ε : Type}

def Act.LogsNoErrors (a : Act ω α) : Prop := ∀ w, ∀ e ∈ (a w).log, e.level ≠ .error

namespace Act

theorem logsNoErrors_of_silent {a : Act ω α} (hsilent : ∀ w, (a w).log = []) : LogsNoErrors a := by
  intro w
  rw [hsilent]
  exact List.forall_mem_nil _

theorem logsNoErrors_pure (x : α) : LogsNoErrors (pure x : Act ω α) := logsNoErrors_of_silent fun _ => rfl

theorem logsNoErrors_emit {e : LogEvent} (he : e.level ≠ .error) : LogsNoErrors (emit e : Act ω Unit) :=
  fun _ => List.forall_mem_singleton.mpr he

theorem logsNoErrors_emitIf (wanted : Bool) {e : LogEvent} (he : e.level ≠ .error) :
    LogsNoErrors (emitIf wanted e : Act ω Unit) := by
  cases wanted with
  | true => exact logsNoErrors_emit he
  | false => exact logsNoErrors_of_silent fun _ => rfl

theorem LogsNoErrors.bind {a : Act ω α} {f : α → Act ω β} (ha : LogsNoErrors a) (hf : ∀ x, LogsNoErrors (f x)) :
    LogsNoErrors (a >>= f) := by
  intro w e he
  obtain he | he := List.mem_append.mp he
  · exact ha w e he
  · exact hf _ _ e he

theorem LogsNoErrors.on {a : Act ω α} (ha : LogsNoErrors a) (part : Part σ ω) : LogsNoErrors (a.on part) :=
  fun s => ha (part.get s)

theorem LogsNoErrors.reports {a : Act ω (Except ε α)} (ha : LogsNoErrors a) (message : ε → String) (w : ω) :
    Reports (failureReport message (reportingFailure message a w).value) (reportingFailure message a w).log := by
  rw [reportingFailure_apply]
  exact ⟨(a w).log, ha w, rfl⟩

end Act

structure IdentityResolver.LogsNoErrors (r : IdentityResolver ω) : Prop where
  hostname : Act.LogsNoErrors r.hostname
  draw : Act.LogsNoErrors r.draw

theorem IdentityResolver.LogsNoErrors.resolve {r : IdentityResolver ω} (h : r.LogsNoErrors) (explicit : String) :
    Act.LogsNoErrors (r.resolve explicit) := by
  unfold IdentityResolver.resolve
  by_cases hexplicit : explicit = ""
  · rw [if_neg (not_not_intro hexplicit)]
    apply h.draw.bind
    intro unique
    apply h.hostname.bind
    intro found
    cases found with
    | error reason =>
        refine .bind (Act.logsNoErrors_emit nofun) fun _ => ?_
        exact Act.logsNoErrors_pure _
    | ok hostname =>
        dsimp only
        split
        · exact Act.logsNoErrors_pure _
        · refine .bind (Act.logsNoErrors_emit nofun) fun _ => ?_
          exact Act.logsNoErrors_pure _
  · rw [if_pos hexplicit]
    exact Act.logsNoErrors_pure _

namespace ConfigBuilder

variable {b : ConfigBuilder ω}

theorem connectBoth_logsNoErrors (hconnect : Act.LogsNoErrors b.connect) : Act.LogsNoErrors b.connectBoth := by
  apply hconnect.bind
  intro first
  cases first with
  | error fault => exact Act.logsNoErrors_pure _
  | ok events =>
      apply hconnect.bind
      intro second
      cases second with
      | error fault => exact Act.logsNoErrors_pure _
      | ok client => exact Act.logsNoErrors_pure _

theorem assemble_logsNoErrors (hresolver : b.resolver.LogsNoErrors) (events client : Transport ω) :
    Act.LogsNoErrors (b.assemble events client) := by
  apply (hresolver.resolve b.identity).bind
  intro identity
  refine .bind (Act.logsNoErrors_emit nofun) fun _ => ?_
  exact Act.logsNoErrors_pure _

theorem build_reports (hconnect : Act.LogsNoErrors b.connect) (hresolver : b.resolver.LogsNoErrors) (w : ω) :
    Reports (Act.failureReport AssemblyError.message (b.build w).value) (b.build w).log := by
  apply Act.LogsNoErrors.reports
  cases b.spec.validate with
  | error e => exact Act.logsNoErrors_pure _
  | ok _ =>
      refine .bind (Act.logsNoErrors_emitIf _ nofun) fun _ => ?_
      apply (connectBoth_logsNoErrors hconnect).bind
      intro connected
      cases connected with
      | error e => exact Act.logsNoErrors_pure _
      | ok transports =>
          apply (assemble_logsNoErrors hresolver transports.1 transports.2).bind
          intro config
          exact Act.logsNoErrors_pure _

structure CallbacksLogNoErrors (b : ConfigBuilder ω) : Prop where
  terminate : Act.LogsNoErrors b.terminate
  onStartedLeading : ∀ f ∈ b.onStartedLeading, ∀ token, Act.LogsNoErrors (f token)
  onNewLeader : ∀ f ∈ b.onNewLeader, ∀ identity, Act.LogsNoErrors (f identity)

theorem CallbacksLogNoErrors.startedLeading (h : b.CallbacksLogNoErrors) (token : CancellationToken) :
    Act.LogsNoErrors (b.callbacks.startedLeading token) := by
  unfold LeaderCallbacks.startedLeading callbacks
  cases hstarted : b.onStartedLeading with
  | none => exact Act.logsNoErrors_pure ()
  | some f => exact (h.onStartedLeading f hstarted token).on Guarded.inner

theorem CallbacksLogNoErrors.newLeader (h : b.CallbacksLogNoErrors) (identity : String) :
    Act.LogsNoErrors (b.callbacks.newLeader identity) := by
  unfold LeaderCallbacks.newLeader callbacks
  cases hnew : b.onNewLeader with
  | none => exact Act.logsNoErrors_pure ()
  | some f => exact (h.onNewLeader f hnew identity).on Guarded.inner

theorem CallbacksLogNoErrors.stoppedLeading (h : b.CallbacksLogNoErrors) :
    Act.LogsNoErrors b.callbacks.stoppedLeading := by
  have hswap : Act.LogsNoErrors (Guarded.swap (ω := ω)) := Act.logsNoErrors_of_silent fun _ => rfl
  apply hswap.bind
  intro fired
  cases fired with
  | true => exact Act.logsNoErrors_pure ()
  | false =>
      refine .bind (Act.logsNoErrors_emit nofun) fun _ => ?_
      exact h.terminate.on Guarded.inner

end ConfigBuilder

theorem LeadershipChange.report_logsNoErrors {b : ConfigBuilder ω} (h : b.CallbacksLogNoErrors)
    (audience : Part (Guarded ω) Audience) (change : LeadershipChange) :
    Act.LogsNoErrors (change.report audience b.callbacks) := by
  cases change with
  | stoppedLeading => exact h.stoppedLeading
  | newLeader identity => exact h.newLeader identity
  | startedLeading =>
      have hmade : Act.LogsNoErrors Audience.newToken := Act.logsNoErrors_of_silent fun _ => rfl
      apply (hmade.on audience).bind
      intro token
      exact h.startedLeading token
  | cancel token => exact Act.logsNoErrors_of_silent fun _ => rfl

/-- The operation on the lock that a step is, which may depend on the record that was read last. -/
def SessionStep.lockCall? (lastRead : Option LeaderRecord) : SessionStep → Option LockCall
  | .get => some .get
  | .create record => some (.create record)
  | .update record => some (.update record)
  | .updateLast => lastRead.map .update
  | .script .. | .recordEvent _ | .intoParts | .change _ => none

namespace SessionReply

def ofAnswer : LockAnswer → SessionReply
  | .read record => .read record
  | .written => .done
  | .failed e => .lockError e

def failureReport : SessionReply → List LogEvent
  | .lockError e => [.failed e.message]
  | .done | .read _ | .nothingRead | .parts _ | .heard _ => []

theorem failureReport_ofAnswer (answer : LockAnswer) : (ofAnswer answer).failureReport = answer.failureReport := by
  cases answer <;> rfl

theorem failureReport_errors (reply : SessionReply) : ∀ e ∈ reply.failureReport, e.level = .error := by
  cases reply with
  | lockError e => exact List.forall_mem_singleton.mpr rfl
  | done | read | nothingRead | parts | heard => exact List.forall_mem_nil _

end SessionReply

namespace Session

variable {first : Nat} {config : ElectionConfig Rehearsal} {s : Session first}

theorem write_ended (act : Act Rehearsal (Except LockError Unit)) (s : Session first) :
    let written : Act (Session first) SessionReply := do return replyTo (← act.on world)
    let answered : Act Rehearsal LockAnswer := do return .ofWrite (← act)
    (written s).value = .ofAnswer (answered (world.get s)).value ∧ (written s).log = (answered (world.get s)).log := by
  refine ⟨?_, rfl⟩
  change replyTo (act (world.get s)).value = .ofAnswer (.ofWrite (act (world.get s)).value)
  cases (act (world.get s)).value <;> rfl

theorem perform_lockCall (hs : Holds config s) {step : SessionStep} {call : LockCall}
    (hcall : step.lockCall? s.lastRead = some call) :
    let ended := call.perform config.lock (world.get s)
    (perform step s).value = .ofAnswer ended.value ∧ (perform step s).log = ended.log := by
  have hupdate : ∀ record, (perform (.update record) s).value =
        .ofAnswer ((LockCall.update record).perform config.lock (world.get s)).value ∧
      (perform (.update record) s).log = ((LockCall.update record).perform config.lock (world.get s)).log := by
    intro record
    rw [perform_of_lock rfl hs]
    exact write_ended (config.lock.update record) s
  cases step with
  | get =>
      obtain rfl := Option.some.inj hcall
      rw [perform_of_lock rfl hs]
      simp only [Act.bind_apply, Act.on_apply, LockCall.perform]
      cases (config.lock.get (world.get s)).value with
      | ok record => exact ⟨rfl, rfl⟩
      | error e => exact ⟨rfl, rfl⟩
  | create record =>
      obtain rfl := Option.some.inj hcall
      rw [perform_of_lock rfl hs]
      exact write_ended (config.lock.create record) s
  | update record =>
      obtain rfl := Option.some.inj hcall
      exact hupdate record
  | updateLast =>
      obtain ⟨record, hlast, rfl⟩ := Option.map_eq_some_iff.mp hcall
      rw [perform_updateLast, hlast]
      exact hupdate record
  | script | recordEvent | intoParts | change => cases hcall

/-- What the script has for a request on one of the connections. -/
def outcome (channel : Channel) (s : Session first) (request : Request) : Except TransportError Response :=
  Recording.answer request ((connection channel).get s).outcomes

end Session

structure ElectionConfig.AssembledBy (first : Nat) (b : ConfigBuilder Rehearsal) (config : ElectionConfig Rehearsal) :
    Prop where
  keepsApart : config.KeepsApart first
  eq : ∃ identity, config = .ofLock
    (b.lock (Recording.transport.on (Rehearsal.connection (Channel.event.connection first)))
      (Recording.transport.on (Rehearsal.connection (Channel.lock.connection first))) identity)
    b.timing b.callbacks

theorem ConfigBuilder.AmongStandIns.assembledBy {b : ConfigBuilder Rehearsal} (hb : b.AmongStandIns) {w : Rehearsal}
    {config : ElectionConfig Rehearsal} (hbuild : (b.build w).value = .ok config) :
    config.AssembledBy w.backend.made b := ⟨hb.keepsApart hbuild, hb.config_eq hbuild⟩

theorem ConfigBuilder.AmongStandIns.connect_logsNoErrors {b : ConfigBuilder Rehearsal} (hb : b.AmongStandIns) :
    Act.LogsNoErrors b.connect := by
  rw [hb.connect]
  exact Act.logsNoErrors_of_silent Rehearsal.connect_log

namespace Session

variable {first : Nat} {b : ConfigBuilder Rehearsal} {config : ElectionConfig Rehearsal} {s : Session first}

theorem perform_lock_reported (hconfig : config.AssembledBy first b) (hs : Holds config s) {step : SessionStep}
    {call : LockCall} (hcall : step.lockCall? s.lastRead = some call) :
    call.Reported ⟨b.spec.namespaceName, b.spec.name⟩ (outcome .lock s) (perform step s).value.failureReport
      (perform step s).log := by
  obtain ⟨hvalue, hlog⟩ := perform_lockCall hs hcall
  obtain ⟨identity, hassembled⟩ := hconfig.eq
  have hkey : config.lock.key = ⟨b.spec.namespaceName, b.spec.name⟩ := congrArg (·.lock.key) hassembled
  have hclient : config.lock.client = Transport.logged b.clock b.debugFlags
      (Recording.transport.on (Rehearsal.connection (Channel.lock.connection first))) :=
    congrArg (·.lock.client) hassembled
  rw [hvalue, hlog, SessionReply.failureReport_ofAnswer, ← hkey]
  exact LockCall.perform_reported hclient (fun _ => rfl) call

theorem perform_recordEvent_log (hconfig : config.AssembledBy first b) (hs : Holds config s) (message : String) :
    let recorder := config.lock.recorder
    let text := config.lock.identity ++ " " ++ message
    ∃ verdict, (perform (.recordEvent message) s).log =
        [.announced .normal LeaderEvent.electionReason text, verdict] ∧
      (verdict = .recorded ↔ recorder.Records
        (recorder.event .normal LeaderEvent.electionReason text (recorder.now s.guarded.world)) (outcome .event s)) ∧
      (verdict ≠ .recorded → verdict.level = .warn) := by
  intro recorder text
  have htransport : recorder.transport =
      Recording.transport.on (Rehearsal.connection (Channel.event.connection first)) := hconfig.keepsApart.events
  have hsilent : ∀ request, (recorder.transport request (world.get s)).log = [] := by
    rw [htransport]
    exact fun _ => rfl
  obtain ⟨verdict, hlog, hrecorded, hwarn⟩ := EventRecorder.record_log hsilent .normal LeaderEvent.electionReason text
  refine ⟨verdict, ?_, ?_, hwarn⟩
  · rw [perform_of_lock rfl hs]
    simp only [Act.bind_apply, Act.on_apply, Act.pure_apply, LeaseLock.recordEvent, List.append_nil]
    exact hlog
  · rw [htransport] at hrecorded
    exact hrecorded

theorem perform_errors (hconfig : config.AssembledBy first b) (hcallbacks : b.CallbacksLogNoErrors)
    (hs : Holds config s) (step : SessionStep) :
    LogEvent.errors (perform step s).log = (perform step s).value.failureReport := by
  cases hcall : step.lockCall? s.lastRead with
  | some call => exact (perform_lock_reported hconfig hs hcall).reports.errors_eq (SessionReply.failureReport_errors _)
  | none =>
      cases step with
      | get | create | update => cases hcall
      | updateLast =>
          rw [perform_updateLast, Option.map_eq_none_iff.mp hcall]
          rfl
      | recordEvent message =>
          obtain ⟨verdict, hlog, -, hwarn⟩ := perform_recordEvent_log hconfig hs message
          have hlevel : verdict.level ≠ .error := by
            by_cases hrecorded : verdict = .recorded
            · rw [hrecorded]
              decide
            · rw [hwarn hrecorded]
              decide
          change LogEvent.errors (perform (.recordEvent message) s).log = []
          rw [hlog]
          exact LogEvent.errors_eq_nil (List.forall_mem_cons.mpr ⟨nofun, List.forall_mem_singleton.mpr hlevel⟩)
      | change change =>
          have hlog : (perform (.change change) s).log =
              (change.report audience s.handle.callbacks s.guarded).log ++ [] := rfl
          obtain ⟨identity, hassembled⟩ := hconfig.eq
          have hassigned : config.callbacks = b.callbacks := congrArg ElectionConfig.callbacks hassembled
          rw [hlog, List.append_nil, hs.callbacks_eq, hassigned]
          exact LogEvent.errors_eq_nil (change.report_logsNoErrors hcallbacks audience s.guarded)
      | script | intoParts => rfl

theorem run_holds (hconfig : config.KeepsApart first) (hs : Holds config s) (steps : List SessionStep) :
    Holds config (run steps s).world := by
  induction steps generalizing s with
  | nil => exact hs
  | cons step steps ih => exact ih (perform_holds hconfig hs step)

theorem run_errors (hconfig : config.AssembledBy first b) (hcallbacks : b.CallbacksLogNoErrors) (hs : Holds config s)
    (steps : List SessionStep) :
    LogEvent.errors (run steps s).log = (run steps s).value.flatMap SessionReply.failureReport := by
  induction steps generalizing s with
  | nil => rfl
  | cons step steps ih =>
      have hlog : (run (step :: steps) s).log =
          (perform step s).log ++ ((run steps (perform step s).world).log ++ []) := rfl
      have hvalue : (run (step :: steps) s).value =
          (perform step s).value :: (run steps (perform step s).world).value := rfl
      -- The step leaves the config in place, so that the rest of the run is on the same lock.
      rw [hlog, hvalue, List.append_nil, List.flatMap_cons, LogEvent.errors_append,
        perform_errors hconfig hcallbacks hs step, ih (perform_holds hconfig.keepsApart hs step)]

end Session

/-- The failures of a session: that of the assembly, or those of its steps. -/
def Session.failures : Except AssemblyError (List SessionReply) → List LogEvent
  | .error e => [.failed e.message]
  | .ok replies => replies.flatMap SessionReply.failureReport

theorem ConfigBuilder.AmongStandIns.play_errors {b : ConfigBuilder Rehearsal} (hb : b.AmongStandIns)
    (hresolver : b.resolver.LogsNoErrors) (hcallbacks : b.CallbacksLogNoErrors) (w : Rehearsal)
    (steps : List SessionStep) : LogEvent.errors (b.play steps w).log = Session.failures (b.play steps w).value := by
  have hbuildErrors : LogEvent.errors (b.build w).log = Act.failureReport AssemblyError.message (b.build w).value := by
    apply (build_reports hb.connect_logsNoErrors hresolver w).errors_eq
    cases (b.build w).value with
    | ok config => exact List.forall_mem_nil _
    | error e => exact List.forall_mem_singleton.mpr rfl
  unfold play
  rw [Act.look_bind, Act.bind_apply]
  dsimp only
  rw [LogEvent.errors_append, hbuildErrors]
  cases hbuild : (b.build w).value with
  | error e => rfl
  | ok config =>
      have hstart : Session.Holds config (.fresh config (b.build w).world : Session w.backend.made) := .inl rfl
      have hrun := Session.run_errors (hb.assembledBy hbuild) hcallbacks hstart steps
      change LogEvent.errors ((Session.run steps _).log ++ []) = _
      rw [List.append_nil, hrun]
      rfl

open Session in
/-- **Reports.** Assembling a config logs an error just if it fails, one and as its last event. So does every operation
on the lock, in whatever state of the session, and a request that is lost on the way is told of before. To record an
event is never an error: it is announced and then either recorded or warned of. So the errors in the log of a session
are its failures, unless those who are asked or called back log errors of their own. -/
theorem session_failures_are_reported {b : ConfigBuilder Rehearsal} (hb : b.AmongStandIns) (w : Rehearsal) :
    let built := b.build w
    let n : LeaseName := ⟨b.spec.namespaceName, b.spec.name⟩
    (b.resolver.LogsNoErrors → Reports (Act.failureReport AssemblyError.message built.value) built.log) ∧
    (∀ config, built.value = .ok config → ∀ steps : List SessionStep,
      let start : Session w.backend.made := .fresh config built.world
      let s := (run steps start).world
      (∀ step call, step.lockCall? s.lastRead = some call →
        let ended := perform step s
        call.Reported n (outcome .lock s) ended.value.failureReport ended.log) ∧
      ∀ message : String,
        let recorder := config.lock.recorder
        let text := config.lock.identity ++ " " ++ message
        let event := recorder.event .normal LeaderEvent.electionReason text (recorder.now s.guarded.world)
        ∃ verdict, (perform (.recordEvent message) s).log =
            [.announced .normal LeaderEvent.electionReason text, verdict] ∧
          (verdict = .recorded ↔ recorder.Records event (outcome .event s)) ∧
          (verdict ≠ .recorded → verdict.level = .warn)) ∧
    (b.resolver.LogsNoErrors → b.CallbacksLogNoErrors → ∀ steps : List SessionStep,
      LogEvent.errors (b.play steps w).log = failures (b.play steps w).value) := by
  intro built n
  refine ⟨fun hresolver => ConfigBuilder.build_reports hb.connect_logsNoErrors hresolver w, ?_,
    fun hresolver hcallbacks => hb.play_errors hresolver hcallbacks w⟩
  intro config hbuild steps start s
  have hconfig := hb.assembledBy hbuild
  have hs : Holds config s := run_holds hconfig.keepsApart (.inl rfl) steps
  exact ⟨fun step call hcall => perform_lock_reported hconfig hs hcall, perform_recordEvent_log hconfig hs⟩

theorem ConfigBuilder.AmongStandIns.withFlags {b : ConfigBuilder Rehearsal} (h : b.AmongStandIns) (flags : DebugFlags) :
    (b.withFlags flags).AmongStandIns := ⟨h.connect, h.terminate, h.onStartedLeading, h.onNewLeader⟩

theorem rehearsed_callbacksLogNoErrors (flags : DebugFlags) : (rehearsed.withFlags flags).CallbacksLogNoErrors where
  terminate := Act.logsNoErrors_of_silent fun _ => rfl
  onStartedLeading := by
    rintro f ⟨⟩ token
    exact Act.logsNoErrors_of_silent fun _ => rfl
  onNewLeader := by
    rintro f ⟨⟩ identity
    exact Act.logsNoErrors_of_silent fun _ => rfl

open Session in
theorem session_failures_are_reported_lost :
    let b := rehearsed.withFlags .none
    let w := Rehearsal.fresh (.fresh none none)
    let steps : List SessionStep := [.script .lock [.error "connection refused"], .script .event [.ok ⟨403, []⟩]]
    let path := "/namespaces/team-a/leases/controller-lock"
    let lost := "GET /namespaces/team-a/leases/controller-lock failed: connection refused"
    b.AmongStandIns ∧ b.resolver.LogsNoErrors ∧ b.CallbacksLogNoErrors ∧ Reports [] (b.build w).log ∧
    ∃ config, (b.build w).value = .ok config ∧
      let start : Session w.backend.made := .fresh config (b.build w).world
      let s := (run steps start).world
      (∃ traffic elapsed failures, (∀ e ∈ traffic, e.level = .debug) ∧
        (perform .get s).log = traffic ++ [.undelivered .get path elapsed lost] ++ failures ∧ failures ≠ []) ∧
      (∃ verdict text, (perform (.recordEvent "became leader") s).log =
        [.announced .normal LeaderEvent.electionReason text, verdict] ∧ verdict.level = .warn) ∧
      LogEvent.errors (b.play (steps ++ [.get]) w).log = [.failed ("Lock backend transport error: " ++ lost)] := by
  intro b w steps path lost
  have hb : b.AmongStandIns := (Rehearsal.builder_amongStandIns _ _).withAudience.withFlags .none
  have hresolver : b.resolver.LogsNoErrors :=
    ⟨Act.logsNoErrors_of_silent fun _ => rfl, Act.logsNoErrors_of_silent fun _ => rfl⟩
  have hcallbacks : b.CallbacksLogNoErrors := rehearsed_callbacksLogNoErrors .none
  have hblank : ∀ i, ((b.build w).world.backend.connections i).outcomes = [] := fun _ => rfl
  obtain ⟨config, hbuild⟩ : ∃ config, (b.build w).value = .ok config := ⟨_, rfl⟩
  obtain ⟨hbuilt, hsession, hplay⟩ := session_failures_are_reported hb w
  obtain ⟨hlock, hrecord⟩ := hsession config hbuild steps
  refine ⟨hb, hresolver, hcallbacks, hbuilt hresolver, config, hbuild, ?_, ?_, ?_⟩
  · obtain ⟨traffic, elapsed, htraffic, hlog, hfailed⟩ := hlock .get .get rfl
    have hqueued : ((connection .lock).get
        (run steps (.fresh config (b.build w).world : Session w.backend.made)).world).outcomes =
          ((b.build w).world.backend.connections 1).outcomes ++ [.error "connection refused"] := rfl
    have hlost : LockCall.get.lossReport ⟨b.spec.namespaceName, b.spec.name⟩ elapsed
        (outcome .lock (run steps (.fresh config (b.build w).world : Session w.backend.made)).world) =
          [.undelivered .get path elapsed lost] := by
      have htarget : Target.parse (LockCall.get.path ⟨b.spec.namespaceName, b.spec.name⟩) = .ok ⟨path, none⟩ := by
        decide +kernel
      unfold LockCall.lossReport outcome
      rw [htarget, hqueued, hblank]
      rfl
    rw [hlost] at hlog hfailed
    exact ⟨traffic, elapsed, _, htraffic, hlog, hfailed (List.cons_ne_nil _ _)⟩
  · obtain ⟨verdict, hlog, hrecorded, hwarn⟩ := hrecord "became leader"
    have hqueued : ((connection .event).get
        (run steps (.fresh config (b.build w).world : Session w.backend.made)).world).outcomes =
          ((b.build w).world.backend.connections 0).outcomes ++ [.ok ⟨403, []⟩] := rfl
    have hrefused : verdict ≠ .recorded := by
      intro heq
      obtain ⟨request, response, -, houtcome, hsuccess⟩ := hrecorded.mp heq
      unfold outcome at houtcome
      rw [hqueued, hblank] at houtcome
      obtain rfl := Except.ok.inj houtcome
      exact absurd hsuccess (by decide)
    exact ⟨verdict, _, hlog, hwarn hrefused⟩
  · have hfailures : failures (b.play (steps ++ [.get]) w).value =
        [.failed ("Lock backend transport error: " ++ lost)] := by decide +kernel
    rw [hplay hresolver hcallbacks, hfailures]

end LeaderLease
