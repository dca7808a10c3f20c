import LeaderLease.Proofs.Lock.Outcome

/-!
# Reports of failures

What an operation logs is the traffic it causes, for those who debug it, the loss of its request if that was lost, and
at the very end its failure if it has failed. The writer of events logs what it announces and then what has become of
it.
-/

namespace LeaderLease

variable {σ : Type}

/-- The failures come last in the log, and nothing before them is an error. -/
def Reports (failures log : List LogEvent) : Prop :=
  ∃ before, (∀ e ∈ before, e.level ≠ .error) ∧ log = before ++ failures

def LogEvent.errors (log : List LogEvent) : List LogEvent := log.filter (·.level = .error)

theorem LogEvent.errors_append (log more : List LogEvent) : errors (log ++ more) = errors log ++ errors more :=
  List.filter_append log more

theorem LogEvent.errors_eq_nil {log : List LogEvent} (hnone : ∀ e ∈ log, e.level ≠ .error) : errors log = [] :=
  List.filter_eq_nil_iff.mpr fun e he => by simpa using hnone e he

theorem Reports.errors_eq {failures log : List LogEvent} (h : Reports failures log)
    (hfailures : ∀ e ∈ failures, e.level = .error) : LogEvent.errors log = failures := by
  obtain ⟨before, hbefore, rfl⟩ := h
  have hall : LogEvent.errors failures = failures := List.filter_eq_self.mpr fun e he => by simpa using hfailures e he
  rw [LogEvent.errors_append, LogEvent.errors_eq_nil hbefore, hall, List.nil_append]

namespace Transport

theorem optional_debug {wanted : Bool} {event : LogEvent} (hevent : event.level = .debug) :
    ∀ e ∈ (if wanted then [event] else []), e.level = .debug := by
  intro e he
  cases wanted with
  | true =>
      obtain rfl := List.mem_singleton.mp he
      exact hevent
  | false => cases he

theorem answerEvents_debug (flags : DebugFlags) (request : Request) (elapsed : Duration) (response : Response) :
    ∀ e ∈ answerEvents flags request elapsed response, e.level = .debug := by
  intro e he
  obtain he | he := List.mem_append.mp he
  · exact optional_debug rfl e he
  · obtain he | he := List.mem_append.mp he
    · exact optional_debug rfl e he
    · exact optional_debug rfl e he

/-- A request that is lost is told of, whatever the flags. -/
def lossReport (request : Request) (elapsed : Duration) : Except TransportError Response → List LogEvent
  | .ok _ => []
  | .error e => [.undelivered request.method request.path elapsed e.message]

theorem logged_log {inner : Transport σ} {request : Request} {s : σ} (hsilent : (inner request s).log = [])
    (clock : Clock σ) (flags : DebugFlags) :
    ∃ traffic elapsed, (∀ e ∈ traffic, e.level = .debug) ∧
      (logged clock flags inner request s).log = traffic ++ lossReport request elapsed (inner request s).value := by
  let sending : List LogEvent :=
    if flags.detailedTiming then [.sending request.method request.path request.body.length] else []
  let elapsed := clock.running (inner request s).world - clock.running s
  have hsending : ∀ e ∈ sending, e.level = .debug := optional_debug rfl
  have hlog : (logged clock flags inner request s).log =
      sending ++ resultEvents flags request elapsed (inner request s).value := by
    rw [logged_apply, hsilent]
    rfl
  rw [hlog]
  cases (inner request s).value with
  | ok response =>
      refine ⟨sending ++ answerEvents flags request elapsed response, elapsed, ?_, (List.append_nil _).symm⟩
      intro e he
      obtain he | he := List.mem_append.mp he
      · exact hsending e he
      · exact answerEvents_debug flags request elapsed response e he
  | error e => exact ⟨sending, elapsed, hsending, rfl⟩

end Transport

def LockAnswer.failureReport : LockAnswer → List LogEvent
  | .failed e => [.failed e.message]
  | .read _ | .written => []

namespace LeaseLock

theorem send_log {l : LeaseLock σ} {method : Method} {path : String} {body : Bytes} {request : Request}
    (haddress : Request.address method path body = .ok request) (s : σ) :
    (l.send method path body s).log = (l.client request s).log := by
  unfold send
  rw [haddress]
  dsimp only
  rw [Act.bind_apply]
  cases (l.client request s).value <;> exact List.append_nil _

theorem operation_log {α : Type} {answer : Except LockError α → LockAnswer}
    (hanswer : ∀ result, (answer result).failureReport = Act.failureReport LockError.message result) (l : LeaseLock σ)
    (method : Method) (path : String) (body : Bytes) (interpret : Response → Except LockError α) (s : σ) :
    let operation : Act σ LockAnswer := do
      return answer (← Act.reportingFailure LockError.message do return (← l.send method path body) >>= interpret)
    (operation s).log = (l.send method path body s).log ++ (operation s).value.failureReport := by
  intro operation
  let sent : Act σ (Except LockError α) := do return (← l.send method path body) >>= interpret
  have hlog : (operation s).log = (Act.reportingFailure LockError.message sent s).log ++ [] := rfl
  have hvalue : (operation s).value = answer (Act.reportingFailure LockError.message sent s).value := rfl
  have hsent : (sent s).log = (l.send method path body s).log ++ [] := rfl
  rw [hlog, hvalue, hanswer, Act.reportingFailure_apply, hsent, List.append_nil, List.append_nil]

end LeaseLock

namespace LockCall

variable {l : LeaseLock σ}

theorem perform_log (l : LeaseLock σ) (call : LockCall) (s : σ) :
    (call.perform l s).log =
      (l.send call.method (call.path l.key) call.body s).log ++ (call.perform l s).value.failureReport := by
  have hget : ∀ result, (LockAnswer.ofGet result).failureReport = Act.failureReport LockError.message result := by
    intro result
    cases result <;> rfl
  have hwrite : ∀ result, (LockAnswer.ofWrite result).failureReport = Act.failureReport LockError.message result := by
    intro result
    cases result <;> rfl
  cases call with
  | get => exact l.operation_log hget .get _ [] _ s
  | create record => exact l.operation_log hwrite .post _ record.encode _ s
  | update record => exact l.operation_log hwrite .put _ record.encode _ s

/-- The loss of the call's request, if it is sent at all and then lost. -/
def lossReport (n : LeaseName) (call : LockCall) (elapsed : Duration)
    (outcome : Request → Except TransportError Response) : List LogEvent :=
  match Target.parse (call.path n) with
  | .error _ => []
  | .ok target =>
      let request : Request := ⟨call.method, target, call.body⟩
      Transport.lossReport request elapsed (outcome request)

theorem perform_of_lossReport {inner : Transport σ} {s : σ} {clock : Clock σ} {flags : DebugFlags}
    (hclient : l.client = Transport.logged clock flags inner) {call : LockCall} {elapsed : Duration}
    (hlost : call.lossReport l.key elapsed (inner · s |>.value) ≠ []) :
    (call.perform l s).value.failureReport ≠ [] := by
  unfold lossReport at hlost
  cases htarget : Target.parse (call.path l.key) with
  | error e =>
      rw [htarget] at hlost
      exact absurd rfl hlost
  | ok target =>
      obtain ⟨-, hvalue⟩ := perform_addressed htarget s
      rw [hclient, Transport.logged_value] at hvalue
      rw [htarget] at hlost
      dsimp only at hlost
      cases houtcome : (inner ⟨call.method, target, call.body⟩ s).value with
      | ok response =>
          rw [houtcome] at hlost
          exact absurd rfl hlost
      | error e =>
          rw [houtcome] at hvalue
          rw [hvalue]
          exact List.cons_ne_nil _ _

/-- The log of a call: traffic for those who debug it, the loss of its request if that was lost, and at the end its
failure if it has failed. A loss is always followed by a failure. -/
def Reported (n : LeaseName) (call : LockCall) (outcome : Request → Except TransportError Response)
    (failures log : List LogEvent) : Prop :=
  ∃ traffic elapsed, (∀ e ∈ traffic, e.level = .debug) ∧
    log = traffic ++ call.lossReport n elapsed outcome ++ failures ∧
    (call.lossReport n elapsed outcome ≠ [] → failures ≠ [])

theorem lossReport_warn (n : LeaseName) (call : LockCall) (elapsed : Duration)
    (outcome : Request → Except TransportError Response) :
    ∀ e ∈ call.lossReport n elapsed outcome, e.level = .warn := by
  unfold lossReport Transport.lossReport
  split
  · exact List.forall_mem_nil _
  · dsimp only
    split
    · exact List.forall_mem_nil _
    · exact List.forall_mem_singleton.mpr rfl

theorem Reported.reports {n : LeaseName} {call : LockCall} {outcome : Request → Except TransportError Response}
    {failures log : List LogEvent} (h : call.Reported n outcome failures log) : Reports failures log := by
  obtain ⟨traffic, elapsed, htraffic, hlog, -⟩ := h
  refine ⟨traffic ++ call.lossReport n elapsed outcome, ?_, hlog⟩
  intro e he
  obtain he | he := List.mem_append.mp he
  · rw [htraffic e he]
    decide
  · rw [call.lossReport_warn n elapsed outcome e he]
    decide

theorem perform_reported {inner : Transport σ} {s : σ} {clock : Clock σ} {flags : DebugFlags}
    (hclient : l.client = Transport.logged clock flags inner) (hsilent : ∀ request, (inner request s).log = [])
    (call : LockCall) :
    call.Reported l.key (inner · s |>.value) (call.perform l s).value.failureReport (call.perform l s).log := by
  have hlog : ∃ traffic elapsed, (∀ e ∈ traffic, e.level = .debug) ∧
      (l.send call.method (call.path l.key) call.body s).log =
        traffic ++ call.lossReport l.key elapsed (inner · s |>.value) := by
    unfold lossReport
    cases htarget : Target.parse (call.path l.key) with
    | error e =>
        rw [LeaseLock.send_of_unaddressed (Request.address_of_error htarget call.method call.body)]
        exact ⟨[], .zero, List.forall_mem_nil _, rfl⟩
    | ok target =>
        rw [LeaseLock.send_log (Request.address_of_ok htarget call.method call.body), hclient]
        exact Transport.logged_log (hsilent _) clock flags
  obtain ⟨traffic, elapsed, htraffic, hlog⟩ := hlog
  refine ⟨traffic, elapsed, htraffic, ?_, perform_of_lossReport hclient⟩
  rw [perform_log, hlog]

end LockCall

namespace EventRecorder

/-- The request for an event can be built, it is delivered, and the answer is a success. -/
def Records (r : EventRecorder σ) (event : LeaderEvent) (outcome : Request → Except TransportError Response) : Prop :=
  ∃ request response, Request.address .post r.path event.encode = .ok request ∧ outcome request = .ok response ∧
    200 ≤ response.status ∧ response.status < 300

theorem record_log {r : EventRecorder σ} {s : σ} (hsilent : ∀ request, (r.transport request s).log = [])
    (type : EventType) (reason message : String) :
    ∃ verdict, (r.record type reason message s).log = [.announced type reason message, verdict] ∧
      (verdict = .recorded ↔ r.Records (r.event type reason message (r.now s)) (r.transport · s |>.value)) ∧
      (verdict ≠ .recorded → verdict.level = .warn) := by
  unfold record Records
  simp only [Act.bind_apply, Act.emit_apply, Act.look_apply]
  cases Request.address .post r.path (r.event type reason message (r.now s)).encode with
  | error e => exact ⟨.unaddressed e.message, rfl, by simp, fun _ => rfl⟩
  | ok request =>
      refine ⟨verdict (r.transport request s).value, ?_, ?_, ?_⟩
      · simp only [Act.bind_apply, hsilent, Act.emit_apply, List.nil_append, List.cons_append]
      · cases houtcome : (r.transport request s).value with
        | error e => simp [verdict, houtcome]
        | ok response =>
            obtain ⟨status, body⟩ := response
            have hsuccess := LockCall.isSuccess_iff status body
            by_cases hstatus : 200 ≤ status ∧ status < 300
            · simp [verdict, hsuccess.mpr hstatus, houtcome, hstatus]
            · simp [verdict, mt hsuccess.mp hstatus, houtcome, hstatus]
      · cases (r.transport request s).value with
        | error e => exact fun _ => rfl
        | ok response =>
            unfold verdict
            dsimp only
            split
            · exact fun h => absurd rfl h
            · exact fun _ => rfl

end EventRecorder

end LeaderLease
