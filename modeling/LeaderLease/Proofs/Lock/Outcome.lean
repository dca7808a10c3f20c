import LeaderLease.Proofs.Election.Termination

/-!
# What comes of an operation on a lock

An operation is one request to the connection that the config has its lock on, or none if there is no way to address it.
What the operation comes to is read off the one outcome of the request, by a table.
-/

namespace LeaderLease

variable {ω : Type}

/-- Neither of the two texts has a mark in it that ends a path. -/
structure LeaseName.IsPlain (n : LeaseName) : Prop where
  noQuery : '?' ∉ n.namespaceName.toList ++ n.name.toList
  noFragment : '#' ∉ n.namespaceName.toList ++ n.name.toList

namespace LockCall

def method : LockCall → Method
  | get => .get
  | create _ => .post
  | update _ => .put

/-- A lock is created among the locks of its namespace, and found under its own name. -/
def path (n : LeaseName) : LockCall → String
  | get | update _ => n.resourcePath
  | create _ => n.collectionPath

def body : LockCall → Bytes
  | get => []
  | create record | update record => record.encode

def request (n : LeaseName) (call : LockCall) : Request := ⟨call.method, ⟨call.path n, none⟩, call.body⟩

theorem decode_body {call : LockCall} {record : LeaderRecord} (hrecord : call.record? = some record) :
    LeaderRecord.decode call.body = .ok record.asWritten := by
  cases call with
  | get => cases hrecord
  | create given =>
      obtain rfl := Option.some.inj hrecord
      exact LeaderRecord.decode_encode given
  | update given =>
      obtain rfl := Option.some.inj hrecord
      exact LeaderRecord.decode_encode given

end LockCall

namespace LeaseName

variable {n : LeaseName}

theorem IsPlain.endsPath (h : n.IsPlain) :
    ∀ c ∈ n.namespaceName.toList ++ n.name.toList, Target.endsPath c = false :=
  Target.endsPath_of_notMem h.noQuery h.noFragment

theorem IsPlain.collection (h : n.IsPlain) :
    ∀ c ∈ '/' :: "namespaces/".toList ++ n.namespaceName.toList ++ "/leases".toList, Target.endsPath c = false :=
  Target.endsPath_inNamespace (fun c hc => h.endsPath c (List.mem_append_left _ hc)) rfl

theorem IsPlain.resource (h : n.IsPlain) :
    ∀ c ∈ ('/' :: "namespaces/".toList ++ n.namespaceName.toList ++ "/leases".toList) ++ ('/' :: n.name.toList),
      Target.endsPath c = false := by
  intro c hc
  obtain hc | hc := List.mem_append.mp hc
  · exact h.collection c hc
  · obtain rfl | hc := List.mem_cons.mp hc
    · rfl
    · exact h.endsPath c (List.mem_append_right _ hc)

theorem IsPlain.target_eq (h : n.IsPlain) {call : LockCall} {target : Target}
    (htarget : Target.parse (call.path n) = .ok target) : target = ⟨call.path n, none⟩ := by
  have hresource : Target.parse n.resourcePath = .ok target → target = ⟨n.resourcePath, none⟩ := by
    rw [n.resourcePath_eq]
    exact Target.eq_of_parse_plain h.resource
  cases call with
  | get => exact hresource htarget
  | create record =>
      change Target.parse n.collectionPath = .ok target at htarget
      change target = ⟨n.collectionPath, none⟩
      rw [n.collectionPath_eq] at htarget ⊢
      exact Target.eq_of_parse_plain h.collection htarget
  | update record => exact hresource htarget

end LeaseName

/-! ### Answers -/

namespace LockCall

/-- Only a lock that is there can be read or replaced. -/
def canMiss : LockCall → Bool
  | get | update _ => true
  | create _ => false

/-- Only what is written can be contested. -/
def canClash : LockCall → Bool
  | get => false
  | create _ | update _ => true

/-- What a call was to bring about, if the backend has done it. -/
def success (locate : Json.Locator) : LockCall → Bytes → LockAnswer
  | get, body =>
      match LeaderRecord.decode body with
      | .ok record => .read record
      | .error reason => .failed (.unreadable ⟨reason, locate body reason⟩)
  | create _, _ | update _, _ => .written

def verdict (locate : Json.Locator) (n : LeaseName) (call : LockCall) : Except TransportError Response → LockAnswer
  | .error e => .failed (.transport e.toFault)
  | .ok ⟨status, body⟩ =>
      if 200 ≤ status ∧ status < 300 then call.success locate body
      else if status = 404 ∧ call.canMiss then .failed (.notFound n.describe)
      else if status = 409 ∧ call.canClash then .failed (.conflict n.describe)
      else .failed (.unexpectedStatus status (LeaseLock.excerpt body))

/-- What an operation makes of what was sent for it. -/
def interpret (locate : Json.Locator) (lock : String) (sent : Except LockError Response) : LockCall → LockAnswer
  | get => .ofGet (sent >>= LeaseLock.interpretGet locate lock)
  | create _ => .ofWrite (sent >>= LeaseLock.interpretCreate lock)
  | update _ => .ofWrite (sent >>= LeaseLock.interpretUpdate lock)

variable {locate : Json.Locator}

theorem interpret_error (lock : String) (e : LockError) (call : LockCall) :
    call.interpret locate lock (.error e) = .failed e := by
  cases call <;> rfl

theorem isSuccess_iff (status : Nat) (body : Bytes) :
    (⟨status, body⟩ : Response).isSuccess = true ↔ 200 ≤ status ∧ status < 300 := by
  unfold Response.isSuccess
  rw [Bool.and_eq_true, decide_eq_true_iff, decide_eq_true_iff]

theorem interpret_success (lock : String) (call : LockCall) {response : Response}
    (hsuccess : response.isSuccess = true) :
    call.interpret locate lock (.ok response) = call.success locate response.body := by
  cases call with
  | get =>
      change LockAnswer.ofGet (LeaseLock.interpretGet locate lock response) = _
      unfold LeaseLock.interpretGet success
      rw [if_pos hsuccess]
      dsimp only
      cases LeaderRecord.decode response.body <;> rfl
  | create record =>
      change LockAnswer.ofWrite (LeaseLock.interpretCreate lock response) = _
      unfold LeaseLock.interpretCreate
      rw [if_pos hsuccess]
      rfl
  | update record =>
      change LockAnswer.ofWrite (LeaseLock.interpretUpdate lock response) = _
      unfold LeaseLock.interpretUpdate
      rw [if_pos hsuccess]
      rfl

theorem interpret_refusal (lock : String) (call : LockCall) {response : Response}
    (hrefused : ¬ response.isSuccess = true) :
    call.interpret locate lock (.ok response) =
      if response.status = 404 ∧ call.canMiss then .failed (.notFound lock)
      else if response.status = 409 ∧ call.canClash then .failed (.conflict lock)
      else .failed (LeaseLock.unexpected response) := by
  cases call with
  | get =>
      have hcannot : ¬ (response.status = 409 ∧ get.canClash = true) := fun h => nomatch h.2
      change LockAnswer.ofGet (LeaseLock.interpretGet locate lock response) = _
      unfold LeaseLock.interpretGet Response.notFound
      rw [if_neg hrefused, if_neg hcannot]
      by_cases hmissing : response.status = 404
      · rw [if_pos hmissing, if_pos ⟨hmissing, rfl⟩]
        rfl
      · rw [if_neg hmissing, if_neg fun h => hmissing h.1]
        rfl
  | create record =>
      have hcannot : ¬ (response.status = 404 ∧ (create record).canMiss = true) := fun h => nomatch h.2
      change LockAnswer.ofWrite (LeaseLock.interpretCreate lock response) = _
      unfold LeaseLock.interpretCreate Response.conflict
      rw [if_neg hrefused, if_neg hcannot]
      by_cases hclash : response.status = 409
      · rw [if_pos hclash, if_pos ⟨hclash, rfl⟩]
        rfl
      · rw [if_neg hclash, if_neg fun h => hclash h.1]
        rfl
  | update record =>
      change LockAnswer.ofWrite (LeaseLock.interpretUpdate lock response) = _
      unfold LeaseLock.interpretUpdate Response.notFound Response.conflict
      rw [if_neg hrefused]
      by_cases hmissing : response.status = 404
      · rw [if_pos hmissing, if_pos ⟨hmissing, rfl⟩]
        rfl
      · have hfound : ¬ (response.status = 404 ∧ (update record).canMiss = true) := fun h => hmissing h.1
        rw [if_neg hmissing, if_neg hfound]
        by_cases hclash : response.status = 409
        · rw [if_pos hclash, if_pos ⟨hclash, rfl⟩]
          rfl
        · rw [if_neg hclash, if_neg fun h => hclash h.1]
          rfl

theorem interpret_eq_verdict (n : LeaseName) (call : LockCall) (outcome : Except TransportError Response) :
    call.interpret locate n.describe (outcome.mapError fun e => .transport e.toFault) =
      call.verdict locate n outcome := by
  cases outcome with
  | error e => exact interpret_error n.describe _ call
  | ok response =>
      obtain ⟨status, body⟩ := response
      change call.interpret locate n.describe (.ok ⟨status, body⟩) = _
      unfold verdict
      dsimp only
      by_cases hstatus : 200 ≤ status ∧ status < 300
      · rw [if_pos hstatus, interpret_success _ call ((isSuccess_iff status body).mpr hstatus)]
      · rw [if_neg hstatus, interpret_refusal _ call fun h => hstatus ((isSuccess_iff status body).mp h)]
        rfl

theorem perform_apply {σ : Type} (l : LeaseLock σ) (call : LockCall) (s : σ) :
    let n : LeaseName := ⟨l.namespaceName, l.name⟩
    let sent := l.send call.method (call.path n) call.body s
    (call.perform l s).value = call.interpret l.locate n.describe sent.value ∧
      (call.perform l s).world = sent.world := by
  have hoperation : ∀ {α : Type} (interpret : Response → Except LockError α) (method : Method) (path : String)
      (body : Bytes), let sent := l.send method path body s
      let ended := Act.reportingFailure LockError.message (do return (← l.send method path body) >>= interpret) s
      ended.value = sent.value >>= interpret ∧ ended.world = sent.world := by
    intro α interpret method path body
    dsimp only
    rw [Act.reportingFailure_apply]
    exact ⟨rfl, rfl⟩
  cases call with
  | get =>
      obtain ⟨hvalue, hworld⟩ := hoperation (LeaseLock.interpretGet l.locate l.describe) .get l.resourcePath []
      exact ⟨(perform_get l s).1.trans (congrArg LockAnswer.ofGet hvalue), (perform_get l s).2.trans hworld⟩
  | create record =>
      obtain ⟨hvalue, hworld⟩ := hoperation (LeaseLock.interpretCreate l.describe) .post l.collectionPath record.encode
      exact ⟨(perform_create l record s).1.trans (congrArg LockAnswer.ofWrite hvalue),
        (perform_create l record s).2.trans hworld⟩
  | update record =>
      obtain ⟨hvalue, hworld⟩ := hoperation (LeaseLock.interpretUpdate l.describe) .put l.resourcePath record.encode
      exact ⟨(perform_update l record s).1.trans (congrArg LockAnswer.ofWrite hvalue),
        (perform_update l record s).2.trans hworld⟩

end LockCall

theorem LeaseLock.send_of_address {σ : Type} {l : LeaseLock σ} {method : Method} {path : String} {body : Bytes}
    {request : Request} (haddress : Request.address method path body = .ok request) (s : σ) :
    (l.send method path body s).value = (l.client request s).value.mapError (fun e => .transport e.toFault) ∧
      (l.send method path body s).world = (l.client request s).world := by
  unfold send
  rw [haddress]
  dsimp only
  rw [Act.bind_apply]
  cases (l.client request s).value <;> exact ⟨rfl, rfl⟩

theorem LeaseLock.send_of_unaddressed {σ : Type} {l : LeaseLock σ} {method : Method} {path : String} {body : Bytes}
    {e : TargetError} (haddress : Request.address method path body = .error e) (s : σ) :
    l.send method path body s = ⟨.error (.transport ⟨e.message, []⟩), s, []⟩ := by
  unfold send
  rw [haddress]
  rfl

def LeaseLock.key {σ : Type} (l : LeaseLock σ) : LeaseName := ⟨l.namespaceName, l.name⟩

namespace LockCall

variable {σ : Type} {l : LeaseLock σ} {call : LockCall}

theorem perform_addressed {target : Target} (htarget : Target.parse (call.path l.key) = .ok target) (s : σ) :
    let outcome := l.client ⟨call.method, target, call.body⟩ s
    (call.perform l s).world = outcome.world ∧
      (call.perform l s).value = call.verdict l.locate l.key outcome.value := by
  obtain ⟨hvalue, hworld⟩ := perform_apply l call s
  obtain ⟨hsent, hsentWorld⟩ := LeaseLock.send_of_address (Request.address_of_ok htarget call.method call.body) s
  refine ⟨hworld.trans hsentWorld, hvalue.trans ?_⟩
  exact (congrArg (call.interpret _ _) hsent).trans (interpret_eq_verdict l.key call _)

theorem perform_unaddressed {e : TargetError} (htarget : Target.parse (call.path l.key) = .error e) (s : σ) :
    (call.perform l s).world = s ∧ (call.perform l s).value = .failed (.transport ⟨e.message, []⟩) := by
  have haddress := Request.address_of_error htarget call.method call.body
  obtain ⟨hvalue, hworld⟩ := perform_apply l call s
  rw [← LeaseLock.key, LeaseLock.send_of_unaddressed haddress] at hvalue hworld
  exact ⟨hworld, hvalue.trans (interpret_error _ _ call)⟩

end LockCall

/-- A lock whose client is spied on under its number. -/
structure LeaseLock.SpiedOn (n : LeaseName) (client : Transport ω) (l : LeaseLock (Spied ω)) : Prop where
  namespaceName : l.namespaceName = n.namespaceName
  name : l.name = n.name
  client : ∃ clock flags, l.client = Transport.logged clock flags (Spied.transport 1 client)

theorem LeaseLock.SpiedOn.key_eq {n : LeaseName} {client : Transport ω} {l : LeaseLock (Spied ω)}
    (hl : l.SpiedOn n client) : l.key = n := by
  rw [LeaseLock.key, hl.namespaceName, hl.name]

namespace LockCall

/-- What is sent for a call: its request, or nothing if that has no target. -/
def requests (n : LeaseName) (call : LockCall) : List Request :=
  match Target.parse (call.path n) with
  | .ok _ => [call.request n]
  | .error _ => []

variable {n : LeaseName} {client : Transport ω} {l : LeaseLock (Spied ω)} {call : LockCall}

theorem perform_of_target (hl : l.SpiedOn n client) (hplain : n.IsPlain) {target : Target}
    (htarget : Target.parse (call.path n) = .ok target) (s : Spied ω) :
    let outcome := client (call.request n) s.world
    (call.perform l s).world = ⟨outcome.world, s.calls ++ [.request 1 (call.request n)]⟩ ∧
      (call.perform l s).value = call.verdict l.locate n outcome.value := by
  obtain rfl := hplain.target_eq htarget
  obtain ⟨clock, flags, hclient⟩ := hl.client
  rw [← hl.key_eq] at htarget ⊢
  obtain ⟨hworld, hvalue⟩ := perform_addressed htarget s
  rw [hclient, Transport.logged_world] at hworld
  rw [hclient, Transport.logged_value] at hvalue
  exact ⟨hworld, hvalue⟩

theorem perform_of_no_target (hl : l.SpiedOn n client) {e : TargetError}
    (htarget : Target.parse (call.path n) = .error e) (s : Spied ω) :
    (call.perform l s).world = s ∧ (call.perform l s).value = .failed (.transport ⟨e.message, []⟩) := by
  rw [← hl.key_eq] at htarget
  exact perform_unaddressed htarget s

theorem perform_calls (hl : l.SpiedOn n client) (hplain : n.IsPlain) (s : Spied ω) :
    (call.perform l s).world.calls = s.calls ++ (call.requests n).map (.request 1) := by
  unfold requests
  cases htarget : Target.parse (call.path n) with
  | ok target =>
      rw [(perform_of_target hl hplain htarget s).1]
      rfl
  | error e =>
      rw [(perform_of_no_target hl htarget s).1]
      exact (List.append_nil _).symm

end LockCall

/-! ### A run -/

def traffic (connection : Nat) (calls : List BuilderCall) : List Request :=
  calls.filterMap fun
    | .request number request => if number = connection then some request else none
    | _ => none

theorem traffic_append (connection : Nat) (calls more : List BuilderCall) :
    traffic connection (calls ++ more) = traffic connection calls ++ traffic connection more := List.filterMap_append

theorem traffic_of_ne {connection : Nat} {c : BuilderCall} (hc : ∀ request, c ≠ .request connection request) :
    traffic connection [c] = [] := by
  cases c with
  | request number request =>
      have hnumber : number ≠ connection := fun heq => hc request (congrArg (BuilderCall.request · request) heq)
      exact List.filterMap_cons_none (if_neg hnumber)
  | connect | hostname | draw | terminate | startedLeading | newLeader => rfl

theorem traffic_append_of_ne {connection : Nat} {c : BuilderCall} (hc : ∀ request, c ≠ .request connection request)
    (calls : List BuilderCall) : traffic connection (calls ++ [c]) = traffic connection calls := by
  rw [traffic_append, traffic_of_ne hc, List.append_nil]

theorem traffic_append_request (connection : Nat) (request : Request) (calls : List BuilderCall) :
    traffic connection (calls ++ [.request connection request]) = traffic connection calls ++ [request] := by
  have hself : traffic connection [.request connection request] = [request] := List.filterMap_cons_some (if_pos rfl)
  rw [traffic_append, hself]

def lockTraffic (calls : List BuilderCall) : List Request :=
  calls.filterMap fun
    | .request 1 request => some request
    | _ => none

theorem lockTraffic_eq (calls : List BuilderCall) : lockTraffic calls = traffic 1 calls := by
  unfold lockTraffic traffic
  congr 1
  funext c
  split
  next request => exact (if_pos rfl).symm
  next hne =>
    split
    next number request =>
      have hnumber : number ≠ 1 := fun heq => hne request (congrArg (BuilderCall.request · request) heq)
      exact (if_neg hnumber).symm
    next => rfl

theorem lockTraffic_requests (requests : List Request) : lockTraffic (requests.map (.request 1)) = requests := by
  unfold lockTraffic
  rw [List.filterMap_map]
  exact List.filterMap_some

def ElectionUse.lockCall? : ElectionUse → Option LockCall
  | lock call => some call
  | _ => none

theorem ElectionUse.not_mayCall_lock {use : ElectionUse} (huse : use.lockCall? = none) (request : Request) :
    ¬ use.MayCall (.request 1 request) := by
  intro hmay
  cases use with
  | lock call => cases huse
  | recordEvent => exact nomatch hmay
  | startedLeading | newLeader | stoppedLeading | intoParts => cases hmay

namespace InUse

variable {n : LeaseName} {client : Transport ω} {config : ElectionConfig (Spied ω)} {u : InUse (Spied ω)}

theorem step_keeps_traffic (hspied : config.SpiedOn) (hholds : Holds config u) {use : ElectionUse} {connection : Nat}
    (huse : ∀ request, ¬ use.MayCall (.request connection request)) :
    traffic connection (u.step use).guarded.world.calls = traffic connection u.guarded.world.calls := by
  apply step_keeps hspied hholds use
  intro c hc
  apply traffic_append_of_ne
  rintro request rfl
  exact huse request hc

theorem run_keeps_traffic (hspied : config.SpiedOn) (hholds : Holds config u) {uses : List ElectionUse}
    {connection : Nat} (huses : ∀ use ∈ uses, ∀ request, ¬ use.MayCall (.request connection request)) :
    traffic connection (u.run uses).guarded.world.calls = traffic connection u.guarded.world.calls := by
  induction uses generalizing u with
  | nil => rfl
  | cons use uses ih =>
      have hstep := step_keeps_traffic hspied hholds (huses use List.mem_cons_self)
      exact (ih (hholds.step use) fun later hlater => huses later (List.mem_cons_of_mem use hlater)).trans hstep

theorem step_lockTraffic (hspied : config.SpiedOn) (hlock : config.lock.SpiedOn n client) (hplain : n.IsPlain)
    (hholds : Holds config u) (use : ElectionUse) :
    lockTraffic (u.step use).guarded.world.calls =
      lockTraffic u.guarded.world.calls ++ use.lockCall?.toList.flatMap (·.requests n) := by
  by_cases huse : ∃ call, use = .lock call
  · obtain ⟨call, rfl⟩ := huse
    change lockTraffic (call.perform u.lock u.guarded.world).world.calls = _ ++ [call].flatMap _
    rw [hholds.lock_eq, LockCall.perform_calls hlock hplain, List.flatMap_singleton]
    unfold lockTraffic
    rw [List.filterMap_append]
    exact congrArg _ (lockTraffic_requests _)
  · have hnone : use.lockCall? = none := by
      cases use with
      | lock call => exact absurd ⟨call, rfl⟩ huse
      | recordEvent | startedLeading | newLeader | stoppedLeading | intoParts => rfl
    rw [hnone]
    change _ = _ ++ []
    rw [List.append_nil]
    rw [lockTraffic_eq, lockTraffic_eq]
    exact step_keeps_traffic hspied hholds (ElectionUse.not_mayCall_lock hnone)

theorem run_lockTraffic (hspied : config.SpiedOn) (hlock : config.lock.SpiedOn n client) (hplain : n.IsPlain)
    (hholds : Holds config u) (uses : List ElectionUse) :
    lockTraffic (u.run uses).guarded.world.calls =
      lockTraffic u.guarded.world.calls ++ (uses.filterMap ElectionUse.lockCall?).flatMap (·.requests n) := by
  induction uses generalizing u with
  | nil => exact (List.append_nil _).symm
  | cons use uses ih =>
      have hstep := step_lockTraffic hspied hlock hplain hholds use
      have hrest := ih (hholds.step use)
      change lockTraffic ((u.step use).run uses).guarded.world.calls = _
      rw [hrest, hstep, List.append_assoc, ← List.flatMap_append]
      cases hcall : use.lockCall? with
      | none => rw [List.filterMap_cons_none hcall, Option.toList_none, List.nil_append]
      | some call => rw [List.filterMap_cons_some hcall, Option.toList_some, List.singleton_append]

end InUse

theorem traffic_callsOf (connection : Nat) (b : ConfigBuilder ω) (w : ω) : traffic connection (b.callsOf w) = [] := by
  have hconnects : ∀ n, traffic connection (List.replicate n .connect) = [] :=
    fun n => List.filterMap_replicate_of_none rfl
  unfold ConfigBuilder.callsOf
  cases (b.build w).value with
  | error e => exact hconnects _
  | ok config =>
      dsimp only
      rw [traffic_append, hconnects, List.nil_append, identityCalls]
      split <;> rfl

theorem ConfigBuilder.lock_spiedOn {b : ConfigBuilder ω} {w : ω} {config : ElectionConfig (Spied ω)}
    (hbuild : (b.spied.build ⟨w, []⟩).value = .ok config) :
    ∃ client, (b.connect (b.connect w).world).value = .ok client ∧
      config.lock.SpiedOn ⟨b.spec.namespaceName, b.spec.name⟩ client ∧ config.lock.locate = b.locate := by
  obtain ⟨events, client, identity, -, hclient, rfl⟩ := spied_config hbuild
  exact ⟨client, hclient, ⟨rfl, rfl, _, _, rfl⟩, rfl⟩

/-- **One request, one outcome.** In whatever state a config is used, an operation on its lock sends one request on the
second connection and comes to what the table says of the outcome, or there is no way to address it and nothing is sent.
So all that a run has sent on this connection are the requests of its operations, one for each. The body of a request
holds the record as it is written, which is the record itself if it is proper. -/
theorem lock_operation_is_one_request {b : ConfigBuilder ω} {w : ω} {config : ElectionConfig (Spied ω)}
    (hbuild : (b.spied.build ⟨w, []⟩).value = .ok config)
    (hplain : LeaseName.IsPlain ⟨b.spec.namespaceName, b.spec.name⟩) (uses : List ElectionUse) :
    let n : LeaseName := ⟨b.spec.namespaceName, b.spec.name⟩
    let used := (InUse.fresh config (b.spied.build ⟨w, []⟩).world).run uses
    (∃ client, (b.connect (b.connect w).world).value = .ok client ∧ ∀ (call : LockCall) (before : Spied ω),
      let ended := call.perform used.lock before
      match Target.parse (call.path n) with
      | .ok _ =>
          let outcome := client (call.request n) before.world
          ended.world = ⟨outcome.world, before.calls ++ [.request 1 (call.request n)]⟩ ∧
            ended.value = call.verdict b.locate n outcome.value
      | .error e => ended.world = before ∧ ended.value = .failed (.transport ⟨e.message, []⟩)) ∧
    (∀ (call : LockCall) (record : LeaderRecord), call.record? = some record →
      LeaderRecord.decode (call.request n).body = .ok record.asWritten ∧
        (record.asWritten = record ↔ record.IsProper)) ∧
    lockTraffic used.guarded.world.calls = (uses.filterMap ElectionUse.lockCall?).flatMap (·.requests n) := by
  intro n used
  have hspied := ConfigBuilder.spiedOn_of_build hbuild
  have hstart : InUse.Holds config (InUse.fresh config (b.spied.build ⟨w, []⟩).world) := .inl rfl
  obtain ⟨client, hclient, hlock, hlocate⟩ := ConfigBuilder.lock_spiedOn hbuild
  refine ⟨⟨client, hclient, ?_⟩, fun call record hrecord => ?_, ?_⟩
  · intro call before ended
    have hended : ended = call.perform config.lock before := congrArg (call.perform · before) (hstart.run uses).lock_eq
    rw [hended, ← hlocate]
    cases htarget : Target.parse (call.path n) with
    | ok target => exact LockCall.perform_of_target hlock hplain htarget before
    | error e => exact LockCall.perform_of_no_target hlock htarget before
  · exact ⟨LockCall.decode_body hrecord, LeaderRecord.asWritten_eq_self_iff⟩
  · have hnone : lockTraffic (b.spied.build ⟨w, []⟩).world.calls = [] := by
      rw [(ConfigBuilder.spied_build b w).1]
      exact (lockTraffic_eq _).trans (traffic_callsOf 1 b w)
    rw [InUse.run_lockTraffic hspied hlock hplain hstart uses]
    change lockTraffic (b.spied.build ⟨w, []⟩).world.calls ++ _ = _
    rw [hnone, List.nil_append]

theorem lock_operation_is_one_request_in_program :
    LeaseName.IsPlain ⟨"team-a", "controller-lock"⟩ ∧
    ∃ config, (Program.builder.spied.build ⟨.fresh, []⟩).value = .ok config ∧
      let used := (InUse.fresh config (Program.builder.spied.build ⟨.fresh, []⟩).world).run
        [.lock .get, .recordEvent "became leader", .intoParts]
      (LockCall.perform used.lock (.create oldRecord) used.guarded.world).value = .written ∧
        lockTraffic used.guarded.world.calls = [LockCall.get.request ⟨"team-a", "controller-lock"⟩] := by
  have hplain : LeaseName.IsPlain ⟨"team-a", "controller-lock"⟩ := ⟨by decide, by decide⟩
  obtain ⟨config, hbuild⟩ := Program.builder_spied_build
  refine ⟨hplain, config, hbuild, ?_⟩
  obtain ⟨⟨client, hclient, hoperation⟩, -, htraffic⟩ := lock_operation_is_one_request hbuild hplain
    [.lock .get, .recordEvent "became leader", .intoParts]
  obtain rfl := Except.ok.inj hclient
  exact ⟨(hoperation (.create oldRecord) _).2, htraffic⟩

/-- The body of what is sent for a record is read as the next. -/
theorem leap_record_is_sent_as_next :
    let request := (LockCall.create leapRecord).request ⟨"team-a", "controller-lock"⟩
    (∃ config, (Program.builder.spied.build ⟨.fresh, []⟩).value = .ok config ∧ ∀ before,
      ((LockCall.create leapRecord).perform config.lock before).world.calls = before.calls ++ [.request 1 request]) ∧
      LeaderRecord.decode request.body = .ok nextRecord ∧ nextRecord ≠ leapRecord := by
  intro request
  have hplain : LeaseName.IsPlain ⟨"team-a", "controller-lock"⟩ := ⟨by decide, by decide⟩
  obtain ⟨config, hbuild⟩ := Program.builder_spied_build
  obtain ⟨client, -, hlock, -⟩ := ConfigBuilder.lock_spiedOn hbuild
  refine ⟨⟨config, hbuild, LockCall.perform_calls hlock hplain⟩, ?_, nextRecord_ne⟩
  exact LeaderRecord.decode_encode leapRecord

end LeaderLease
