import LeaderLease.Lock.Lease
import LeaderLease.Proofs.Leader.RoundTrip
import LeaderLease.Proofs.Request.Target
import LeaderLease.Proofs.Transport.Logged

/-!
# A lock is a register of records

A backend keeps at most one body for a lock and answers as its protocol allows. Contenders for the lock, whether their
traffic is logged or not, then get the answers of a register that holds at most one record. The bodies that the backend
keeps are encoded records throughout, which carries the simulation: what one contender has written is what every other
contender reads, as it is written there.
-/

namespace LeaderLease

variable {ι σ : Type}

structure LeaseName where
  namespaceName : String
  name : String

namespace LeaseName

def collectionPath (n : LeaseName) : String := "/namespaces/" ++ n.namespaceName ++ "/leases"

def resourcePath (n : LeaseName) : String := n.collectionPath ++ "/" ++ n.name

def describe (n : LeaseName) : String := n.namespaceName ++ "/" ++ n.name

theorem inNamespace_eq (namespaceName rest : String) :
    "/namespaces/" ++ namespaceName ++ rest =
      .ofList ('/' :: ("namespaces/".toList ++ namespaceName.toList ++ rest.toList)) := by
  apply String.toList_injective
  rw [String.toList_ofList, String.toList_append, String.toList_append]
  rfl

theorem collectionPath_eq (n : LeaseName) :
    n.collectionPath = .ofList ('/' :: "namespaces/".toList ++ n.namespaceName.toList ++ "/leases".toList) :=
  inNamespace_eq n.namespaceName "/leases"

theorem resourcePath_eq (n : LeaseName) :
    n.resourcePath = .ofList (('/' :: "namespaces/".toList ++ n.namespaceName.toList ++ "/leases".toList) ++
      ('/' :: n.name.toList)) := by
  apply String.toList_injective
  rw [String.toList_ofList, resourcePath, collectionPath_eq, String.toList_append, String.toList_append,
    String.toList_ofList, List.append_assoc]
  rfl

theorem collection_isTarget {n : LeaseName} (htarget : ∃ target, Target.parse n.resourcePath = .ok target) :
    ∃ target, Target.parse n.collectionPath = .ok target := by
  obtain ⟨target, htarget⟩ := htarget
  rw [resourcePath_eq] at htarget
  rw [collectionPath_eq]
  exact Target.parse_front htarget

end LeaseName

theorem Request.address_of_ok {path : String} {target : Target} (htarget : Target.parse path = .ok target)
    (method : Method) (body : Bytes) : Request.address method path body = .ok ⟨method, target, body⟩ := by
  rw [Request.address, htarget]
  rfl

theorem Request.address_of_error {path : String} {e : TargetError} (htarget : Target.parse path = .error e)
    (method : Method) (body : Bytes) : Request.address method path body = .error e := by
  rw [Request.address, htarget]
  rfl

theorem Request.address_of_target {path : String} (htarget : ∃ target, Target.parse path = .ok target)
    (method : Method) (body : Bytes) : ∃ request, Request.address method path body = .ok request := by
  obtain ⟨target, htarget⟩ := htarget
  exact ⟨_, address_of_ok htarget method body⟩

/-! The answers that a backend may give while it keeps some body for the lock, and what it keeps afterwards. What it
remarks beside a status is its own business, and it may refuse to replace what it keeps. -/

inductive ReadAnswer : Option Bytes → Response → Option Bytes → Prop
  | found (body : Bytes) : ReadAnswer (some body) ⟨200, body⟩ (some body)
  | missing (remark : Bytes) : ReadAnswer none ⟨404, remark⟩ none

inductive CreateAnswer (body : Bytes) : Option Bytes → Response → Option Bytes → Prop
  | created (remark : Bytes) : CreateAnswer body none ⟨201, remark⟩ (some body)
  | occupied (old remark : Bytes) : CreateAnswer body (some old) ⟨409, remark⟩ (some old)

inductive ReplaceAnswer (body : Bytes) : Option Bytes → Response → Option Bytes → Prop
  | replaced (old remark : Bytes) : ReplaceAnswer body (some old) ⟨200, remark⟩ (some body)
  | refused (old remark : Bytes) : ReplaceAnswer body (some old) ⟨409, remark⟩ (some old)
  | missing (remark : Bytes) : ReplaceAnswer body none ⟨404, remark⟩ none

/-- A backend that keeps at most one body for a lock and answers every request for it accordingly. -/
structure KeepsLease (n : LeaseName) (backend : Transport σ) (kept : σ → Option Bytes) : Prop where
  read : ∀ request w, Request.address .get n.resourcePath [] = .ok request →
    ∃ response, (backend request w).value = .ok response ∧
      ReadAnswer (kept w) response (kept (backend request w).world)
  create : ∀ body request w, Request.address .post n.collectionPath body = .ok request →
    ∃ response, (backend request w).value = .ok response ∧
      CreateAnswer body (kept w) response (kept (backend request w).world)
  replace : ∀ body request w, Request.address .put n.resourcePath body = .ok request →
    ∃ response, (backend request w).value = .ok response ∧
      ReplaceAnswer body (kept w) response (kept (backend request w).world)

/-- A way to the backend on which at most the traffic is logged. -/
inductive Reaches (backend : Transport σ) : Transport σ → Prop
  | direct : Reaches backend backend
  | logged (clock : Clock σ) (flags : DebugFlags) {client : Transport σ} (inner : Reaches backend client) :
      Reaches backend (Transport.logged clock flags client)

theorem Reaches.sameAnswer {backend client : Transport σ} (hreaches : Reaches backend client) (request : Request)
    (w : σ) : (client request w).value = (backend request w).value ∧
      (client request w).world = (backend request w).world := by
  induction hreaches with
  | direct => exact ⟨rfl, rfl⟩
  | logged clock flags inner ih =>
      rw [Transport.logged_value, Transport.logged_world]
      exact ih

/-- A handle on the lock that is in touch with the backend. -/
structure Contends (n : LeaseName) (backend : Transport σ) (l : LeaseLock σ) : Prop where
  namespaceName : l.namespaceName = n.namespaceName
  name : l.name = n.name
  client : Reaches backend l.client

namespace Contends

variable {n : LeaseName} {backend : Transport σ} {l : LeaseLock σ}

theorem collectionPath (h : Contends n backend l) : l.collectionPath = n.collectionPath := by
  rw [LeaseLock.collectionPath, h.namespaceName, LeaseName.collectionPath]

theorem resourcePath (h : Contends n backend l) : l.resourcePath = n.resourcePath := by
  rw [LeaseLock.resourcePath, h.collectionPath, h.name, LeaseName.resourcePath]

theorem describe (h : Contends n backend l) : l.describe = n.describe := by
  rw [LeaseLock.describe, h.namespaceName, h.name, LeaseName.describe]

end Contends

/-- An operation is one request to the backend and a reading of its answer, whatever is logged on the way. -/
theorem Contends.operation_ended {α : Type} {n : LeaseName} {backend : Transport σ} {l : LeaseLock σ}
    (hcontends : Contends n backend l) {method : Method} {path : String} {body : Bytes} {request : Request}
    {response : Response} {w : σ} (interpret : Response → Except LockError α)
    (haddress : Request.address method path body = .ok request) (hresponse : (backend request w).value = .ok response) :
    ∃ log, Act.reportingFailure LockError.message (do return (← l.send method path body) >>= interpret) w =
      ⟨interpret response, (backend request w).world, log⟩ := by
  obtain ⟨hvalue, hworld⟩ := hcontends.client.sameAnswer request w
  have hsend : ∃ log, l.send method path body w = ⟨.ok response, (backend request w).world, log⟩ := by
    unfold LeaseLock.send
    rw [haddress]
    dsimp only
    rw [Act.bind_apply, hvalue, hresponse, ← hworld]
    exact ⟨_, rfl⟩
  obtain ⟨log, hsend⟩ := hsend
  rw [Act.reportingFailure_apply, Act.bind_apply, hsend]
  exact ⟨_, rfl⟩

/-! ### The register -/

inductive LockCall where
  | get
  | create (record : LeaderRecord)
  | update (record : LeaderRecord)
  deriving DecidableEq

inductive LockAnswer where
  | read (record : LeaderRecord)
  | written
  | failed (e : LockError)
  deriving DecidableEq

namespace LockAnswer

def ofGet : Except LockError LeaderRecord → LockAnswer
  | .ok record => read record
  | .error e => failed e

def ofWrite : Except LockError Unit → LockAnswer
  | .ok () => written
  | .error e => failed e

def record? : LockAnswer → Option LeaderRecord
  | read record => some record
  | written | failed _ => none

/-- The same answer with the record as it is written. -/
def asWritten : LockAnswer → LockAnswer
  | read record => read record.asWritten
  | written => written
  | failed e => failed e

end LockAnswer

namespace LockCall

def record? : LockCall → Option LeaderRecord
  | get => none
  | create record | update record => some record

def perform (l : LeaseLock σ) : LockCall → Act σ LockAnswer
  | get => do return .ofGet (← l.get)
  | create record => do return .ofWrite (← l.create record)
  | update record => do return .ofWrite (← l.update record)

theorem perform_get (l : LeaseLock σ) (w : σ) :
    (get.perform l w).value = .ofGet (l.get w).value ∧ (get.perform l w).world = (l.get w).world := by
  simp only [perform, Act.bind_apply, Act.pure_apply, and_self]

theorem perform_create (l : LeaseLock σ) (record : LeaderRecord) (w : σ) :
    ((create record).perform l w).value = .ofWrite (l.create record w).value ∧
      ((create record).perform l w).world = (l.create record w).world := by
  simp only [perform, Act.bind_apply, Act.pure_apply, and_self]

theorem perform_update (l : LeaseLock σ) (record : LeaderRecord) (w : σ) :
    ((update record).perform l w).value = .ofWrite (l.update record w).value ∧
      ((update record).perform l w).world = (l.update record w).world := by
  simp only [perform, Act.bind_apply, Act.pure_apply, and_self]

def run (handle : ι → LeaseLock σ) : List (ι × LockCall) → Act σ (List LockAnswer)
  | [] => return []
  | (i, call) :: calls => do
    let answer ← call.perform (handle i)
    return answer :: (← run handle calls)

theorem run_cons (handle : ι → LeaseLock σ) (i : ι) (call : LockCall) (calls : List (ι × LockCall)) (w : σ) :
    (run handle ((i, call) :: calls) w).value =
        (call.perform (handle i) w).value :: (run handle calls (call.perform (handle i) w).world).value ∧
      (run handle ((i, call) :: calls) w).world = (run handle calls (call.perform (handle i) w).world).world :=
  ⟨rfl, rfl⟩

end LockCall

/-! A register holds at most one record. -/

namespace Register

/-- What a call is answered, and what is held afterwards. Only a replacement can be refused. -/
def perform (lock : String) (refused : Bool) : LockCall → Option LeaderRecord → LockAnswer × Option LeaderRecord
  | .get, some held => (.read held, some held)
  | .get, none => (.failed (.notFound lock), none)
  | .create record, none => (.written, some record)
  | .create _, some held => (.failed (.conflict lock), some held)
  | .update _, none => (.failed (.notFound lock), none)
  | .update record, some held => if refused then (.failed (.conflict lock), some held) else (.written, some record)

/-- The answers to some calls and what is held in the end. The choice whether to refuse is made for each call anew. -/
def run (lock : String) : (Nat → Bool) → List LockCall → Option LeaderRecord → List LockAnswer × Option LeaderRecord
  | _, [], held => ([], held)
  | refuses, call :: calls, held =>
      let first := perform lock (refuses 0) call held
      let rest := run lock (fun k => refuses (k + 1)) calls first.2
      (first.1 :: rest.1, rest.2)

/-- What has been written last, going by the answers. -/
def lastWritten : Option LeaderRecord → List (LockCall × LockAnswer) → Option LeaderRecord
  | held, [] => held
  | _, (.create record, .written) :: history => lastWritten (some record) history
  | _, (.update record, .written) :: history => lastWritten (some record) history
  | held, _ :: history => lastWritten held history

def found (lock : String) : Option LeaderRecord → LockAnswer
  | some held => .read held
  | none => .failed (.notFound lock)

variable {lock : String}

theorem perform_get (refused : Bool) (held : Option LeaderRecord) :
    perform lock refused .get held = (found lock held, held) := by
  cases held <;> rfl

theorem lastWritten_cons (refused : Bool) (call : LockCall) (held : Option LeaderRecord)
    (history : List (LockCall × LockAnswer)) :
    lastWritten held ((call, (perform lock refused call held).1) :: history) =
      lastWritten (perform lock refused call held).2 history := by
  cases call with
  | get => cases held <;> rfl
  | create record => cases held <;> rfl
  | update record =>
      cases held with
      | none => rfl
      | some held => cases refused <;> rfl

theorem run_held (refuses : Nat → Bool) (calls : List LockCall) (held : Option LeaderRecord) :
    (run lock refuses calls held).2 = lastWritten held (calls.zip (run lock refuses calls held).1) := by
  induction calls generalizing refuses held with
  | nil => rfl
  | cons call calls ih =>
      change (run lock _ calls _).2 = lastWritten held ((call, _) :: calls.zip _)
      rw [lastWritten_cons, ← ih]

theorem run_get (refuses : Nat → Bool) (calls : List LockCall) (held : Option LeaderRecord) (k : Nat)
    (hget : calls[k]? = some .get) :
    (run lock refuses calls held).1[k]? =
      some (found lock (lastWritten held ((calls.take k).zip (run lock refuses calls held).1))) := by
  induction calls generalizing refuses held k with
  | nil => cases hget
  | cons call calls ih =>
      cases k with
      | zero =>
          rw [List.getElem?_cons_zero] at hget
          obtain rfl := Option.some.inj hget
          change some (perform lock (refuses 0) .get held).1 = _
          rw [perform_get]
          rfl
      | succ k =>
          rw [List.getElem?_cons_succ] at hget
          change (run lock _ calls _).1[k]? = some (found lock (lastWritten held ((call, _) :: (calls.take k).zip _)))
          rw [lastWritten_cons, ih _ _ k hget]

theorem lastWritten_asWritten (calls : List LockCall) (answers : List LockAnswer) (held : Option LeaderRecord) :
    lastWritten held (calls.zip (answers.map LockAnswer.asWritten)) = lastWritten held (calls.zip answers) := by
  induction calls generalizing answers held with
  | nil => rfl
  | cons call calls ih =>
      cases answers with
      | nil => rfl
      | cons answer answers => cases call <;> cases answer <;> exact ih answers _

theorem perform_isProper (lock : String) (refused : Bool) {call : LockCall} {held : Option LeaderRecord}
    (hheld : ∀ record ∈ held, record.IsProper) (hcall : ∀ record ∈ call.record?, record.IsProper) :
    (perform lock refused call held).1.asWritten = (perform lock refused call held).1 ∧
      ∀ record ∈ (perform lock refused call held).2, record.IsProper := by
  cases call with
  | get =>
      cases held with
      | none => exact ⟨rfl, hheld⟩
      | some old => exact ⟨congrArg LockAnswer.read (hheld old rfl).asWritten_eq, hheld⟩
  | create record =>
      cases held with
      | none => exact ⟨rfl, hcall⟩
      | some old => exact ⟨rfl, hheld⟩
  | update record =>
      cases held with
      | none => exact ⟨rfl, hheld⟩
      | some old =>
          cases refused with
          | false => exact ⟨rfl, hcall⟩
          | true => exact ⟨rfl, hheld⟩

theorem run_isProper (refuses : Nat → Bool) {calls : List LockCall} {held : Option LeaderRecord}
    (hheld : ∀ record ∈ held, record.IsProper) (hcalls : ∀ call ∈ calls, ∀ record ∈ call.record?, record.IsProper) :
    (run lock refuses calls held).1.map LockAnswer.asWritten = (run lock refuses calls held).1 := by
  induction calls generalizing refuses held with
  | nil => rfl
  | cons call calls ih =>
      obtain ⟨hanswer, hnext⟩ := perform_isProper lock (refuses 0) hheld (hcalls call List.mem_cons_self)
      change (perform lock (refuses 0) call held).1.asWritten :: _ = _ :: _
      rw [hanswer]
      exact congrArg _ (ih _ hnext fun later hlater => hcalls later (List.mem_cons_of_mem call hlater))

end Register

theorem LeaseLock.interpretGet_encode (locate : Json.Locator) (lock : String) (record : LeaderRecord) :
    LeaseLock.interpretGet locate lock ⟨200, record.encode⟩ = .ok record.asWritten := by
  change (LeaderRecord.decode record.encode).mapError _ = _
  rw [LeaderRecord.decode_encode]
  rfl

variable {n : LeaseName} {backend : Transport σ} {kept : σ → Option Bytes} {l : LeaseLock σ} {w : σ}
  {held : Option LeaderRecord}

theorem LeaseLock.get_refines (htarget : ∃ target, Target.parse n.resourcePath = .ok target)
    (hkeeps : KeepsLease n backend kept) (hcontends : Contends n backend l)
    (hheld : kept w = held.map LeaderRecord.encode) :
    LockAnswer.ofGet (l.get w).value = (Register.found n.describe held).asWritten ∧
      kept (l.get w).world = held.map LeaderRecord.encode := by
  obtain ⟨request, haddress⟩ := Request.address_of_target htarget .get []
  obtain ⟨response, hresponse, hanswer⟩ := hkeeps.read request w haddress
  obtain ⟨log, hended⟩ := hcontends.operation_ended (interpretGet l.locate n.describe) haddress hresponse
  rw [get, hcontends.resourcePath, hcontends.describe, hended]
  rw [hheld] at hanswer
  generalize kept (backend request w).world = after at hanswer ⊢
  cases held with
  | none =>
      cases hanswer with
      | missing remark => exact ⟨rfl, rfl⟩
  | some record =>
      cases hanswer with
      | found =>
          refine ⟨?_, rfl⟩
          change LockAnswer.ofGet (interpretGet l.locate n.describe ⟨200, record.encode⟩) = .read record.asWritten
          rw [interpretGet_encode]
          rfl

theorem LeaseLock.create_refines (htarget : ∃ target, Target.parse n.resourcePath = .ok target)
    (hkeeps : KeepsLease n backend kept) (hcontends : Contends n backend l) (record : LeaderRecord)
    (refused : Bool) (hheld : kept w = held.map LeaderRecord.encode) :
    LockAnswer.ofWrite (l.create record w).value =
        (Register.perform n.describe refused (.create record) held).1.asWritten ∧
      kept (l.create record w).world =
        (Register.perform n.describe refused (.create record) held).2.map LeaderRecord.encode := by
  have hcollection := LeaseName.collection_isTarget htarget
  obtain ⟨request, haddress⟩ := Request.address_of_target hcollection .post record.encode
  obtain ⟨response, hresponse, hanswer⟩ := hkeeps.create record.encode request w haddress
  obtain ⟨log, hended⟩ := hcontends.operation_ended (interpretCreate n.describe) haddress hresponse
  rw [create, hcontends.collectionPath, hcontends.describe, hended]
  rw [hheld] at hanswer
  generalize kept (backend request w).world = after at hanswer ⊢
  cases held with
  | none =>
      cases hanswer with
      | created remark => exact ⟨rfl, rfl⟩
  | some old =>
      cases hanswer with
      | occupied _ remark => exact ⟨rfl, rfl⟩

theorem LeaseLock.update_refines (htarget : ∃ target, Target.parse n.resourcePath = .ok target)
    (hkeeps : KeepsLease n backend kept) (hcontends : Contends n backend l) (record : LeaderRecord)
    (hheld : kept w = held.map LeaderRecord.encode) :
    ∃ refused,
      LockAnswer.ofWrite (l.update record w).value =
          (Register.perform n.describe refused (.update record) held).1.asWritten ∧
        kept (l.update record w).world =
          (Register.perform n.describe refused (.update record) held).2.map LeaderRecord.encode := by
  obtain ⟨request, haddress⟩ := Request.address_of_target htarget .put record.encode
  obtain ⟨response, hresponse, hanswer⟩ := hkeeps.replace record.encode request w haddress
  obtain ⟨log, hended⟩ := hcontends.operation_ended (interpretUpdate n.describe) haddress hresponse
  rw [update, hcontends.resourcePath, hcontends.describe, hended]
  rw [hheld] at hanswer
  generalize kept (backend request w).world = after at hanswer ⊢
  cases held with
  | none =>
      cases hanswer with
      | missing remark => exact ⟨false, rfl, rfl⟩
  | some old =>
      cases hanswer with
      | replaced _ remark => exact ⟨false, rfl, rfl⟩
      | refused _ remark => exact ⟨true, rfl, rfl⟩

/-- Once the backend's choice is known, a call is answered as by the register, with the record as it is written, and the
backend keeps what the register holds. -/
theorem LockCall.perform_refines (htarget : ∃ target, Target.parse n.resourcePath = .ok target)
    (hkeeps : KeepsLease n backend kept) (hcontends : Contends n backend l) (call : LockCall)
    (hheld : kept w = held.map LeaderRecord.encode) :
    ∃ refused, (call.perform l w).value = (Register.perform n.describe refused call held).1.asWritten ∧
      kept (call.perform l w).world = (Register.perform n.describe refused call held).2.map LeaderRecord.encode := by
  cases call with
  | get =>
      refine ⟨false, ?_⟩
      rw [(perform_get l w).1, (perform_get l w).2, Register.perform_get]
      exact LeaseLock.get_refines htarget hkeeps hcontends hheld
  | create record =>
      refine ⟨false, ?_⟩
      rw [(perform_create l record w).1, (perform_create l record w).2]
      exact LeaseLock.create_refines htarget hkeeps hcontends record false hheld
  | update record =>
      rw [(perform_update l record w).1, (perform_update l record w).2]
      exact LeaseLock.update_refines htarget hkeeps hcontends record hheld

theorem LockCall.run_refines {handle : ι → LeaseLock σ}
    (htarget : ∃ target, Target.parse n.resourcePath = .ok target) (hkeeps : KeepsLease n backend kept)
    (hcontend : ∀ i, Contends n backend (handle i)) (calls : List (ι × LockCall))
    (hheld : kept w = held.map LeaderRecord.encode) :
    ∃ refuses, (run handle calls w).value =
        (Register.run n.describe refuses (calls.map Prod.snd) held).1.map LockAnswer.asWritten ∧
      kept (run handle calls w).world =
        (Register.run n.describe refuses (calls.map Prod.snd) held).2.map LeaderRecord.encode := by
  induction calls generalizing w held with
  | nil => exact ⟨fun _ => false, rfl, hheld⟩
  | cons first calls ih =>
      obtain ⟨i, call⟩ := first
      obtain ⟨refused, hanswer, hnext⟩ := perform_refines htarget hkeeps (hcontend i) call hheld
      obtain ⟨refuses, hanswers, hlast⟩ := ih hnext
      -- The choice for the first call goes before those for the rest.
      refine ⟨fun k => k.casesOn refused refuses, ?_, ?_⟩
      · rw [(run_cons handle i call calls w).1, hanswer, hanswers]
        rfl
      · rw [(run_cons handle i call calls w).2, hlast]
        rfl

/-! ### A backend that keeps its promise -/

/-- A body, and whether to refuse each of the replacements to come. -/
structure LeaseStore where
  stored : Option Bytes
  refusals : List Bool

namespace LeaseStore

/-- Answers requests for one lock by their methods alone, and remarks nothing. -/
def transport : Transport LeaseStore := fun request s =>
  match s.stored with
  | none =>
      if request.method = .post then ⟨.ok ⟨201, []⟩, { s with stored := some request.body }, []⟩
      else ⟨.ok ⟨404, []⟩, s, []⟩
  | some body =>
      if request.method = .get then ⟨.ok ⟨200, body⟩, s, []⟩
      else if request.method = .post then ⟨.ok ⟨409, []⟩, s, []⟩
      else if s.refusals.headD false then ⟨.ok ⟨409, []⟩, { s with refusals := s.refusals.tail }, []⟩
      else ⟨.ok ⟨200, []⟩, ⟨some request.body, s.refusals.tail⟩, []⟩

theorem address_eq {method : Method} {path : String} {body : Bytes} {request : Request}
    (haddress : Request.address method path body = .ok request) : request.method = method ∧ request.body = body := by
  unfold Request.address at haddress
  cases htarget : Target.parse path with
  | error e =>
      rw [htarget] at haddress
      cases haddress
  | ok target =>
      rw [htarget] at haddress
      obtain rfl := Except.ok.inj haddress
      exact ⟨rfl, rfl⟩

theorem keepsLease (n : LeaseName) : KeepsLease n transport stored where
  read request s haddress := by
    obtain ⟨method, target, body⟩ := request
    obtain ⟨rfl, rfl⟩ := address_eq haddress
    obtain ⟨stored, refusals⟩ := s
    cases stored with
    | none => exact ⟨⟨404, []⟩, rfl, .missing []⟩
    | some kept => exact ⟨⟨200, kept⟩, rfl, .found kept⟩
  create body request s haddress := by
    obtain ⟨method, target, body⟩ := request
    obtain ⟨rfl, rfl⟩ := address_eq haddress
    obtain ⟨stored, refusals⟩ := s
    cases stored with
    | none => exact ⟨⟨201, []⟩, rfl, .created []⟩
    | some kept => exact ⟨⟨409, []⟩, rfl, .occupied kept []⟩
  replace body request s haddress := by
    obtain ⟨method, target, body⟩ := request
    obtain ⟨rfl, rfl⟩ := address_eq haddress
    obtain ⟨stored, refusals⟩ := s
    cases stored with
    | none => exact ⟨⟨404, []⟩, rfl, .missing []⟩
    | some kept =>
        by_cases hrefused : refusals.headD false = true
        · refine ⟨⟨409, []⟩, ?_, ?_⟩
          · change (if refusals.headD false then _ else _ : Ended LeaseStore _).value = _
            rw [if_pos hrefused]
          · change ReplaceAnswer _ _ _ (if refusals.headD false then _ else _ : Ended LeaseStore _).world.stored
            rw [if_pos hrefused]
            exact .refused kept []
        · refine ⟨⟨200, []⟩, ?_, ?_⟩
          · change (if refusals.headD false then _ else _ : Ended LeaseStore _).value = _
            rw [if_neg hrefused]
          · change ReplaceAnswer _ _ _ (if refusals.headD false then _ else _ : Ended LeaseStore _).world.stored
            rw [if_neg hrefused]
            exact .replaced kept []

end LeaseStore

/-- **A lock is a register.** The answers that contenders get, in whatever order they call, are those of one register
of records, and reading finds what any of them has written last. A record is read as it is written, which is the record
itself if it is proper. -/
theorem contenders_share_register {handle : ι → LeaseLock σ}
    (htarget : ∃ target, Target.parse n.resourcePath = .ok target) (hkeeps : KeepsLease n backend kept)
    (hcontend : ∀ i, Contends n backend (handle i)) (calls : List (ι × LockCall))
    (hheld : kept w = held.map LeaderRecord.encode) :
    let ended := LockCall.run handle calls w
    let asked := calls.map Prod.snd
    (∃ refuses, let answered := Register.run n.describe refuses asked held
      ended.value = answered.1.map LockAnswer.asWritten ∧ kept ended.world = answered.2.map LeaderRecord.encode ∧
      ((∀ record ∈ held, record.IsProper) → (∀ call ∈ asked, ∀ record ∈ call.record?, record.IsProper) →
        ended.value = answered.1)) ∧
    kept ended.world = (Register.lastWritten held (asked.zip ended.value)).map LeaderRecord.encode ∧
    (∀ k, asked[k]? = some .get → ended.value[k]? =
      some (Register.found n.describe (Register.lastWritten held ((asked.take k).zip ended.value))).asWritten) ∧
    ∀ record : LeaderRecord, record.asWritten = record ↔ record.IsProper := by
  dsimp only
  obtain ⟨refuses, hanswers, hlast⟩ := LockCall.run_refines htarget hkeeps hcontend calls hheld
  refine ⟨⟨refuses, hanswers, hlast, fun hproper hcalls => ?_⟩, ?_, ?_, fun _ => LeaderRecord.asWritten_eq_self_iff⟩
  · rw [hanswers, Register.run_isProper refuses hproper hcalls]
  · rw [hlast, Register.run_held, hanswers, Register.lastWritten_asWritten]
  · intro k hget
    rw [hanswers, Register.lastWritten_asWritten, List.getElem?_map, Register.run_get refuses _ held k hget]
    rfl

/-- Two contenders, one of which has its traffic logged. -/
def twoContenders (isLogged : Bool) : LeaseLock LeaseStore where
  namespaceName := "team-a"
  name := "controller-lock"
  identity := "contender"
  client := if isLogged then Transport.logged ⟨fun _ => .zero, fun _ => .epoch⟩ .all LeaseStore.transport
    else LeaseStore.transport
  locate := fun body _ => ⟨1, body.length⟩
  recorder := ⟨"leasehold", "team-a", "controller-lock", LeaseStore.transport, fun _ => .epoch⟩

/-- A record from before the common era, renewed in a leap second. -/
def oldRecord : LeaderRecord where
  holderIdentity := "Zo\u00eb \"\\\" \n"
  leaseDurationSeconds := 18446744073709551615
  acquireTime := { Timestamp.epoch with date := ⟨-43, 3, 15, by decide⟩ }
  renewTime := { Timestamp.epoch with
    hour := 23, minute := 59, second := 59, nanos := 1500000000
    hour_lt := by decide, minute_lt := by decide, second_lt := by decide, nanos_lt := by decide }
  leaderTransitions := 4294967295

theorem oldRecord_isProper : oldRecord.IsProper := ⟨by decide, by decide⟩

theorem twoContenders_contend (i : Bool) :
    Contends ⟨"team-a", "controller-lock"⟩ LeaseStore.transport (twoContenders i) := by
  cases i with
  | false => exact ⟨rfl, rfl, .direct⟩
  | true => exact ⟨rfl, rfl, .logged _ _ .direct⟩

theorem twoContenders_share_register :
    (∃ target, Target.parse (LeaseName.resourcePath ⟨"team-a", "controller-lock"⟩) = .ok target) ∧
    KeepsLease ⟨"team-a", "controller-lock"⟩ LeaseStore.transport LeaseStore.stored ∧
    (∀ i, Contends ⟨"team-a", "controller-lock"⟩ LeaseStore.transport (twoContenders i)) ∧
    (LockCall.run twoContenders [(true, .get), (false, .create oldRecord), (true, .update oldRecord), (false, .get)]
      ⟨none, [true]⟩).value[3]? = some (.read oldRecord) := by
  have htarget : ∃ target, Target.parse (LeaseName.resourcePath ⟨"team-a", "controller-lock"⟩) = .ok target :=
    ⟨_, rfl⟩
  have hheld : LeaseStore.stored ⟨none, [true]⟩ = Option.map LeaderRecord.encode none := rfl
  obtain ⟨⟨refuses, -, -, hanswers⟩, -⟩ :=
    contenders_share_register htarget (LeaseStore.keepsLease _) twoContenders_contend
      [(true, .get), (false, .create oldRecord), (true, .update oldRecord), (false, .get)] hheld
  have hnone : ∀ record ∈ (none : Option LeaderRecord), record.IsProper := by simp
  have hproper : ∀ call ∈ [LockCall.get, .create oldRecord, .update oldRecord, .get],
      ∀ record ∈ call.record?, record.IsProper := by
    simp [LockCall.record?, oldRecord_isProper]
  refine ⟨htarget, LeaseStore.keepsLease _, twoContenders_contend, ?_⟩
  rw [hanswers hnone hproper]
  -- The update changes nothing, refused or not.
  cases hrefused : refuses 2 with
  | false => simp [Register.run, Register.perform, hrefused]
  | true => simp [Register.run, Register.perform, hrefused]

/-- A record of a lock that was acquired in a leap second, a third into it, which does not end a minute. -/
def leapRecord : LeaderRecord :=
  { oldRecord with
    acquireTime := {
      date := ⟨2023, 11, 14, by decide⟩, hour := 23, minute := 56, second := 4, nanos := 1333333333
      hour_lt := by decide, minute_lt := by decide, second_lt := by decide, nanos_lt := by decide } }

/-- The same record with the second after. -/
def nextRecord : LeaderRecord :=
  { leapRecord with
    acquireTime := { leapRecord.acquireTime with
      second := 5, nanos := 333333333, second_lt := by decide, nanos_lt := by decide } }

theorem leapRecord_asWritten : leapRecord.asWritten = nextRecord := rfl

theorem nextRecord_ne : nextRecord ≠ leapRecord :=
  fun h => absurd (congrArg (·.acquireTime.second) h) (by decide)

/-- What one contender has written and another reads is not what a register would answer. -/
theorem leap_record_is_read_as_next :
    let calls : List (Bool × LockCall) := [(false, .create leapRecord), (true, .get)]
    let ended := LockCall.run twoContenders calls ⟨none, []⟩
    ended.value = [.written, .read nextRecord] ∧ nextRecord ≠ leapRecord ∧
      ∀ refuses, ended.value ≠ (Register.run "team-a/controller-lock" refuses (calls.map Prod.snd) none).1 := by
  intro calls ended
  have htarget : ∃ target, Target.parse (LeaseName.resourcePath ⟨"team-a", "controller-lock"⟩) = .ok target :=
    ⟨_, rfl⟩
  have hheld : LeaseStore.stored ⟨none, []⟩ = Option.map LeaderRecord.encode none := rfl
  obtain ⟨refuses, hanswers, -⟩ :=
    LockCall.run_refines htarget (LeaseStore.keepsLease _) twoContenders_contend calls hheld
  have hended : ended.value = [.written, .read nextRecord] := hanswers
  refine ⟨hended, nextRecord_ne, fun refuses hregister => nextRecord_ne ?_⟩
  have hsame : [LockAnswer.written, .read nextRecord] = [.written, .read leapRecord] := hended.symm.trans hregister
  injection hsame with _ hsame
  injection hsame with hsame
  exact LockAnswer.read.inj hsame

end LeaderLease
