import LeaderLease.Proofs.Lock.Addressing

/-!
# What a contender forgets

A contender keeps nothing of what it has read, and what it sends to replace a record says nothing of it. So a backend
that answers on a request and on what it has stored cannot tell whether the lock was read again before it was replaced:
the reads can be left out of a history, and nothing that is written in it or after it is answered in another way.
-/

namespace LeaderLease

variable {ι σ β : Type} {handle : ι → LeaseLock σ} {stored : σ → β}

namespace LockCall

/-- The record that a contender has read last, going by the answers. -/
def lastRead [DecidableEq ι] (i : ι) (calls : List (ι × LockCall)) (answers : List LockAnswer) : Option LeaderRecord :=
  ((calls.zip answers).filterMap fun entry => if entry.1.1 = i then entry.2.record? else none).getLast?

def writes (calls : List (ι × LockCall)) : List (ι × LockCall) := calls.filter (·.2.canClash)

def writeAnswers (calls : List (ι × LockCall)) (answers : List LockAnswer) : List LockAnswer :=
  ((calls.zip answers).filter (·.1.2.canClash)).map Prod.snd

end LockCall

/-- The answer depends on the request and on what is stored, which stays as it is when it is read. -/
structure AnswersOn (stored : σ → β) (client : Transport σ) : Prop where
  alike : ∀ request w w', stored w = stored w' → (client request w).value = (client request w').value ∧
    stored (client request w).world = stored (client request w').world
  reading : ∀ target w, stored (client ⟨.get, target, []⟩ w).world = stored w

theorem AnswersOn.of_reaches {backend client : Transport σ} (hbackend : AnswersOn stored backend)
    (hreaches : Reaches backend client) : AnswersOn stored client where
  alike request w w' hstored := by
    rw [(hreaches.sameAnswer request w).1, (hreaches.sameAnswer request w).2, (hreaches.sameAnswer request w').1,
      (hreaches.sameAnswer request w').2]
    exact hbackend.alike request w w' hstored
  reading target w := by
    rw [(hreaches.sameAnswer _ w).2]
    exact hbackend.reading target w

namespace LockCall

variable {l : LeaseLock σ} {w w' : σ}

theorem perform_alike (hclient : AnswersOn stored l.client) (call : LockCall) (hstored : stored w = stored w') :
    (call.perform l w).value = (call.perform l w').value ∧
      stored (call.perform l w).world = stored (call.perform l w').world := by
  cases htarget : Target.parse (call.path l.key) with
  | ok target =>
      obtain ⟨hworld, hvalue⟩ := perform_addressed htarget w
      obtain ⟨hworld', hvalue'⟩ := perform_addressed htarget w'
      obtain ⟨hanswer, hnext⟩ := hclient.alike ⟨call.method, target, call.body⟩ w w' hstored
      rw [hvalue, hvalue', hworld, hworld', hanswer]
      exact ⟨rfl, hnext⟩
  | error e =>
      obtain ⟨hworld, hvalue⟩ := perform_unaddressed htarget w
      obtain ⟨hworld', hvalue'⟩ := perform_unaddressed htarget w'
      rw [hvalue, hvalue', hworld, hworld']
      exact ⟨rfl, hstored⟩

theorem perform_read_keeps (hclient : AnswersOn stored l.client) {call : LockCall} (hread : call.canClash = false)
    (w : σ) : stored (call.perform l w).world = stored w := by
  cases call with
  | get =>
      cases htarget : Target.parse (get.path l.key) with
      | ok target =>
          rw [(perform_addressed htarget w).1]
          exact hclient.reading target w
      | error e => rw [(perform_unaddressed htarget w).1]
  | create record => cases hread
  | update record => cases hread

/-- Without its reads, a history stores the same, and what it writes is answered in the same way. -/
theorem run_writes (hclients : ∀ i, AnswersOn stored (handle i).client) (calls : List (ι × LockCall))
    (hstored : stored w = stored w') :
    writeAnswers calls (run handle calls w).value = (run handle (writes calls) w').value ∧
      stored (run handle calls w).world = stored (run handle (writes calls) w').world := by
  -- The two runs have the same stored at every write. Where the one reads, the other waits.
  induction calls generalizing w w' with
  | nil => exact ⟨rfl, hstored⟩
  | cons first calls ih =>
      obtain ⟨i, call⟩ := first
      obtain ⟨hvalue, hworld⟩ := run_cons handle i call calls w
      rw [hvalue, hworld]
      unfold writeAnswers writes
      rw [List.zip_cons_cons, List.filter_cons, List.filter_cons]
      cases hclash : call.canClash with
      | true =>
          obtain ⟨hanswer, hnext⟩ := perform_alike (hclients i) call hstored
          obtain ⟨hanswers, hlast⟩ := ih hnext
          exact ⟨List.cons_eq_cons.mpr ⟨hanswer, hanswers⟩, hlast⟩
      | false => exact ih ((perform_read_keeps (hclients i) hclash w).trans hstored)

theorem run_of_same_writes (hclients : ∀ i, AnswersOn stored (handle i).client) {calls calls' : List (ι × LockCall)}
    (hstored : stored w = stored w') (hwrites : writes calls = writes calls') :
    writeAnswers calls (run handle calls w).value = writeAnswers calls' (run handle calls' w').value ∧
      stored (run handle calls w).world = stored (run handle calls' w').world := by
  obtain ⟨hanswers, hlast⟩ := run_writes hclients calls hstored
  obtain ⟨hanswers', hlast'⟩ := run_writes hclients calls' (rfl : stored w' = stored w')
  rw [hanswers, hlast, hwrites, hanswers', hlast']
  exact ⟨rfl, rfl⟩

/-- The record is all that there is to tell one replacement of a lock from another. -/
theorem sends_update_eq_iff (l : LeaseLock σ) (first second : LeaderRecord) (w w' : σ) :
    (update first).sends l w = (update second).sends l w' ↔ first.encode = second.encode ∨ ¬ l.key.IsAddressable := by
  by_cases haddressable : l.key.IsAddressable
  · have hsends : ∀ record w, (update record).sends l w =
        [⟨.put, Target.ofChars l.key.resourcePath.toList, record.encode⟩] := by
      intro record w
      have hsendable : (update record).IsSendable l.key := haddressable
      exact sends_of_sendable hsendable w
    rw [hsends, hsends, List.singleton_inj, Request.mk.injEq,
      or_iff_left (not_not_intro haddressable)]
    exact ⟨fun h => h.2.2, fun h => ⟨rfl, rfl, h⟩⟩
  · have hsends : ∀ record w, (update record).sends l w = [] := by
      intro record w
      obtain ⟨hsendable, -⟩ | ⟨-, hsends, -⟩ := sends_or_fails l (update record) w
      · exact absurd hsendable haddressable
      · exact hsends
    rw [hsends, hsends]
    exact ⟨fun _ => .inr haddressable, fun _ => rfl⟩

end LockCall

theorem Contends.perform_of_target {n : LeaseName} {backend : Transport σ} {l : LeaseLock σ}
    (hcontends : Contends n backend l) {call : LockCall} {target : Target}
    (htarget : Target.parse (call.path n) = .ok target) (w : σ) :
    let outcome := backend ⟨call.method, target, call.body⟩ w
    (call.perform l w).world = outcome.world ∧ (call.perform l w).value = call.verdict l.locate n outcome.value := by
  have hkey : l.key = n := by rw [LeaseLock.key, hcontends.namespaceName, hcontends.name]
  rw [← hkey] at htarget ⊢
  dsimp only
  obtain ⟨hvalue, hworld⟩ := hcontends.client.sameAnswer ⟨call.method, target, call.body⟩ w
  rw [← hvalue, ← hworld]
  exact LockCall.perform_addressed htarget w

namespace LeaseStore

variable {n : LeaseName}

theorem answersOn : AnswersOn id transport where
  alike request s s' hstored := by
    obtain rfl : s = s' := hstored
    exact ⟨rfl, rfl⟩
  reading target s := by
    obtain ⟨stored, refusals⟩ := s
    cases stored <;> rfl

theorem perform_unrefused {l : LeaseLock LeaseStore} (htarget : n.IsAddressable) (hcontends : Contends n transport l)
    (call : LockCall) (held : Option LeaderRecord) :
    let answered := Register.perform n.describe false call held
    (call.perform l ⟨held.map LeaderRecord.encode, []⟩).value = answered.1.asWritten ∧
      (call.perform l ⟨held.map LeaderRecord.encode, []⟩).world = ⟨answered.2.map LeaderRecord.encode, []⟩ := by
  obtain ⟨target, hcall⟩ : ∃ target, Target.parse (call.path n) = .ok target := by
    cases call with
    | get => exact htarget
    | create record => exact LeaseName.collection_isTarget htarget
    | update record => exact htarget
  obtain ⟨hworld, hvalue⟩ := hcontends.perform_of_target hcall ⟨held.map LeaderRecord.encode, []⟩
  rw [hvalue, hworld]
  cases call with
  | get =>
      cases held with
      | none => exact ⟨rfl, rfl⟩
      | some record =>
          refine ⟨?_, rfl⟩
          change LockCall.get.success l.locate record.encode = .read record.asWritten
          unfold LockCall.success
          dsimp only
          rw [LeaderRecord.decode_encode]
  | create record => cases held <;> exact ⟨rfl, rfl⟩
  | update record => cases held <;> exact ⟨rfl, rfl⟩

theorem run_unrefused {handle : ι → LeaseLock LeaseStore} (htarget : n.IsAddressable)
    (hcontend : ∀ i, Contends n transport (handle i)) (calls : List (ι × LockCall)) (held : Option LeaderRecord) :
    let answered := Register.run n.describe (fun _ => false) (calls.map Prod.snd) held
    (LockCall.run handle calls ⟨held.map LeaderRecord.encode, []⟩).value = answered.1.map LockAnswer.asWritten ∧
      (LockCall.run handle calls ⟨held.map LeaderRecord.encode, []⟩).world =
        ⟨answered.2.map LeaderRecord.encode, []⟩ := by
  induction calls generalizing held with
  | nil => exact ⟨rfl, rfl⟩
  | cons first calls ih =>
      obtain ⟨i, call⟩ := first
      obtain ⟨hvalue, hworld⟩ := LockCall.run_cons handle i call calls ⟨held.map LeaderRecord.encode, []⟩
      obtain ⟨hanswer, hnext⟩ := perform_unrefused htarget (hcontend i) call held
      obtain ⟨hanswers, hlast⟩ := ih (Register.perform n.describe false call held).2
      rw [hvalue, hworld, hanswer, hnext, hanswers, hlast]
      exact ⟨rfl, rfl⟩

end LeaseStore

/-- **What replaces a record.** Whatever a contender has read, and whatever others have done since, the same record is
sent in the same request, and so is no other but one that is written alike. A backend that goes by what it has stored
answers that in the same way, and it stores the same after two histories that differ in nothing but what was read in
them. -/
theorem update_forgets_what_was_read (handle : ι → LeaseLock σ) (i : ι) (calls₁ calls₂ : List (ι × LockCall))
    (w₁ w₂ : σ) (record₁ record₂ : LeaderRecord) :
    let before₁ := LockCall.run handle calls₁ w₁
    let before₂ := LockCall.run handle calls₂ w₂
    ((LockCall.update record₁).sends (handle i) before₁.world =
        (LockCall.update record₂).sends (handle i) before₂.world ↔
      record₁.encode = record₂.encode ∨ ¬ (handle i).key.IsAddressable) ∧
    ∀ (β : Type) (stored : σ → β), (∀ j, AnswersOn stored (handle j).client) →
      (stored before₁.world = stored before₂.world →
        let ended₁ := (LockCall.update record₁).perform (handle i) before₁.world
        let ended₂ := (LockCall.update record₁).perform (handle i) before₂.world
        ended₁.value = ended₂.value ∧ stored ended₁.world = stored ended₂.world) ∧
      (stored w₁ = stored w₂ → LockCall.writes calls₁ = LockCall.writes calls₂ →
        LockCall.writeAnswers calls₁ before₁.value = LockCall.writeAnswers calls₂ before₂.value ∧
          stored before₁.world = stored before₂.world) := by
  intro before₁ before₂
  refine ⟨LockCall.sends_update_eq_iff _ _ _ _ _, fun β stored hclients => ⟨fun hbefore => ?_, ?_⟩⟩
  · exact LockCall.perform_alike (hclients i) _ hbefore
  · exact fun hstored hwrites => LockCall.run_of_same_writes hclients hstored hwrites

def takenRecord : LeaderRecord := { oldRecord with holderIdentity := "node-2" }

/-- One contender creates the lock and reads it, and the other replaces the record. -/
def overtaken : List (Bool × LockCall) :=
  [(false, .create oldRecord), (false, .get), (true, .update takenRecord)]

def caughtUp : List (Bool × LockCall) := overtaken ++ [(false, .get)]

theorem update_forgets_what_was_read_caughtUp :
    (∀ i, AnswersOn id (twoContenders i).client) ∧ LockCall.writes overtaken = LockCall.writes caughtUp ∧
    let before₁ := (LockCall.run twoContenders overtaken ⟨none, [false, true]⟩).world
    let before₂ := (LockCall.run twoContenders caughtUp ⟨none, [false, true]⟩).world
    before₁ = before₂ ∧ ((LockCall.update oldRecord).perform (twoContenders false) before₁).value =
      ((LockCall.update oldRecord).perform (twoContenders false) before₂).value := by
  have hclients : ∀ i, AnswersOn id (twoContenders i).client :=
    fun i => LeaseStore.answersOn.of_reaches (twoContenders_contend i).client
  have hwrites : LockCall.writes overtaken = LockCall.writes caughtUp := rfl
  obtain ⟨-, hbackend⟩ := update_forgets_what_was_read twoContenders false overtaken caughtUp
    ⟨none, [false, true]⟩ ⟨none, [false, true]⟩ oldRecord takenRecord
  obtain ⟨hanswers, hsame⟩ := hbackend LeaseStore id hclients
  have hbefore := (hsame rfl hwrites).2
  have hanswer := (hanswers hbefore).1
  rw [id_eq, id_eq] at hbefore
  exact ⟨hclients, hwrites, hbefore, hanswer⟩

/-- A contender that has been overtaken replaces the record with the request of one that has read it again, and is not
refused. -/
theorem stale_update_is_written :
    let n : LeaseName := ⟨"team-a", "controller-lock"⟩
    let stale := LockCall.run twoContenders overtaken ⟨none, []⟩
    let fresh := LockCall.run twoContenders caughtUp ⟨none, []⟩
    let request : Request := ⟨.put, ⟨n.resourcePath, none⟩, oldRecord.encode⟩
    let replaced := (LockCall.update oldRecord).perform (twoContenders false) stale.world
    LockCall.lastRead false overtaken stale.value = some oldRecord ∧
    LockCall.lastRead false caughtUp fresh.value = some takenRecord ∧ oldRecord ≠ takenRecord ∧
    (LockCall.update oldRecord).sends (twoContenders false) stale.world = [request] ∧
    (LockCall.update oldRecord).sends (twoContenders false) fresh.world = [request] ∧
    stale.world.stored = some takenRecord.encode ∧ replaced.value = .written ∧
    replaced.world.stored = some oldRecord.encode := by
  have htarget : Target.parse (LeaseName.resourcePath ⟨"team-a", "controller-lock"⟩) =
    .ok ⟨LeaseName.resourcePath ⟨"team-a", "controller-lock"⟩, none⟩ := rfl
  have hdiffer : oldRecord ≠ takenRecord := fun h => absurd (congrArg LeaderRecord.holderIdentity h) (by decide)
  have hrun := LeaseStore.run_unrefused ⟨_, htarget⟩ twoContenders_contend
  have hstale : (LockCall.run twoContenders overtaken ⟨none, []⟩).value = [.written, .read oldRecord, .written] :=
    (hrun overtaken none).1
  have hstaleWorld : (LockCall.run twoContenders overtaken ⟨none, []⟩).world = ⟨some takenRecord.encode, []⟩ :=
    (hrun overtaken none).2
  have hfresh : (LockCall.run twoContenders caughtUp ⟨none, []⟩).value =
      [.written, .read oldRecord, .written, .read takenRecord] := (hrun caughtUp none).1
  have hsends : ∀ s, (LockCall.update oldRecord).sends (twoContenders false) s =
      [⟨.put, ⟨LeaseName.resourcePath ⟨"team-a", "controller-lock"⟩, none⟩, oldRecord.encode⟩] :=
    LockCall.sends_of_target rfl htarget
  obtain ⟨hreplaced, hreplacedWorld⟩ := LeaseStore.perform_unrefused ⟨_, htarget⟩ (twoContenders_contend false)
    (.update oldRecord) (some takenRecord)
  dsimp only
  rw [hstale, hstaleWorld, hfresh, hsends, hsends]
  exact ⟨rfl, rfl, hdiffer, rfl, rfl, rfl, hreplaced, congrArg LeaseStore.stored hreplacedWorld⟩

end LeaderLease
