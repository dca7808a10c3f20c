import LeaderLease.Proofs.Lock.Outcome
import LeaderLease.Proofs.Text.Pieces
import LeaderLease.StandIn.Recording

/-!
# What is told of an unexpected answer

An error that reports an unexpected answer quotes the first characters of its body. Every piece of the body is settled
by four bytes at most, so the quotation is settled by four times as many bytes as it has characters.
-/

namespace LeaderLease

namespace Utf8

def step : Option Sequence → UInt8 → List Piece × Option Sequence
  | none, b => first b
  | some s, b => next s b

theorem piecesAfter_cons (opened : Option Sequence) (b : UInt8) (bs : Bytes) :
    piecesAfter opened (b :: bs) = (step opened b).1 ++ piecesAfter (step opened b).2 bs := by
  cases opened <;> rfl

/-- At least as many bytes as have been read of an open sequence. -/
def unsettled : Option Sequence → Nat
  | none => 0
  | some s => 3 - s.further

/-- No more than two bytes follow the next one. -/
def IsShort (opened : Option Sequence) : Prop := ∀ s, opened = some s → s.further ≤ 2

theorem isShort_none : IsShort none := nofun

theorem start?_further {b : UInt8} {s : Sequence} (h : Sequence.start? b = some s) : s.further ≤ 2 := by
  unfold Sequence.start? at h
  split_ifs at h <;> obtain rfl := Option.some.inj h <;> simp

theorem unsettled_le (opened : Option Sequence) : unsettled opened ≤ 3 := by
  cases opened with
  | none => exact Nat.zero_le 3
  | some s => exact Nat.sub_le 3 s.further

theorem first_settles (b : UInt8) :
    IsShort (first b).2 ∧ 1 ≤ 4 * (first b).1.length + unsettled (first b).2 := by
  by_cases hascii : b < 0x80
  · rw [first_of_ascii hascii]
    exact ⟨isShort_none, by simp [unsettled]⟩
  · cases hstart : Sequence.start? b with
    | none =>
        rw [first_of_no_start hascii hstart]
        exact ⟨isShort_none, by simp [unsettled]⟩
    | some s =>
        have hfurther := start?_further hstart
        rw [first_of_start hascii hstart]
        refine ⟨fun _ hs => Option.some.inj hs ▸ hfurther, ?_⟩
        change 1 ≤ 4 * 0 + (3 - s.further)
        omega

/-- Each piece that is completed settles four bytes at most, counting the bytes that a sequence had open before. -/
theorem step_settles {opened : Option Sequence} (hshort : IsShort opened) (b : UInt8) :
    IsShort (step opened b).2 ∧
      unsettled opened + 1 ≤ 4 * (step opened b).1.length + unsettled (step opened b).2 := by
  cases opened with
  | none => simpa [unsettled, step] using first_settles b
  | some s =>
      obtain ⟨hfirst, hsettled⟩ := first_settles b
      have hopen := unsettled_le (some s)
      change IsShort (next s b).2 ∧ unsettled (some s) + 1 ≤ 4 * (next s b).1.length + unsettled (next s b).2
      by_cases hallowed : s.allows b = true
      · rw [next, if_pos hallowed]
        obtain ⟨further, low, high, code⟩ := s
        cases further with
        | zero => exact ⟨isShort_none, by simp [unsettled]⟩
        | succ n =>
            have hfurther : n + 1 ≤ 2 := hshort _ rfl
            refine ⟨fun _ hs => Option.some.inj hs ▸ Nat.le_of_succ_le hfurther, ?_⟩
            change 3 - (n + 1) + 1 ≤ 4 * 0 + (3 - n)
            omega
      · rw [next_of_not_allows (Bool.eq_false_iff.mpr hallowed)]
        refine ⟨hfirst, ?_⟩
        simp only [List.length_cons]
        omega

/-- By induction on the bytes in front, with as many pieces left to settle as these bytes and those of the open
sequence suffice for. -/
theorem take_piecesAfter_append {n : Nat} {opened : Option Sequence} (hshort : IsShort opened) {front : Bytes}
    (henough : 4 * n ≤ front.length + unsettled opened) (back other : Bytes) :
    (piecesAfter opened (front ++ back)).take n = (piecesAfter opened (front ++ other)).take n := by
  induction front generalizing n opened with
  | nil =>
      have hnone : n = 0 := by
        have hopen := unsettled_le opened
        simp only [List.length_nil] at henough
        omega
      rw [hnone, List.take_zero, List.take_zero]
  | cons b front ih =>
      obtain ⟨hshort', hsettled⟩ := step_settles hshort b
      simp only [List.length_cons] at henough
      have hrest := ih (n := n - (step opened b).1.length) hshort' (by omega)
      rw [List.cons_append, List.cons_append, piecesAfter_cons, piecesAfter_cons, List.take_append,
        List.take_append, hrest]

theorem take_pieces_of_take_eq {n : Nat} {bs other : Bytes} (h : bs.take (4 * n) = other.take (4 * n)) :
    (pieces bs).take n = (pieces other).take n := by
  by_cases hlength : 4 * n ≤ (bs.take (4 * n)).length
  · have hpieces := take_piecesAfter_append isShort_none (Nat.le_add_right_of_le hlength) (bs.drop (4 * n))
      (other.drop (4 * n))
    rwa [List.take_append_drop, h, List.take_append_drop] at hpieces
  · have hall : ∀ {cs : Bytes}, ¬ 4 * n ≤ (cs.take (4 * n)).length → cs.take (4 * n) = cs := by
      intro cs hcs
      rw [List.length_take] at hcs
      exact List.take_of_length_le (by omega)
    rw [← hall hlength, h, hall (h ▸ hlength)]

end Utf8

namespace LeaseLock

theorem excerpt_toList (body : Bytes) :
    (excerpt body).toList = ((Utf8.pieces body).map (·.getD '\uFFFD')).take 500 := String.toList_ofList

theorem excerpt_of_take_eq {body other : Bytes} (h : body.take 2000 = other.take 2000) :
    excerpt body = excerpt other := by
  rw [← String.toList_inj, excerpt_toList, excerpt_toList, ← List.map_take, ← List.map_take,
    Utf8.take_pieces_of_take_eq (n := 500) h]

theorem excerpt_encode (text : List Char) : (excerpt (Utf8.encode text)).toList = text.take 500 := by
  have hself : ∀ c ∈ text, (some c).getD '\uFFFD' = id c := fun c _ => rfl
  rw [excerpt_toList, Utf8.pieces_encode, List.map_map]
  change (text.map fun c => (some c).getD '\uFFFD').take 500 = _
  rw [List.map_congr_left hself, List.map_id]

end LeaseLock

namespace LockCall

theorem verdict_of_unexpected {locate : Json.Locator} {n : LeaseName} {call : LockCall}
    {outcome : Except TransportError Response} {status : Nat} {text : String}
    (h : call.verdict locate n outcome = .failed (.unexpectedStatus status text)) :
    ∃ body, outcome = .ok ⟨status, body⟩ ∧ ∀ other,
      call.verdict locate n (.ok ⟨status, other⟩) = .failed (.unexpectedStatus status (LeaseLock.excerpt other)) := by
  cases outcome with
  | error e => cases h
  | ok response =>
      obtain ⟨answered, body⟩ := response
      unfold verdict at h ⊢
      dsimp only at h ⊢
      split_ifs at h with hsuccess hmissing hclash
      · cases call with
        | get =>
            unfold success at h
            dsimp only at h
            split at h <;> cases h
        | create record => cases h
        | update record => cases h
      · cases h
      · cases h
      · injection h with h
        injection h with hstatus htext
        subst hstatus
        exact ⟨body, rfl, fun other => by rw [if_neg hsuccess, if_neg hmissing, if_neg hclash]⟩

end LockCall

variable {σ : Type}

/-- **Quotations.** An operation that reports an unexpected status was answered with it. The report quotes the first 500
characters of the body: of its text if the body is UTF-8, and otherwise of what its pieces say, with U+FFFD for each
part that belongs to no character. Nothing after the first 2000 bytes makes a difference. -/
theorem unexpected_answer_is_quoted {l : LeaseLock σ} {call : LockCall} {s : σ} {status : Nat} {text : String}
    (hunexpected : (call.perform l s).value = .failed (.unexpectedStatus status text)) :
    ∃ target body,
      Target.parse (call.path l.key) = .ok target ∧
      (l.client ⟨call.method, target, call.body⟩ s).value = .ok ⟨status, body⟩ ∧
      text.length ≤ 500 ∧
      (∀ told, body = Utf8.encode told → text.toList = told.take 500) ∧
      (∃ ps, (∀ qs, Utf8.FallsInto body qs ↔ qs = ps) ∧ text.toList = (ps.map (·.getD '\uFFFD')).take 500) ∧
      ∀ (t : σ) (other : Bytes), (l.client ⟨call.method, target, call.body⟩ t).value = .ok ⟨status, other⟩ →
        other.take 2000 = body.take 2000 → (call.perform l t).value = (call.perform l s).value := by
  cases htarget : Target.parse (call.path l.key) with
  | error e =>
      rw [(LockCall.perform_unaddressed htarget s).2] at hunexpected
      cases hunexpected
  | ok target =>
      have hvalue := fun t => (LockCall.perform_addressed htarget t).2
      rw [hvalue] at hunexpected
      obtain ⟨body, houtcome, hverdict⟩ := LockCall.verdict_of_unexpected hunexpected
      rw [houtcome, hverdict] at hunexpected
      obtain rfl : LeaseLock.excerpt body = text := by
        injection hunexpected with h
        injection h
      have hquoted := LeaseLock.excerpt_toList body
      refine ⟨target, body, rfl, houtcome, ?_, ?_, ⟨Utf8.pieces body, fun _ => Utf8.fallsInto_iff, hquoted⟩, ?_⟩
      · rw [← String.length_toList, hquoted]
        exact List.length_take_le _ _
      · rintro told rfl
        exact LeaseLock.excerpt_encode told
      · intro t other hother htake
        rw [hvalue, hvalue, hother, houtcome, hverdict, hverdict, LeaseLock.excerpt_of_take_eq htake]

def scriptedLock : LeaseLock Recording :=
  ⟨"team-a", "controller-lock", "node-1", Recording.transport, fun body _ => ⟨1, body.length⟩,
    ⟨"leasehold", "team-a", "controller-lock", Recording.transport, fun _ => .epoch⟩⟩

/-- A text that is torn within its last character is quoted with U+FFFD at its end. If it is torn after 2000 bytes, the
bytes that are missing would not have been told of. -/
theorem unexpected_answer_is_quoted_torn :
    let torn : Bytes := Utf8.encode "quota: 5 ".toList ++ [0xE2, 0x82]
    let long (more : Bytes) : Bytes := List.replicate 1998 0x61 ++ [0xE2, 0x82] ++ more
    let answered (body : Bytes) : Recording := ⟨[], [.ok ⟨503, body⟩]⟩
    let ended (body : Bytes) := (LockCall.get.perform scriptedLock (answered body)).value
    (ended torn = .failed (.unexpectedStatus 503 "quota: 5 \uFFFD") ∧
      ∃ ps, (∀ qs, Utf8.FallsInto torn qs ↔ qs = ps) ∧
        "quota: 5 \uFFFD".toList = (ps.map (·.getD '\uFFFD')).take 500) ∧
    ended (long []) = .failed (.unexpectedStatus 503 (LeaseLock.excerpt (long []))) ∧
      ended (long [0xAC]) = ended (long []) := by
  intro torn long answered ended
  have htorn : ended torn = .failed (.unexpectedStatus 503 "quota: 5 \uFFFD") := by decide
  have hlong : ended (long []) = .failed (.unexpectedStatus 503 (LeaseLock.excerpt (long []))) := rfl
  obtain ⟨_, body, -, hbody, -, -, hpieces, -⟩ := unexpected_answer_is_quoted htorn
  obtain rfl : torn = body := congrArg Response.body (Except.ok.inj hbody)
  obtain ⟨_, body, -, hbody, -, -, -, hfirst⟩ := unexpected_answer_is_quoted hlong
  obtain rfl : long [] = body := congrArg Response.body (Except.ok.inj hbody)
  have hfront : ∀ more, (long more).take 2000 = List.replicate 1998 0x61 ++ [0xE2, 0x82] :=
    fun more => List.take_left' (by rw [List.length_append, List.length_replicate]; rfl)
  exact ⟨⟨htorn, hpieces⟩, hlong, hfirst (answered (long [0xAC])) _ rfl ((hfront _).trans (hfront _).symm)⟩

end LeaderLease
