import LeaderLease.Proofs.Leader.Reading
import LeaderLease.Proofs.Lock.Outcome

/-!
# Reading a lock that others write

The body of an answer may have been written by any program. A lock reads it strictly: it comes to the record that the
body spells, or to the error that it is unreadable.
-/

namespace LeaderLease

open Json

variable {ω : Type}

theorem LeaseLock.get_of_success {l : LeaseLock ω} {w : ω} {target : Target}
    (htarget : Target.parse l.resourcePath = .ok target) {response : Response}
    (hanswer : (l.client ⟨.get, target, []⟩ w).value = .ok response) (hsuccess : response.isSuccess = true) :
    (l.get w).value =
      (LeaderRecord.decode response.body).mapError fun reason =>
        .unreadable ⟨reason, l.locate response.body reason⟩ := by
  have hinterpret : interpretGet l.locate l.describe response =
      (LeaderRecord.decode response.body).mapError fun reason => .unreadable ⟨reason, l.locate response.body reason⟩ :=
    if_pos hsuccess
  have hsent := (send_of_address (l := l) (Request.address_of_ok htarget .get []) w).1
  rw [hanswer] at hsent
  unfold get
  rw [Act.reportingFailure_apply]
  change (l.send .get l.resourcePath [] w).value >>= interpretGet l.locate l.describe = _
  rw [hsent]
  exact hinterpret

namespace LeaderRecord

def keys : List String :=
  ["holderIdentity", "leaseDurationSeconds", "acquireTime", "renewTime", "leaderTransitions"]

theorem exists_part {key : String} (hkey : key ∈ keys) : ∃ (β : Type) (part : RecordPart β), part.key = key := by
  simp only [keys, List.mem_cons, List.not_mem_nil, or_false] at hkey
  obtain rfl | rfl | rfl | rfl | rfl := hkey
  · exact ⟨_, .holderIdentity, rfl⟩
  · exact ⟨_, .leaseDurationSeconds, rfl⟩
  · exact ⟨_, .acquireTime, rfl⟩
  · exact ⟨_, .renewTime, rfl⟩
  · exact ⟨_, .leaderTransitions, rfl⟩

/-- What keeps an object from spelling a record: a member is missing or occurs twice, or a number is not an unsigned
integer that fits its type. -/
def IsUnfit (o : ObjectText) : Prop :=
  (∃ key ∈ keys, o.under key = [] ∨ 2 ≤ (o.under key).length) ∨
    (∃ n : Numeral, .number n ∈ o.under "leaseDurationSeconds" ∧ ∀ k < 2 ^ 64, ¬ n.IsUnsigned k) ∨
    ∃ n : Numeral, .number n ∈ o.under "leaderTransitions" ∧ ∀ k < 2 ^ 32, ¬ n.IsUnsigned k

theorem IsUnfit.not_isSpelledBy {o : ObjectText} (hunfit : IsUnfit o) (r : LeaderRecord) : ¬ r.IsSpelledBy o := by
  intro h
  obtain ⟨key, hkey, hlength⟩ | ⟨n, hn, hlarge⟩ | ⟨n, hn, hlarge⟩ := hunfit
  · obtain ⟨β, part, rfl⟩ := exists_part hkey
    obtain ⟨v, hunder, -⟩ := h β part
    rw [hunder, List.length_singleton] at hlength
    obtain hnone | htwice := hlength
    · cases hnone
    · exact absurd htwice (by decide)
  · obtain ⟨v, hunder, m, rfl, hm⟩ := h _ .leaseDurationSeconds
    have heq : Tree.number n = .number m := List.mem_singleton.mp (hunder ▸ hn)
    cases heq
    exact hlarge _ r.leaseDurationSeconds.toNat_lt hm
  · obtain ⟨v, hunder, m, rfl, hm⟩ := h _ .leaderTransitions
    have heq : Tree.number n = .number m := List.mem_singleton.mp (hunder ▸ hn)
    cases heq
    exact hlarge _ r.leaderTransitions.toNat_lt hm

end LeaderRecord

/-- The holder of `oldRecord`, partly in escapes. -/
def escapedHolder : Spelling where
  glyphs := [.ofChar 'Z', .ofChar 'o', .coded ⟨.ofNat 0, .ofNat 0, ⟨'E', by decide⟩, .ofNat 0xB⟩, .ofChar ' ',
    .short '"' '"' (by decide), .short '\\' '\\' (by decide), .short '"' '"' (by decide), .ofChar ' ',
    .short 'n' '\n' (by decide)]

/-- The members of `oldRecord` in another order and among others, but for the time at which the lock was acquired and
the number of transitions. -/
def foreignText (acquired : Timestamp) (transitions : Nat) : ObjectText where
  before := .none
  inner := .space
  entries := [
    .named "leaderTransitions" (.number (.ofNat transitions)),
    .named "renewTime" (.text (.ofText (.ofList oldRecord.renewTime.write))),
    .named "labels" (.object (.lastMember .space (.ofText "renewTime") .none .space
      (.list (.lastItem .none Value.null .space)) .none)),
    .named "holderIdentity" (.text escapedHolder),
    .named "acquireTime" (.text (.ofText (.ofList acquired.write))),
    .named "leaseDurationSeconds" (.number (.ofNat 18446744073709551615))]
  after := .space

/-- What is wrong with such a text is noticed after the number of transitions. -/
def answeredWith (status : Nat) (body : Bytes) : LeaseLock LeaseStore :=
  { twoContenders false with
    client := fun _ => pure (.ok ⟨status, body⟩)
    locate := fun _ _ => ⟨1, 32⟩ }

theorem get_answeredWith (body : Bytes) :
    ((answeredWith 200 body).get ⟨none, []⟩).value =
      (LeaderRecord.decode body).mapError fun reason => .unreadable ⟨reason, ⟨1, 32⟩⟩ := by
  obtain ⟨target, htarget⟩ : ∃ target, Target.parse (twoContenders false).resourcePath = .ok target := ⟨_, rfl⟩
  have hanswer : ((answeredWith 200 body).client ⟨.get, target, []⟩ ⟨none, []⟩).value = .ok ⟨200, body⟩ := rfl
  exact LeaseLock.get_of_success (l := answeredWith 200 body) htarget hanswer rfl

theorem isSpelledBy_foreignText (acquired : Timestamp) :
    LeaderRecord.IsSpelledBy { oldRecord with acquireTime := acquired } (foreignText acquired 4294967295) := by
  intro β part
  cases part with
  | holderIdentity => exact ⟨.text escapedHolder, rfl, rfl⟩
  | leaseDurationSeconds => exact ⟨_, rfl, .ofNat 18446744073709551615, rfl, Numeral.ofNat_isUnsigned_iff.mpr rfl⟩
  | acquireTime => exact ⟨_, rfl, Spelling.text?_ofText _⟩
  | renewTime => exact ⟨_, rfl, Spelling.text?_ofText _⟩
  | leaderTransitions => exact ⟨_, rfl, .ofNat 4294967295, rfl, Numeral.ofNat_isUnsigned_iff.mpr rfl⟩

theorem foreignText_hasKinds (acquired : Timestamp) (transitions : Nat) :
    LeaderRecord.HasKinds (foreignText acquired transitions) := by
  have hspelled := (isSpelledBy_foreignText acquired).hasKinds
  intro β part v hv
  cases part with
  | leaderTransitions => exact ⟨.ofNat transitions, List.mem_singleton.mp hv⟩
  | holderIdentity => exact hspelled _ .holderIdentity v hv
  | leaseDurationSeconds => exact hspelled _ .leaseDurationSeconds v hv
  | acquireTime => exact hspelled _ .acquireTime v hv
  | renewTime => exact hspelled _ .renewTime v hv

theorem foreignText_isUnfit (acquired : Timestamp) : LeaderRecord.IsUnfit (foreignText acquired 4294967296) := by
  refine .inr (.inr ⟨.ofNat 4294967296, List.mem_singleton_self _, fun k hk hunsigned => ?_⟩)
  obtain rfl := Numeral.ofNat_isUnsigned_iff.mp hunsigned
  exact absurd hk (by decide)

end LeaderLease
