import LeaderLease.Proofs.Lock.Sending

/-!
# Which operations can be addressed

A lock is created among the locks of its namespace, and read and replaced under its own name. So the name of the lock
has a say in whether it can be read or replaced, and none in whether it can be created: it has to be allowed in the zone
of the target in which it stands, and it must not make the target too long.
-/

namespace LeaderLease

variable {ω : Type} {n : LeaseName}

namespace LeaseName

/-- Where in its target the name of a lock stands. -/
def zone (n : LeaseName) : Target.Zone := Target.Zone.path.afterAll n.namespaceName.toList

/-- The name is allowed where it stands, and the target does not get too long by it. -/
structure NameFits (n : LeaseName) : Prop where
  isRead : n.zone.reads n.name.toList = true
  isShort : (Utf8.encode n.resourcePath.toList).length ≤ Target.byteLimit

/-- What follows the first slash of the path that a lock is created under. -/
def collectionText (n : LeaseName) : List Char :=
  "namespaces/".toList ++ n.namespaceName.toList ++ "/leases".toList

theorem collectionPath_slash (n : LeaseName) : n.collectionPath = .ofList ('/' :: n.collectionText) :=
  n.collectionPath_eq

theorem resourcePath_slash (n : LeaseName) :
    n.resourcePath = .ofList ('/' :: (n.collectionText ++ '/' :: n.name.toList)) :=
  n.resourcePath_eq

theorem afterAll_collectionText (n : LeaseName) : Target.Zone.path.afterAll n.collectionText = n.zone := by
  have hfront : Target.Zone.path.afterAll "namespaces/".toList = .path := rfl
  have hback : ∀ z : Target.Zone, z.afterAll "/leases".toList = z := fun z => by cases z <;> rfl
  unfold collectionText zone
  rw [Target.Zone.afterAll_append, hback, Target.Zone.afterAll_append, hfront]

theorem reads_slash (z : Target.Zone) (text : List Char) : z.reads ('/' :: text) = z.reads text := by
  cases z <;> rfl

theorem isSendable_create_iff (n : LeaseName) (record : LeaderRecord) :
    (LockCall.create record).IsSendable n ↔ (Utf8.encode n.collectionPath.toList).length ≤ Target.byteLimit ∧
      Target.Zone.path.reads n.collectionText = true := by
  change (∃ target, Target.parse n.collectionPath = .ok target) ↔ _
  rw [n.collectionPath_slash, String.toList_ofList]
  exact Target.parse_slash_iff _

theorem isAddressable_iff (n : LeaseName) (record : LeaderRecord) :
    n.IsAddressable ↔ (LockCall.create record).IsSendable n ∧ n.NameFits := by
  have hresource : n.IsAddressable ↔ (Utf8.encode n.resourcePath.toList).length ≤ Target.byteLimit ∧
      Target.Zone.path.reads n.collectionText = true ∧ n.zone.reads n.name.toList = true := by
    unfold IsAddressable
    rw [n.resourcePath_slash, String.toList_ofList, Target.parse_slash_iff, Target.Zone.reads_append,
      afterAll_collectionText, reads_slash, Bool.and_eq_true_iff]
  constructor
  · intro haddressable
    obtain ⟨hshort, -, hname⟩ := hresource.mp haddressable
    exact ⟨collection_isTarget haddressable, hname, hshort⟩
  · rintro ⟨hcreate, hname, hshort⟩
    exact hresource.mpr ⟨hshort, ((isSendable_create_iff n record).mp hcreate).2, hname⟩

end LeaseName

namespace LockCall

theorem sends_or_fails (l : LeaseLock ω) (call : LockCall) (w : ω) :
    (call.IsSendable l.key ∧ ∃ request, call.sends l w = [request]) ∨
      (¬ call.IsSendable l.key ∧ call.sends l w = [] ∧ (call.perform l w).world = w ∧
        ∃ e : TargetError, (call.perform l w).value = .failed (.transport ⟨e.message, []⟩)) := by
  by_cases hsendable : call.IsSendable l.key
  · exact .inl ⟨hsendable, _, sends_of_sendable hsendable w⟩
  · cases htarget : Target.parse (call.path l.key) with
    | ok target => exact absurd ⟨target, htarget⟩ hsendable
    | error e =>
        obtain ⟨hworld, hvalue⟩ := perform_unaddressed htarget w
        exact .inr ⟨hsendable, sends_of_error rfl htarget w, hworld, e, hvalue⟩

end LockCall

/-- **What can be addressed.** An operation is sent as one request, or it fails before anything is sent. A lock that can
be read can be replaced and created. The converse holds of those locks alone whose names fit, and a name fits if it is
made of characters that are allowed both in paths and in queries and the target is short enough. -/
theorem readable_locks_can_be_created (l : LeaseLock ω) (w : ω) (first second : LeaderRecord) :
    let n := l.key
    (∀ call : LockCall, (call.IsSendable n ∧ ∃ request, call.sends l w = [request]) ∨
      (¬ call.IsSendable n ∧ call.sends l w = [] ∧ (call.perform l w).world = w ∧
        ∃ e : TargetError, (call.perform l w).value = .failed (.transport ⟨e.message, []⟩))) ∧
    (LockCall.get.IsSendable n ↔ (LockCall.update first).IsSendable n) ∧
    (LockCall.get.IsSendable n ↔ (LockCall.create second).IsSendable n ∧ n.NameFits) ∧
    ((∀ c ∈ n.name.toList, Target.isPathChar c = true ∧ Target.isQueryChar c = true) →
      (Utf8.encode n.resourcePath.toList).length ≤ Target.byteLimit →
        (LockCall.get.IsSendable n ↔ (LockCall.create second).IsSendable n)) := by
  intro n
  have hfits := n.isAddressable_iff second
  refine ⟨fun call => call.sends_or_fails l w, Iff.rfl, hfits, fun hplain hshort => ⟨fun hget => (hfits.mp hget).1, ?_⟩⟩
  exact fun hcreate => hfits.mpr ⟨hcreate, Target.Zone.reads_of_all hplain _, hshort⟩

theorem plain_name_is_read_when_created :
    let l := contenderFor ⟨"team-a", "controller-lock"⟩
    (∀ c ∈ l.key.name.toList, Target.isPathChar c = true ∧ Target.isQueryChar c = true) ∧
    (Utf8.encode l.key.resourcePath.toList).length ≤ Target.byteLimit ∧
    (LockCall.create oldRecord).IsSendable l.key ∧ LockCall.get.IsSendable l.key := by
  have hplain : ∀ c ∈ "controller-lock".toList, Target.isPathChar c = true ∧ Target.isQueryChar c = true := by
    have hall : "controller-lock".toList.all (fun c => Target.isPathChar c && Target.isQueryChar c) = true := rfl
    exact fun c hc => Bool.and_eq_true_iff.mp (List.all_eq_true.mp hall c hc)
  have hshort : (Utf8.encode (LeaseName.resourcePath ⟨"team-a", "controller-lock"⟩).toList).length ≤
      Target.byteLimit := by decide +kernel
  have hcreate : (LockCall.create oldRecord).IsSendable ⟨"team-a", "controller-lock"⟩ := ⟨_, rfl⟩
  obtain ⟨-, -, -, hread⟩ := readable_locks_can_be_created (contenderFor ⟨"team-a", "controller-lock"⟩) ⟨none, []⟩
    oldRecord oldRecord
  exact ⟨hplain, hshort, hcreate, (hread hplain hshort).mpr hcreate⟩

/-- A lock with a blank in its name is created and cannot be read. -/
theorem blank_name_is_created_unread :
    let n : LeaseName := ⟨"team-a", "controller lock"⟩
    let empty : LeaseStore := ⟨none, []⟩
    let created := (LockCall.create oldRecord).perform (contenderFor n) empty
    LockCall.get.sends (contenderFor n) empty = [] ∧
    (LockCall.get.perform (contenderFor n) empty).value = .failed (.transport ⟨"invalid uri character", []⟩) ∧
    (LockCall.create oldRecord).sends (contenderFor n) empty =
      [⟨.post, ⟨"/namespaces/team-a/leases", none⟩, oldRecord.encode⟩] ∧
    created.value = .written ∧ created.world.stored = some oldRecord.encode := by
  have hresource : Target.parse (LockCall.get.path ⟨"team-a", "controller lock"⟩) = .error .invalidCharacter := rfl
  have hcollection : Target.parse ((LockCall.create oldRecord).path ⟨"team-a", "controller lock"⟩) =
      .ok ⟨"/namespaces/team-a/leases", none⟩ := rfl
  obtain ⟨hworld, hvalue⟩ := LockCall.perform_addressed (l := contenderFor ⟨"team-a", "controller lock"⟩) hcollection
    ⟨none, []⟩
  have hread := (LockCall.perform_unaddressed (l := contenderFor ⟨"team-a", "controller lock"⟩) hresource ⟨none, []⟩).2
  exact ⟨LockCall.sends_of_error (contenderFor_key _) hresource _, hread,
    LockCall.sends_of_target (contenderFor_key _) hcollection _, hvalue, congrArg LeaseStore.stored hworld⟩

end LeaderLease
