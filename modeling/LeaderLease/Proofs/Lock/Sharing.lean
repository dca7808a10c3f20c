import LeaderLease.Proofs.Lock.Addressing

/-!
# What different locks have in common

The namespace and the name of a lock are put between slashes as they are. So a namespace may go on with what could as
well be the beginning of a name, and a fragment takes with it what comes after: then two locks have one resource. The
request that creates a lock does not know its name at all.
-/

namespace LeaderLease

variable {ω₁ ω₂ : Type}

theorem word_overlap {word middle back back' : List Char} (hword : '/' ∉ word)
    (heq : '/' :: word ++ '/' :: back = middle ++ ('/' :: word ++ '/' :: back')) :
    (middle = [] ∧ back = back') ∨ (middle = '/' :: word ∧ back = word ++ '/' :: back') ∨
      ∃ rest, middle = '/' :: word ++ '/' :: rest ∧ back = rest ++ ('/' :: word ++ '/' :: back') := by
  -- The word on the right begins with a slash, which is the first slash on the left, the second, or one after both.
  cases middle with
  | nil => exact .inl ⟨rfl, (List.cons.inj (List.append_cancel_left heq)).2⟩
  | cons c middle =>
      obtain ⟨rfl, hrest⟩ := List.cons.inj heq
      obtain ⟨after, hmiddle, hback⟩ | ⟨before, hwhole, hback⟩ := List.append_eq_append_iff.mp hrest
      · cases after with
        | nil =>
            rw [List.append_nil] at hmiddle
            exact .inr (.inl ⟨congrArg _ hmiddle, (List.cons.inj hback).2⟩)
        | cons d rest =>
            obtain ⟨rfl, htail⟩ := List.cons.inj hback
            exact .inr (.inr ⟨rest, congrArg _ hmiddle, htail⟩)
      · cases before with
        | nil =>
            rw [List.append_nil] at hwhole
            exact .inr (.inl ⟨congrArg _ hwhole.symm, (List.cons.inj hback).2.symm⟩)
        | cons d before =>
            obtain ⟨rfl, -⟩ := List.cons.inj hback
            exact absurd (hwhole ▸ List.mem_append_right middle List.mem_cons_self) hword

/-- What is joined by a word between slashes can be taken apart in other ways if one front goes on in the other. -/
inductive Overlaps (word front back front' back' : List Char) : Prop
  | slash (hfront : front' = front ++ '/' :: word) (hback : back = word ++ '/' :: back')
  | whole (rest : List Char) (hfront : front' = front ++ ('/' :: word ++ '/' :: rest))
      (hback : back = rest ++ ('/' :: word ++ '/' :: back'))

theorem Overlaps.joined_eq {word front back front' back' : List Char} (h : Overlaps word front back front' back') :
    front ++ ('/' :: word ++ '/' :: back) = front' ++ ('/' :: word ++ '/' :: back') := by
  cases h with
  | slash hfront hback =>
      rw [hfront, hback]
      simp only [List.append_assoc, List.cons_append]
  | whole rest hfront hback =>
      rw [hfront, hback]
      simp only [List.append_assoc, List.cons_append]

theorem joined_eq_iff {word front back front' back' : List Char} (hword : '/' ∉ word) :
    front ++ ('/' :: word ++ '/' :: back) = front' ++ ('/' :: word ++ '/' :: back') ↔
      (front = front' ∧ back = back') ∨ Overlaps word front back front' back' ∨
        Overlaps word front' back' front back := by
  have honward : ∀ {front back front' back' middle : List Char}, front' = front ++ middle →
      '/' :: word ++ '/' :: back = middle ++ ('/' :: word ++ '/' :: back') →
      (front = front' ∧ back = back') ∨ Overlaps word front back front' back' := by
    intro front back front' back' middle hfront heq
    obtain ⟨rfl, hback⟩ | ⟨rfl, hback⟩ | ⟨rest, rfl, hback⟩ := word_overlap hword heq
    · rw [List.append_nil] at hfront
      exact .inl ⟨hfront.symm, hback⟩
    · exact .inr (.slash hfront hback)
    · exact .inr (.whole rest hfront hback)
  constructor
  · intro heq
    obtain ⟨middle, hfront, hrest⟩ | ⟨middle, hfront, hrest⟩ := List.append_eq_append_iff.mp heq
    · exact (honward hfront hrest).imp_right .inl
    · exact (honward hfront hrest).imp (fun h => ⟨h.1.symm, h.2.symm⟩) .inr
  · rintro (⟨rfl, rfl⟩ | h | h)
    · rfl
    · exact h.joined_eq
    · exact h.joined_eq.symm

namespace LeaseName

variable {n m : LeaseName}

/-- The namespace of the other lock goes on where that of this one ends, and its name is a later part of this name. -/
def Shadows (n m : LeaseName) : Prop :=
  (m.namespaceName = n.namespaceName ++ "/leases" ∧ n.name = "leases/" ++ m.name) ∨
    ∃ rest, m.namespaceName = n.namespaceName ++ "/leases/" ++ rest ∧ n.name = rest ++ "/leases/" ++ m.name

theorem leases_toList : "/leases".toList = '/' :: "leases".toList := rfl

theorem joined_eq (n : LeaseName) : n.collectionText ++ '/' :: n.name.toList =
    "namespaces/".toList ++ (n.namespaceName.toList ++ ('/' :: "leases".toList ++ '/' :: n.name.toList)) := by
  unfold collectionText
  rw [leases_toList, List.append_assoc, List.append_assoc]

theorem shadows_iff_overlaps : n.Shadows m ↔
    Overlaps "leases".toList n.namespaceName.toList n.name.toList m.namespaceName.toList m.name.toList := by
  have hback : "leases/".toList = "leases".toList ++ ['/'] := rfl
  have hboth : "/leases/".toList = '/' :: "leases".toList ++ ['/'] := rfl
  constructor
  · rintro (⟨hnamespace, hname⟩ | ⟨rest, hnamespace, hname⟩)
    · refine .slash ?_ ?_
      · rw [hnamespace, String.toList_append, leases_toList]
      · rw [hname, String.toList_append, hback, List.append_assoc, List.singleton_append]
    · refine .whole rest.toList ?_ ?_
      · simp only [hnamespace, String.toList_append, hboth, List.append_assoc, List.cons_append, List.nil_append]
      · simp only [hname, String.toList_append, hboth, List.append_assoc, List.cons_append, List.nil_append]
  · rintro (⟨hnamespace, hname⟩ | ⟨rest, hnamespace, hname⟩)
    · refine .inl ⟨String.toList_injective ?_, String.toList_injective ?_⟩
      · rw [hnamespace, String.toList_append, leases_toList]
      · rw [hname, String.toList_append, hback, List.append_assoc, List.singleton_append]
    · refine .inr ⟨.ofList rest, String.toList_injective ?_, String.toList_injective ?_⟩
      · simp only [hnamespace, String.toList_append, String.toList_ofList, hboth, List.append_assoc, List.cons_append,
          List.nil_append]
      · simp only [hname, String.toList_append, String.toList_ofList, hboth, List.append_assoc, List.cons_append,
          List.nil_append]

/-- Different locks have one path just if one of them shadows the other. -/
theorem resourcePath_eq_iff : n.resourcePath = m.resourcePath ↔ n = m ∨ n.Shadows m ∨ m.Shadows n := by
  have hword : '/' ∉ "leases".toList := by decide
  have hsame : n.namespaceName.toList = m.namespaceName.toList ∧ n.name.toList = m.name.toList ↔ n = m := by
    rw [String.toList_inj, String.toList_inj]
    obtain ⟨namespaceName, name⟩ := n
    rw [LeaseName.mk.injEq]
  have hpath : n.resourcePath = m.resourcePath ↔
      n.collectionText ++ '/' :: n.name.toList = m.collectionText ++ '/' :: m.name.toList := by
    rw [resourcePath_slash, resourcePath_slash]
    exact ⟨fun h => (List.cons.inj (String.ofList_injective h)).2, fun h => by rw [h]⟩
  rw [hpath, joined_eq, joined_eq, List.append_cancel_left_eq, joined_eq_iff hword, hsame, shadows_iff_overlaps,
    shadows_iff_overlaps]

theorem Shadows.slashes (h : n.Shadows m) : '/' ∈ n.name.toList ∧ '/' ∈ m.namespaceName.toList := by
  have hfront : '/' ∈ "/leases".toList := List.mem_cons_self
  have hback : '/' ∈ "leases/".toList := List.mem_append_right "leases".toList List.mem_cons_self
  have hboth : '/' ∈ "/leases/".toList := List.mem_cons_self
  obtain ⟨hnamespace, hname⟩ | ⟨rest, hnamespace, hname⟩ := h
  · rw [hnamespace, hname, String.toList_append, String.toList_append]
    exact ⟨List.mem_append_left _ hback, List.mem_append_right _ hfront⟩
  · simp only [hnamespace, hname, String.toList_append]
    exact ⟨List.mem_append_left _ (List.mem_append_right _ hboth),
      List.mem_append_left _ (List.mem_append_right _ hboth)⟩

theorem collectionPath_noFragment (hfragment : '#' ∉ n.namespaceName.toList) : '#' ∉ n.collectionPath.toList := by
  intro hmem
  rw [collectionPath, String.toList_append, String.toList_append, List.mem_append, List.mem_append] at hmem
  obtain (hmem | hmem) | hmem := hmem
  · exact absurd hmem (by decide)
  · exact hfragment hmem
  · exact absurd hmem (by decide)

theorem resourcePath_noFragment (hfragment : '#' ∉ n.namespaceName.toList ++ n.name.toList) :
    '#' ∉ n.resourcePath.toList := by
  intro hmem
  rw [resourcePath, String.toList_append, String.toList_append, List.mem_append, List.mem_append] at hmem
  obtain (hmem | hmem) | hmem := hmem
  · exact collectionPath_noFragment (fun h => hfragment (List.mem_append_left _ h)) hmem
  · exact absurd hmem (by decide)
  · exact hfragment (List.mem_append_right _ hmem)

theorem collectionTarget_eq_iff (hn : '#' ∉ n.namespaceName.toList) (hm : '#' ∉ m.namespaceName.toList) :
    Target.ofChars n.collectionPath.toList = Target.ofChars m.collectionPath.toList ↔
      n.namespaceName = m.namespaceName := by
  rw [Target.ofChars_eq_iff, Target.shown_of_plain (collectionPath_noFragment hn),
    Target.shown_of_plain (collectionPath_noFragment hm), String.toList_inj, collectionPath, collectionPath,
    String.append_left_inj, String.append_right_inj]

theorem resourceTarget_eq_iff (hn : '#' ∉ n.namespaceName.toList ++ n.name.toList)
    (hm : '#' ∉ m.namespaceName.toList ++ m.name.toList) :
    Target.ofChars n.resourcePath.toList = Target.ofChars m.resourcePath.toList ↔
      n = m ∨ n.Shadows m ∨ m.Shadows n := by
  rw [Target.ofChars_eq_iff, Target.shown_of_plain (resourcePath_noFragment hn),
    Target.shown_of_plain (resourcePath_noFragment hm), String.toList_inj, resourcePath_eq_iff]

end LeaseName

/-- **What creates a lock.** A lock that can be addressed is created by one request, and that says nothing of the lock
but its namespace: two locks of one namespace are created by the same requests. -/
theorem create_leaves_out_the_name {l₁ : LeaseLock ω₁} {l₂ : LeaseLock ω₂} (h₁ : l₁.key.IsAddressable)
    (h₂ : l₂.key.IsAddressable) (w₁ : ω₁) (w₂ : ω₂) (record₁ record₂ : LeaderRecord) :
    ∃ request₁ request₂, (LockCall.create record₁).sends l₁ w₁ = [request₁] ∧
      (LockCall.create record₂).sends l₂ w₂ = [request₂] ∧
      (request₁ = request₂ ↔ Target.shown l₁.key.collectionPath.toList = Target.shown l₂.key.collectionPath.toList ∧
        record₁.encode = record₂.encode) ∧
      ('#' ∉ l₁.namespaceName.toList → '#' ∉ l₂.namespaceName.toList →
        (request₁ = request₂ ↔ l₁.namespaceName = l₂.namespaceName ∧ record₁.encode = record₂.encode)) := by
  have hrequests : ∀ first second : Target,
      (⟨.post, first, record₁.encode⟩ : Request) = ⟨.post, second, record₂.encode⟩ ↔
        first = second ∧ record₁.encode = record₂.encode := by
    intro first second
    rw [Request.mk.injEq]
    exact and_iff_right rfl
  refine ⟨_, _, LockCall.sends_of_sendable ((LeaseName.isAddressable_iff _ record₁).mp h₁).1 w₁,
    LockCall.sends_of_sendable ((LeaseName.isAddressable_iff _ record₂).mp h₂).1 w₂, ?_, ?_⟩
  · exact (hrequests _ _).trans (and_congr_left' Target.ofChars_eq_iff)
  · intro hfragment₁ hfragment₂
    exact (hrequests _ _).trans (and_congr_left' (LeaseName.collectionTarget_eq_iff hfragment₁ hfragment₂))

theorem create_names_the_namespace :
    let l₁ := contenderFor ⟨"team-a", "controller-lock"⟩
    let l₂ := contenderFor ⟨"team-b", "controller-lock"⟩
    l₁.key.IsAddressable ∧ l₂.key.IsAddressable ∧
      ∃ request₁ request₂, (LockCall.create oldRecord).sends l₁ ⟨none, []⟩ = [request₁] ∧
        (LockCall.create oldRecord).sends l₂ ⟨none, []⟩ = [request₂] ∧ request₁ ≠ request₂ := by
  have h₁ : (contenderFor ⟨"team-a", "controller-lock"⟩).key.IsAddressable := ⟨_, rfl⟩
  have h₂ : (contenderFor ⟨"team-b", "controller-lock"⟩).key.IsAddressable := ⟨_, rfl⟩
  have hfragment₁ : '#' ∉ "team-a".toList := by decide
  have hfragment₂ : '#' ∉ "team-b".toList := by decide
  intro l₁ l₂
  obtain ⟨request₁, request₂, hsends₁, hsends₂, -, hrequests⟩ :=
    create_leaves_out_the_name h₁ h₂ ⟨none, []⟩ ⟨none, []⟩ oldRecord oldRecord
  refine ⟨h₁, h₂, request₁, request₂, hsends₁, hsends₂, fun hsame => ?_⟩
  exact absurd ((hrequests hfragment₁ hfragment₂).mp hsame).1 (by decide)

/-- One request creates either of two locks. -/
theorem two_locks_are_created_alike :
    let n : LeaseName := ⟨"team-a", "controller-lock"⟩
    let m : LeaseName := ⟨"team-a", "scheduler-lock"⟩
    n ≠ m ∧ n.IsAddressable ∧ m.IsAddressable ∧
      (LockCall.create oldRecord).sends (contenderFor n) ⟨none, []⟩ =
        [⟨.post, ⟨"/namespaces/team-a/leases", none⟩, oldRecord.encode⟩] ∧
      (LockCall.create oldRecord).sends (contenderFor m) ⟨none, []⟩ =
        [⟨.post, ⟨"/namespaces/team-a/leases", none⟩, oldRecord.encode⟩] := by
  have hn : LeaseName.IsAddressable ⟨"team-a", "controller-lock"⟩ := ⟨_, rfl⟩
  have hm : LeaseName.IsAddressable ⟨"team-a", "scheduler-lock"⟩ := ⟨_, rfl⟩
  have hcreateN : Target.parse ((LockCall.create oldRecord).path ⟨"team-a", "controller-lock"⟩) =
      .ok ⟨"/namespaces/team-a/leases", none⟩ := rfl
  have hcreateM : Target.parse ((LockCall.create oldRecord).path ⟨"team-a", "scheduler-lock"⟩) =
      .ok ⟨"/namespaces/team-a/leases", none⟩ := rfl
  have hdiffer : (⟨"team-a", "controller-lock"⟩ : LeaseName) ≠ ⟨"team-a", "scheduler-lock"⟩ :=
    fun h => absurd (congrArg LeaseName.name h) (by decide)
  exact ⟨hdiffer, hn, hm, LockCall.sends_of_target (contenderFor_key _) hcreateN _,
    LockCall.sends_of_target (contenderFor_key _) hcreateM _⟩

namespace LockCall

theorem path_of_canMiss {call : LockCall} (hmiss : call.canMiss = true) (n : LeaseName) :
    call.path n = n.resourcePath := by
  cases call with
  | get => rfl
  | create record => cases hmiss
  | update record => rfl

theorem sends_to_resource {l : LeaseLock ω₁} {call : LockCall} (hmiss : call.canMiss = true)
    (haddressable : l.key.IsAddressable) (w : ω₁) :
    call.sends l w = [⟨call.method, Target.ofChars l.key.resourcePath.toList, call.body⟩] := by
  have hpath := path_of_canMiss hmiss l.key
  have hsendable : call.IsSendable l.key := by
    unfold IsSendable
    rw [hpath]
    exact haddressable
  rw [sends_of_sendable hsendable, hpath]

end LockCall

/-- **Where a lock is.** A lock that can be addressed is read and replaced by one request each, at one target, which two
locks have in common just if their paths agree before a fragment. Without a fragment one of them shadows the other, and
locks of which no namespace, or no name, has a slash in it have nothing in common. -/
theorem shared_targets_overlap {l₁ : LeaseLock ω₁} {l₂ : LeaseLock ω₂} (h₁ : l₁.key.IsAddressable)
    (h₂ : l₂.key.IsAddressable) (w₁ : ω₁) (w₂ : ω₂) {call₁ call₂ : LockCall} (hcall₁ : call₁.canMiss = true)
    (hcall₂ : call₂.canMiss = true) :
    let n := l₁.key
    let m := l₂.key
    ∃ request₁ request₂, call₁.sends l₁ w₁ = [request₁] ∧ call₂.sends l₂ w₂ = [request₂] ∧
      (request₁.target = request₂.target ↔
        Target.shown n.resourcePath.toList = Target.shown m.resourcePath.toList) ∧
      ('#' ∉ n.namespaceName.toList ++ n.name.toList → '#' ∉ m.namespaceName.toList ++ m.name.toList →
        (request₁.target = request₂.target ↔ n = m ∨ n.Shadows m ∨ m.Shadows n) ∧
        (('/' ∉ n.namespaceName.toList ∧ '/' ∉ m.namespaceName.toList) ∨
          ('/' ∉ n.name.toList ∧ '/' ∉ m.name.toList) → (request₁.target = request₂.target ↔ n = m))) := by
  refine ⟨_, _, LockCall.sends_to_resource hcall₁ h₁ w₁, LockCall.sends_to_resource hcall₂ h₂ w₂,
    Target.ofChars_eq_iff, fun hfragment₁ hfragment₂ => ?_⟩
  have htargets := LeaseName.resourceTarget_eq_iff hfragment₁ hfragment₂
  refine ⟨htargets, fun hslash => htargets.trans (or_iff_left ?_)⟩
  rintro (hshadows | hshadows)
  · obtain ⟨hname, hnamespace⟩ := hshadows.slashes
    exact hslash.elim (fun h => h.2 hnamespace) (fun h => h.1 hname)
  · obtain ⟨hname, hnamespace⟩ := hshadows.slashes
    exact hslash.elim (fun h => h.1 hnamespace) (fun h => h.2 hname)

theorem plain_targets_differ :
    let l₁ := contenderFor ⟨"team-a", "controller-lock"⟩
    let l₂ := contenderFor ⟨"team-b", "controller-lock"⟩
    l₁.key.IsAddressable ∧ l₂.key.IsAddressable ∧
      ∃ request₁ request₂, LockCall.get.sends l₁ ⟨none, []⟩ = [request₁] ∧
        (LockCall.update oldRecord).sends l₂ ⟨none, []⟩ = [request₂] ∧ request₁.target ≠ request₂.target := by
  have h₁ : (contenderFor ⟨"team-a", "controller-lock"⟩).key.IsAddressable := ⟨_, rfl⟩
  have h₂ : (contenderFor ⟨"team-b", "controller-lock"⟩).key.IsAddressable := ⟨_, rfl⟩
  have hfragment₁ : '#' ∉ "team-a".toList ++ "controller-lock".toList := by decide
  have hfragment₂ : '#' ∉ "team-b".toList ++ "controller-lock".toList := by decide
  have hslash : ('/' ∉ "team-a".toList ∧ '/' ∉ "team-b".toList) ∨
      ('/' ∉ "controller-lock".toList ∧ '/' ∉ "controller-lock".toList) := .inl ⟨by decide, by decide⟩
  have hdiffer : (⟨"team-a", "controller-lock"⟩ : LeaseName) ≠ ⟨"team-b", "controller-lock"⟩ :=
    fun h => absurd (congrArg LeaseName.namespaceName h) (by decide)
  intro l₁ l₂
  obtain ⟨request₁, request₂, hsends₁, hsends₂, -, htargets⟩ :=
    shared_targets_overlap h₁ h₂ ⟨none, []⟩ ⟨none, []⟩ (rfl : LockCall.get.canMiss = true)
      (rfl : (LockCall.update oldRecord).canMiss = true)
  obtain ⟨-, hplain⟩ := htargets hfragment₁ hfragment₂
  exact ⟨h₁, h₂, request₁, request₂, hsends₁, hsends₂, fun hsame => hdiffer ((hplain hslash).mp hsame)⟩

/-- Two locks that are validated and addressed are read at one target. -/
theorem two_locks_one_resource :
    let n : LeaseName := ⟨"team-a", "east/leases/controller-lock"⟩
    let m : LeaseName := ⟨"team-a/leases/east", "controller-lock"⟩
    n ≠ m ∧ n.IsAddressable ∧ m.IsAddressable ∧
      (TimingSpec.forLock n.namespaceName n.name).validate = .ok () ∧
      (TimingSpec.forLock m.namespaceName m.name).validate = .ok () ∧
      LockCall.get.sends (contenderFor n) ⟨none, []⟩ =
        [⟨.get, ⟨"/namespaces/team-a/leases/east/leases/controller-lock", none⟩, []⟩] ∧
      LockCall.get.sends (contenderFor m) ⟨none, []⟩ =
        [⟨.get, ⟨"/namespaces/team-a/leases/east/leases/controller-lock", none⟩, []⟩] := by
  have hn : Target.parse (LockCall.get.path ⟨"team-a", "east/leases/controller-lock"⟩) =
      .ok ⟨"/namespaces/team-a/leases/east/leases/controller-lock", none⟩ := rfl
  have hm : Target.parse (LockCall.get.path ⟨"team-a/leases/east", "controller-lock"⟩) =
      .ok ⟨"/namespaces/team-a/leases/east/leases/controller-lock", none⟩ := rfl
  have hvalidN : (TimingSpec.forLock "team-a" "east/leases/controller-lock").validate = .ok () := rfl
  have hvalidM : (TimingSpec.forLock "team-a/leases/east" "controller-lock").validate = .ok () := rfl
  have hdiffer : (⟨"team-a", "east/leases/controller-lock"⟩ : LeaseName) ≠
      ⟨"team-a/leases/east", "controller-lock"⟩ := fun h => absurd (congrArg LeaseName.name h) (by decide)
  exact ⟨hdiffer, ⟨_, hn⟩, ⟨_, hm⟩, hvalidN, hvalidM, LockCall.sends_of_target (contenderFor_key _) hn _,
    LockCall.sends_of_target (contenderFor_key _) hm _⟩

end LeaderLease
