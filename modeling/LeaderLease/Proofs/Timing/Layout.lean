import LeaderLease.Proofs.Timing.Reading

namespace LeaderLease.TimingSpec

open Json

variable {o : ObjectText}

/-- The known members of an object, but for those that are `null`. -/
def givenMembers (o : ObjectText) : List (String × Value) :=
  (o.entries.filter fun e => decide (e.name ∈ keys) && !e.value.isNull).map fun e => (e.name, e.value)

theorem filterMap_under {γ : Type} {f : Value → Option γ} (hnull : f .null = none) {key : String} (hkey : key ∈ keys) :
    (o.under key).filterMap f = ((givenMembers o).filter (·.1 == key)).filterMap fun m => f m.2 := by
  unfold ObjectText.under valuesUnder givenMembers
  rw [List.filterMap_map, List.filterMap_filter, List.filter_map, List.filterMap_map, List.filter_filter,
    List.filterMap_filter]
  congr 1
  funext e
  by_cases hname : e.name = key
  · subst hname
    cases hvalue : e.value.isNull with
    | false => simp [hkey]
    | true => simp [Value.eq_null hvalue, hnull]
  · simp [hname]

theorem filterMap_under_congr {γ : Type} {f : Value → Option γ} (hnull : f .null = none) {o' : ObjectText}
    (honce : HasNoRepeats o) (hgiven : (givenMembers o').Perm (givenMembers o)) {key : String} (hkey : key ∈ keys) :
    (o'.under key).filterMap f = (o.under key).filterMap f := by
  have hperm : ((o'.under key).filterMap f).Perm ((o.under key).filterMap f) := by
    rw [filterMap_under hnull hkey, filterMap_under hnull hkey]
    exact (hgiven.filter _).filterMap fun m => f m.2
  have hlength : ((o.under key).filterMap f).length ≤ 1 := Nat.le_trans (List.length_filterMap_le f _) (honce key hkey)
  -- There is but one order for one value or none.
  match hshort : (o.under key).filterMap f, hlength with
  | [], _ => exact (hshort ▸ hperm).eq_nil
  | [a], _ => exact List.perm_singleton.mp (hshort ▸ hperm)

theorem IsDescribedBy.unique {s s' : TimingSpec} {o' : ObjectText} (h : s.IsDescribedBy o) (h' : s'.IsDescribedBy o')
    (honce : HasNoRepeats o) (hgiven : (givenMembers o').Perm (givenMembers o)) : s' = s := by
  have htexts : ∀ key ∈ ["namespace", "name"], o'.texts key = o.texts key := fun key hkey =>
    filterMap_under_congr rfl honce hgiven (List.mem_append_left ["leaseDuration", "renewDeadline", "retryPeriod"] hkey)
  have hstored (part : TimingPart) : part.stored s' = part.stored s := by
    have hnumerals : o'.numerals part.key = o.numerals part.key :=
      filterMap_under_congr rfl honce hgiven (key_mem_keys part)
    cases hn : o.numerals part.key with
    | nil => rw [h.absent part hn, h'.absent part (hnumerals.trans hn)]
    | cons n more =>
        have hmem : n ∈ o.numerals part.key := hn ▸ List.mem_cons_self
        obtain ⟨d, hd, hs⟩ := h.given part n hmem
        obtain ⟨d', hd', hs'⟩ := h'.given part n (hnumerals ▸ hmem)
        obtain rfl := Except.ok.inj (hd.symm.trans hd')
        rw [hs, hs']
  apply TimingSpec.ext
  · rw [h.namespaceName, h'.namespaceName, htexts "namespace" (by decide)]
  · rw [h.name, h'.name, htexts "name" (by decide)]
  · exact hstored .leaseDuration
  · exact hstored .renewDeadline
  · exact hstored .retryPeriod

def bareSpec : ObjectText where
  before := .none
  inner := .none
  entries := [.named "namespace" (.text accented), .named "renewDeadline" (.number twoAndAHalf)]
  after := .none

example : bareSpec.text = "\x7b\"namespace\":\"t\\u00e9\",\"renewDeadline\":2.500\x7d" := by
  decide +kernel

def repeatingSpec : ObjectText :=
  { crowdedSpec with entries := .named "leaseDuration" Value.null :: crowdedSpec.entries }

end LeaderLease.TimingSpec
