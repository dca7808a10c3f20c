import LeaderLease.Proofs.Namespace.File
import LeaderLease.Proofs.Timing.Defaults

/-!
# Where a namespace comes from

The namespace of a lock is the first that is given by the user, by the application and by the platform, in this order.
The platform's answer is passed on as it is, so a platform that answers with an empty text makes an empty namespace. No
file does, and so the lock is named or not named at all unless a platform of the application's own has its say.
-/

namespace LeaderLease

variable {ω : Type}

/-- The first of some texts that is there and not empty. -/
def firstGiven? (sources : List (Option String)) : Option String := sources.findSome? (·.filter (· ≠ ""))

theorem firstGiven?_append (first rest : List (Option String)) :
    firstGiven? (first ++ rest) = (firstGiven? first).or (firstGiven? rest) := List.findSome?_append

theorem firstGiven?_singleton (source : Option String) : firstGiven? [source] = source.filter (· ≠ "") := by
  unfold firstGiven?
  rw [List.findSome?_cons, List.findSome?_nil]
  cases source.filter (· ≠ "") <;> rfl

theorem ne_empty_of_firstGiven? {sources : List (Option String)} {name : String}
    (hname : firstGiven? sources = some name) : name ≠ "" := by
  obtain ⟨source, -, hsource⟩ := List.exists_of_findSome?_eq_some hname
  exact of_decide_eq_true (Option.filter_eq_some_iff.mp hsource).2

theorem firstGiven?_eq_none_iff {sources : List (Option String)} :
    firstGiven? sources = none ↔ ∀ source ∈ sources, source.getD "" = "" := by
  unfold firstGiven?
  rw [List.findSome?_eq_none_iff]
  refine forall₂_congr fun source _ => ?_
  cases source <;> simp

theorem eq_filter_iff {answer : Option String} : answer = answer.filter (· ≠ "") ↔ answer ≠ some "" := by
  cases answer with
  | none => simp
  | some name =>
      by_cases hempty : name = "" <;> simp [hempty, Option.filter]

theorem resolveNamespace_value (explicit : String) (fallback : Option String) (ambient : AmbientNamespace ω) (w : ω) :
    (resolveNamespace explicit fallback ambient w).value =
      (firstGiven? [some explicit, fallback]).or (ambient w).value := by
  by_cases hopen : explicit = "" ∧ fallback.getD "" = ""
  · have hnone : firstGiven? [some explicit, fallback] = none := by
      rw [firstGiven?_eq_none_iff, List.forall_mem_cons, List.forall_mem_singleton]
      exact hopen
    rw [resolveNamespace_of_open hopen.1 hopen.2, hnone, Option.none_or]
  · have hgiven : firstGiven? [some explicit, fallback] ≠ none := by
      rw [Ne, firstGiven?_eq_none_iff, List.forall_mem_cons, List.forall_mem_singleton]
      exact hopen
    obtain ⟨name, hname⟩ := Option.ne_none_iff_exists'.mp hgiven
    have hfirst : firstGiven [some explicit, fallback] = name := congrArg (·.getD "") hname
    rw [resolveNamespace_of_given hopen, hname, hfirst, Option.some_or, Act.pure_apply]

theorem NamespaceFile.lookup_ne_empty (file : NamespaceFile ω) (w : ω) : (file.lookup w).value ≠ some "" := by
  intro hempty
  obtain ⟨content, -, hcore⟩ := lookup_eq_some_iff.mp hempty
  exact hcore.nonempty rfl

/-- **Precedence of sources.** The namespace that is found is the first that is given, but for one case: where nothing
is given before, an empty answer of the platform is passed on. With a file or without a platform it is always the first
that is given. -/
theorem namespace_is_first_given (explicit : String) (fallback : Option String) (ambient : AmbientNamespace ω) (w : ω) :
    let answer := (ambient w).value
    let found := (resolveNamespace explicit fallback ambient w).value
    let passedOn := firstGiven? [some explicit, fallback] = none ∧ answer = some ""
    (found = firstGiven? [some explicit, fallback, answer] ↔ ¬ passedOn) ∧
    (found = some "" ↔ passedOn) ∧
    (∀ file : NamespaceFile ω, (resolveNamespace explicit fallback file.lookup w).value =
      firstGiven? [some explicit, fallback, (file.lookup w).value]) ∧
    (resolveNamespace explicit fallback .absent w).value = firstGiven? [some explicit, fallback] := by
  intro answer found passedOn
  have hfirst : ∀ ambient : AmbientNamespace ω,
      (resolveNamespace explicit fallback ambient w).value =
        firstGiven? [some explicit, fallback, (ambient w).value] ↔
      ¬ (firstGiven? [some explicit, fallback] = none ∧ (ambient w).value = some "") := by
    intro ambient
    have hall := firstGiven?_append [some explicit, fallback] [(ambient w).value]
    change firstGiven? [some explicit, fallback, (ambient w).value] = _ at hall
    rw [hall, firstGiven?_singleton, resolveNamespace_value]
    cases firstGiven? [some explicit, fallback] with
    | some name => simp
    | none =>
        rw [Option.none_or, Option.none_or, eq_filter_iff]
        simp
  refine ⟨hfirst ambient, ?_, fun file => (hfirst file.lookup).mpr fun h => file.lookup_ne_empty w h.2, ?_⟩
  · change (resolveNamespace explicit fallback ambient w).value = some "" ↔ passedOn
    rw [resolveNamespace_value]
    cases hgiven : firstGiven? [some explicit, fallback] with
    | some name => simpa [passedOn, hgiven] using ne_empty_of_firstGiven? hgiven
    | none => simp [passedOn, hgiven, answer]
  · rw [resolveNamespace_value]
    exact Option.or_none

/-- Of three sources that are all empty, the last makes an empty namespace, though no namespace is given. -/
theorem empty_answer_is_passed_on :
    let platform : AmbientNamespace Nat := (Platform.answering (some "")).provider
    (resolveNamespace "" none platform 0).value = some "" ∧
      firstGiven? [some "", none, (platform 0).value] = none := by
  decide

end LeaderLease
