import LeaderLease.Proofs.Timing.Defaults

/-!
# A spec is five fields

A spec is set up by any number of edits, some of one field and some of several. None of them looks at a field to write
another. So what becomes of a field can be told from the writes to it alone. The durations of a spec are resolved one by
one, and for that a stored zero and nothing stored come to the same.
-/

namespace LeaderLease

variable {ω : Type}

/-- One of the durations of a profile, which a spec can store. -/
inductive TimingPart where
  | leaseDuration
  | renewDeadline
  | retryPeriod
  deriving DecidableEq

namespace TimingPart

def stored : TimingPart → TimingSpec → Option Duration
  | leaseDuration => TimingSpec.storedLeaseDuration
  | renewDeadline => TimingSpec.storedRenewDeadline
  | retryPeriod => TimingSpec.storedRetryPeriod

def ofProfile : TimingPart → Profile → Duration
  | leaseDuration => Profile.leaseDuration
  | renewDeadline => Profile.renewDeadline
  | retryPeriod => Profile.retryPeriod

def store : TimingPart → Duration → TimingSpec → TimingSpec
  | leaseDuration => TimingSpec.withLeaseDuration
  | renewDeadline => TimingSpec.withRenewDeadline
  | retryPeriod => TimingSpec.withRetryPeriod

theorem profile_ext {p q : Profile} (h : ∀ part : TimingPart, part.ofProfile p = part.ofProfile q) : p = q :=
  Profile.ext (h leaseDuration) (h renewDeadline) (h retryPeriod)

theorem stored_store (part changed : TimingPart) (d : Duration) (s : TimingSpec) :
    part.stored (changed.store d s) = if changed = part then some d else part.stored s := by
  cases part <;> cases changed <;> rfl

theorem stored_withProfile (part : TimingPart) (p : Profile) (s : TimingSpec) :
    part.stored (s.withProfile p) = some (part.ofProfile p) := by
  cases part <;> rfl

end TimingPart

/-- Nothing is stored, or a zero. -/
def Unset (stored : Option Duration) : Prop := stored = none ∨ stored = some .zero

instance : DecidablePred Unset := fun stored => inferInstanceAs (Decidable (stored = none ∨ stored = some .zero))

namespace TimingSpec

theorem given_of_unset {stored : Option Duration} (hunset : Unset stored) : given stored = none := by
  obtain rfl | rfl := hunset
  · rfl
  · decide

theorem given_of_set {stored : Option Duration} (hset : ¬ Unset stored) : given stored = stored := by
  cases stored with
  | none => exact absurd (.inl rfl) hset
  | some d => exact given_some fun hzero => hset (.inr (congrArg some hzero))

variable {s t : TimingSpec}

theorem ofProfile_resolve (part : TimingPart) (s : TimingSpec) (preset : Preset) :
    part.ofProfile (s.resolve preset) = (given (part.stored s)).getD (part.ofProfile preset.profile) := by
  cases part <;> rfl

theorem resolve_of_unset {part : TimingPart} (hunset : Unset (part.stored s)) (preset : Preset) :
    part.ofProfile (s.resolve preset) = part.ofProfile preset.profile := by
  rw [ofProfile_resolve, given_of_unset hunset, Option.getD_none]

theorem resolve_of_set {part : TimingPart} {d : Duration} (hstored : part.stored s = some d) (hd : d ≠ .zero)
    (preset : Preset) : part.ofProfile (s.resolve preset) = d := by
  rw [ofProfile_resolve, hstored, given_some hd, Option.getD_some]

theorem resolve_congr {part : TimingPart}
    (halike : part.stored t = part.stored s ∨ Unset (part.stored t) ∧ Unset (part.stored s)) (preset : Preset) :
    part.ofProfile (t.resolve preset) = part.ofProfile (s.resolve preset) := by
  rw [ofProfile_resolve, ofProfile_resolve]
  obtain hsame | ⟨ht, hs⟩ := halike
  · rw [hsame]
  · rw [given_of_unset ht, given_of_unset hs]

theorem stores_withProfile (s : TimingSpec) (p : Profile) : (s.withProfile p).Stores p := ⟨rfl, rfl, rfl⟩

end TimingSpec

/-- What is written to a field: a value in place of the one it has, or a value for it if it is still open. -/
inductive FieldWrite (m : Type → Type) (α : Type) where
  | overwrite (value : α)
  | fill (source : m α)

namespace FieldWrite

variable {m : Type → Type} [Monad m] {α : Type} (IsOpen : α → Prop) [DecidablePred IsOpen]

def perform (current : α) : FieldWrite m α → m α
  | overwrite value => pure value
  | fill source => if IsOpen current then source else pure current

def performAll (writes : List (FieldWrite m α)) (start : α) : m α := writes.foldlM (perform IsOpen) start

def performIf (write? : Option (FieldWrite m α)) (current : α) : m α :=
  write?.elim (pure current) (perform IsOpen current)

theorem performAll_filterMap_cons [LawfulMonad m] {ε : Type} (write? : ε → Option (FieldWrite m α)) (edit : ε)
    (rest : List ε) (current : α) :
    performAll IsOpen ((edit :: rest).filterMap write?) current =
      performIf IsOpen (write? edit) current >>= performAll IsOpen (rest.filterMap write?) := by
  rw [List.filterMap_cons]
  cases write? edit with
  | none => exact (pure_bind current _).symm
  | some write => exact List.foldlM_cons

end FieldWrite

/-! ### Edits of a spec -/

inductive SpecEdit (ω : Type) where
  | withNamespace (namespaceName : String)
  | withName (name : String)
  | withDuration (part : TimingPart) (d : Duration)
  | enforce (preset : Preset)
  | applyDefaults (d : ElectionDefaults) (ambient : AmbientNamespace ω)

def ElectionDefaults.namespaceSource (d : ElectionDefaults) (ambient : AmbientNamespace ω) : Act ω String :=
  if d.namespaceName.getD "" = "" then (·.getD "") <$> ambient else pure (d.namespaceName.getD "")

namespace SpecEdit

def perform (s : TimingSpec) : SpecEdit ω → Act ω TimingSpec
  | withNamespace namespaceName => pure (s.withNamespace namespaceName)
  | withName name => pure (s.withName name)
  | withDuration part d => pure (part.store d s)
  | enforce preset => pure (s.enforce preset)
  | applyDefaults d ambient => d.apply ambient s

def performAll (edits : List (SpecEdit ω)) (s : TimingSpec) : Act ω TimingSpec := edits.foldlM perform s

def namespaceWrite? : SpecEdit ω → Option (FieldWrite (Act ω) String)
  | withNamespace namespaceName => some (.overwrite namespaceName)
  | applyDefaults d ambient => some (.fill (d.namespaceSource ambient))
  | _ => none

def nameWrite? : SpecEdit ω → Option (FieldWrite Id String)
  | withName name => some (.overwrite name)
  | applyDefaults d _ => some (.fill (d.name.getD ""))
  | _ => none

def durationWrite? (part : TimingPart) : SpecEdit ω → Option (FieldWrite Id (Option Duration))
  | withDuration changed d => if changed = part then some (.overwrite (some d)) else none
  | enforce preset => some (.overwrite (some (part.ofProfile preset.profile)))
  | applyDefaults d _ => some (.fill (some (part.ofProfile d.preset.profile)))
  | _ => none

theorem apply_namespace (d : ElectionDefaults) (ambient : AmbientNamespace ω) (s : TimingSpec) :
    (·.namespaceName) <$> d.apply ambient s =
      if s.namespaceName = "" then d.namespaceSource ambient else pure s.namespaceName := by
  have happly : (·.namespaceName) <$> d.apply ambient s =
      (·.getD s.namespaceName) <$> resolveNamespace s.namespaceName d.namespaceName ambient := by
    unfold ElectionDefaults.apply
    rw [map_bind, ← bind_pure_comp]
    rfl
  rw [happly]
  unfold ElectionDefaults.namespaceSource
  by_cases hopen : s.namespaceName = ""
  · rw [if_pos hopen, hopen]
    by_cases hdefault : d.namespaceName.getD "" = ""
    · rw [if_pos hdefault, resolveNamespace_of_open rfl hdefault]
    · rw [if_neg hdefault, resolveNamespace_of_given fun h => hdefault h.2, firstGiven_cons, firstGiven_cons, map_pure,
        if_neg hdefault]
      rfl
  · rw [if_neg hopen, resolveNamespace_of_given fun h => hopen h.1, firstGiven_cons, map_pure, Option.getD_some,
      Option.getD_some, if_neg hopen]

theorem perform_namespace (edit : SpecEdit ω) (s : TimingSpec) :
    (·.namespaceName) <$> edit.perform s = FieldWrite.performIf (· = "") edit.namespaceWrite? s.namespaceName := by
  cases edit with
  | withNamespace namespaceName => rfl
  | withName name => rfl
  | withDuration part d => cases part <;> rfl
  | enforce preset => rfl
  | applyDefaults d ambient => exact apply_namespace d ambient s

theorem perform_name (edit : SpecEdit ω) (s : TimingSpec) (w : ω) :
    (edit.perform s w).value.name = FieldWrite.performIf (· = "") edit.nameWrite? s.name := by
  cases edit with
  | withNamespace namespaceName => rfl
  | withName name => rfl
  | withDuration part d => cases part <;> rfl
  | enforce preset => rfl
  | applyDefaults d ambient =>
      change (d.apply ambient s w).value.name = if s.name = "" then d.name.getD "" else s.name
      rw [d.apply_name, firstGiven_cons, firstGiven_cons, Option.getD_some]
      split
      · split
        next hnone => exact hnone.symm
        next => rfl
      · rfl

theorem apply_stored (part : TimingPart) (d : ElectionDefaults) (ambient : AmbientNamespace ω) (s : TimingSpec)
    (w : ω) : part.stored (d.apply ambient s w).value = some (part.ofProfile (s.resolve d.preset)) := by
  have hstores := d.apply_stores ambient s w
  cases part with
  | leaseDuration => exact hstores.leaseDuration
  | renewDeadline => exact hstores.renewDeadline
  | retryPeriod => exact hstores.retryPeriod

theorem perform_duration (part : TimingPart) (edit : SpecEdit ω) (s : TimingSpec) (w : ω) :
    part.stored (edit.perform s w).value = FieldWrite.performIf Unset (edit.durationWrite? part) (part.stored s) := by
  cases edit with
  | withNamespace namespaceName => cases part <;> rfl
  | withName name => cases part <;> rfl
  | withDuration changed d =>
      change part.stored (changed.store d s) = _
      rw [TimingPart.stored_store, durationWrite?]
      by_cases hchanged : changed = part
      · rw [if_pos hchanged, if_pos hchanged]
        rfl
      · rw [if_neg hchanged, if_neg hchanged]
        rfl
  | enforce preset => exact part.stored_withProfile preset.profile s
  | applyDefaults d ambient =>
      change part.stored (d.apply ambient s w).value = if Unset (part.stored s) then _ else part.stored s
      rw [apply_stored, TimingSpec.ofProfile_resolve]
      by_cases hunset : Unset (part.stored s)
      · rw [if_pos hunset, TimingSpec.given_of_unset hunset, Option.getD_none]
      · rw [if_neg hunset, TimingSpec.given_of_set hunset]
        cases hstored : part.stored s with
        | none => exact absurd (.inl hstored) hunset
        | some current => rfl

theorem performAll_cons (edit : SpecEdit ω) (rest : List (SpecEdit ω)) (s : TimingSpec) :
    performAll (edit :: rest) s = edit.perform s >>= performAll rest := List.foldlM_cons

theorem performAll_namespace (edits : List (SpecEdit ω)) (s : TimingSpec) :
    (·.namespaceName) <$> performAll edits s =
      FieldWrite.performAll (· = "") (edits.filterMap namespaceWrite?) s.namespaceName := by
  induction edits generalizing s with
  | nil => rfl
  | cons edit rest ih =>
      -- As acts, not only as values: a platform may answer by what it has been asked before.
      rw [performAll_cons, map_bind, FieldWrite.performAll_filterMap_cons, ← perform_namespace, bind_map_left]
      exact bind_congr fun t => ih t

theorem performAll_field {α : Type} {IsOpen : α → Prop} [DecidablePred IsOpen] {field : TimingSpec → α}
    {write? : SpecEdit ω → Option (FieldWrite Id α)}
    (hstep : ∀ edit s w, field (edit.perform s w).value = FieldWrite.performIf IsOpen (write? edit) (field s))
    (edits : List (SpecEdit ω)) (s : TimingSpec) (w : ω) :
    field (performAll edits s w).value = FieldWrite.performAll IsOpen (edits.filterMap write?) (field s) := by
  induction edits generalizing s w with
  | nil => rfl
  | cons edit rest ih =>
      rw [performAll_cons, Act.bind_apply, FieldWrite.performAll_filterMap_cons, ih, hstep]
      rfl

end SpecEdit

open SpecEdit in
/-- **Independent fields.** What becomes of a field is told by the writes to it alone: an edit of the field and a preset
that is enforced overwrite it, and defaults are written only to a field that is still open. Of the durations of the
spec, each is resolved by itself to what is stored, or to the preset's if that is nothing or zero. -/
theorem spec_fields_evolve_independently (s : TimingSpec) (edits : List (SpecEdit ω)) (w : ω) :
    let t := (performAll edits s w).value
    ((·.namespaceName) <$> performAll edits s =
        FieldWrite.performAll (· = "") (edits.filterMap namespaceWrite?) s.namespaceName) ∧
    t.name = Id.run (FieldWrite.performAll (· = "") (edits.filterMap nameWrite?) s.name) ∧
    (∀ part : TimingPart,
      part.stored t = Id.run (FieldWrite.performAll Unset (edits.filterMap (durationWrite? part)) (part.stored s))) ∧
    ∀ preset : Preset,
      (∀ part : TimingPart,
        (Unset (part.stored t) → part.ofProfile (t.resolve preset) = part.ofProfile preset.profile) ∧
        ∀ d, part.stored t = some d → d ≠ .zero → part.ofProfile (t.resolve preset) = d) ∧
      (t.resolve preset).IsPositive ∧
      (∀ (u : TimingSpec) (changed : TimingPart), (∀ part, part ≠ changed → part.stored u = part.stored t) →
        ∀ part, part ≠ changed → part.ofProfile (u.resolve preset) = part.ofProfile (t.resolve preset)) ∧
      (∀ u : TimingSpec,
        (∀ part : TimingPart, part.stored u = part.stored t ∨ Unset (part.stored u) ∧ Unset (part.stored t)) →
        u.resolve preset = t.resolve preset) ∧
      ∀ other : Preset, (t.withProfile (t.resolve preset)).resolve other = t.resolve preset := by
  intro t
  refine ⟨performAll_namespace edits s, performAll_field perform_name edits s w,
    fun part => performAll_field (perform_duration part) edits s w, fun preset => ?_⟩
  have hpositive := t.resolve_isPositive preset
  refine ⟨fun part => ⟨?_, ?_⟩, hpositive, ?_, ?_, ?_⟩
  · exact fun hunset => TimingSpec.resolve_of_unset hunset preset
  · exact fun d hstored hd => TimingSpec.resolve_of_set hstored hd preset
  · exact fun u changed hothers part hpart => TimingSpec.resolve_congr (.inl (hothers part hpart)) preset
  · exact fun u halike => TimingPart.profile_ext fun part => TimingSpec.resolve_congr (halike part) preset
  · exact fun other => (t.stores_withProfile _).resolve hpositive other

/-- Defaults before and after some edits, the last of which opens a duration again. -/
def layeredEdits : List (SpecEdit Nat) :=
  [.withDuration .leaseDuration .zero,
    .applyDefaults ⟨.resourceConstrained, none, some "lock"⟩ (Platform.answering (some "team-b")).counted,
    .withNamespace "",
    .withDuration .retryPeriod (.ofSeconds 5),
    .applyDefaults ⟨.standard, some "team-c", some "other"⟩ Platform.absent.counted,
    .withDuration .renewDeadline .zero]

theorem spec_fields_evolve_independently_layeredEdits :
    let t := (SpecEdit.performAll layeredEdits .empty 0).value
    let u := { t with storedRenewDeadline := none }
    t = ⟨"team-c", "lock", some (.ofSeconds 270), some .zero, some (.ofSeconds 5)⟩ ∧
      Unset t.storedRenewDeadline ∧ (t.resolve .standard).renewDeadline = .ofSeconds 107 ∧
      (t.resolve .standard).retryPeriod = .ofSeconds 5 ∧
      (t.withRenewDeadline (.ofSeconds 9)).resolve .standard ≠ t.resolve .standard ∧
      ((t.withRenewDeadline (.ofSeconds 9)).resolve .standard).retryPeriod = (t.resolve .standard).retryPeriod ∧
      u ≠ t ∧ u.resolve .standard = t.resolve .standard := by
  intro t u
  obtain ⟨-, -, -, hresolve⟩ := spec_fields_evolve_independently .empty layeredEdits 0
  obtain ⟨hparts, -, hothers, halike, -⟩ := hresolve .standard
  have hunset : Unset t.storedRenewDeadline := .inr rfl
  have hkept : ∀ part : TimingPart, part ≠ .renewDeadline →
      part.stored (t.withRenewDeadline (.ofSeconds 9)) = part.stored t :=
    fun part hpart => (part.stored_store .renewDeadline _ t).trans (if_neg hpart.symm)
  have hchanged := hothers _ .renewDeadline hkept .retryPeriod (by decide)
  have hsame : ∀ part : TimingPart, part.stored u = part.stored t ∨ Unset (part.stored u) ∧ Unset (part.stored t) := by
    intro part
    cases part with
    | leaseDuration => exact .inl rfl
    | renewDeadline => exact .inr ⟨.inl rfl, hunset⟩
    | retryPeriod => exact .inl rfl
  exact ⟨rfl, hunset, (hparts .renewDeadline).1 hunset, (hparts .retryPeriod).2 _ rfl (by decide), by decide, hchanged,
    by decide, halike u hsame⟩

end LeaderLease
