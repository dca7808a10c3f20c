import LeaderLease.Proofs.Act.Within
import LeaderLease.Proofs.Election.Assembly
import LeaderLease.StandIn.Ambient
import LeaderLease.StandIn.Program
import LeaderLease.Timing.Defaults

/-!
# Defaults come in layers

Defaults that are applied to a spec fill in what is open and leave the rest alone. So when defaults are applied one
after the other, each text of the spec is the first that is given anywhere, and the durations are settled by the first
layer. A platform is asked for a namespace only by the layer that gets to it.
-/

namespace LeaderLease

variable {ω σ : Type}

/-- The first of some texts that is there and not empty, or the empty text if there is none. -/
def firstGiven (sources : List (Option String)) : String := (sources.findSome? (·.filter (· ≠ ""))).getD ""

theorem firstGiven_cons (source : Option String) (rest : List (Option String)) :
    firstGiven (source :: rest) = if source.getD "" = "" then firstGiven rest else source.getD "" := by
  unfold firstGiven
  rw [List.findSome?_cons]
  cases source with
  | none => rfl
  | some name =>
      by_cases hname : name = ""
      · subst hname
        rfl
      · have hfilter : (some name).filter (· ≠ "") = some name := by simp [hname]
        rw [hfilter, Option.getD_some, if_neg hname]

theorem firstGiven_flatten (first rest : List (Option String)) :
    firstGiven (some (firstGiven first) :: rest) = firstGiven (first ++ rest) := by
  induction first with
  | nil => rfl
  | cons source first ih =>
      rw [List.cons_append, firstGiven_cons source, firstGiven_cons source]
      by_cases hopen : source.getD "" = ""
      · rw [if_pos hopen, if_pos hopen, ih]
      · rw [if_neg hopen, if_neg hopen, firstGiven_cons, Option.getD_some, if_neg hopen]

theorem firstGiven_append (first rest : List (Option String)) :
    firstGiven (first ++ rest) = if firstGiven first = "" then firstGiven rest else firstGiven first := by
  rw [← firstGiven_flatten, firstGiven_cons, Option.getD_some]

theorem firstGiven_eq_empty {sources : List (Option String)} (hnone : firstGiven sources = "") :
    ∀ source ∈ sources, source.getD "" = "" := by
  induction sources with
  | nil => exact nofun
  | cons first rest ih =>
      rw [firstGiven_cons] at hnone
      by_cases hopen : first.getD "" = ""
      · rw [if_pos hopen] at hnone
        exact List.forall_mem_cons.mpr ⟨hopen, ih hnone⟩
      · rw [if_neg hopen] at hnone
        exact absurd hnone hopen

theorem firstGiven_of_open {sources : List (Option String)} (hopen : ∀ source ∈ sources, source.getD "" = "") :
    firstGiven sources = "" := by
  induction sources with
  | nil => rfl
  | cons first rest ih =>
      obtain ⟨hfirst, hrest⟩ := List.forall_mem_cons.mp hopen
      rw [firstGiven_cons, if_pos hfirst, ih hrest]

theorem firstGiven_again {first again : List (Option String)} (hagain : ∀ source ∈ again, source ∈ first) :
    firstGiven (first ++ again) = firstGiven first := by
  rw [firstGiven_append]
  by_cases hnone : firstGiven first = ""
  · rw [if_pos hnone, hnone]
    exact firstGiven_of_open fun source hsource => firstGiven_eq_empty hnone source (hagain source hsource)
  · rw [if_neg hnone]

namespace TimingSpec

structure Stores (p : Profile) (s : TimingSpec) : Prop where
  leaseDuration : s.storedLeaseDuration = some p.leaseDuration
  renewDeadline : s.storedRenewDeadline = some p.renewDeadline
  retryPeriod : s.storedRetryPeriod = some p.retryPeriod

end TimingSpec

structure Profile.IsPositive (p : Profile) : Prop where
  leaseDuration : p.leaseDuration ≠ .zero
  renewDeadline : p.renewDeadline ≠ .zero
  retryPeriod : p.retryPeriod ≠ .zero

theorem Preset.profile_isPositive (preset : Preset) : preset.profile.IsPositive := by
  cases preset with
  | standard => exact ⟨by decide, by decide, by decide⟩
  | resourceConstrained => exact ⟨by decide, by decide, by decide⟩

namespace TimingSpec

variable {s t : TimingSpec} {p : Profile}

theorem given_getD_ne_zero {stored : Option Duration} {fallback : Duration} (hfallback : fallback ≠ .zero) :
    (given stored).getD fallback ≠ .zero := by
  unfold given
  cases stored with
  | none => exact hfallback
  | some d =>
      cases hzero : d.isZero with
      | true =>
          rw [Option.filter_some_neg (by simp [hzero])]
          exact hfallback
      | false =>
          rw [Option.filter_some_pos (by simp [hzero])]
          exact fun heq => Bool.false_ne_true (hzero.symm.trans (Duration.isZero_iff.mpr heq))

theorem given_some {d : Duration} (hd : d ≠ .zero) : given (some d) = some d := by
  have hzero : d.isZero = false := Bool.eq_false_iff.mpr fun h => hd (Duration.isZero_iff.mp h)
  exact Option.filter_some_pos (by simp [hzero])

theorem resolve_isPositive (s : TimingSpec) (preset : Preset) : (s.resolve preset).IsPositive where
  leaseDuration := given_getD_ne_zero preset.profile_isPositive.leaseDuration
  renewDeadline := given_getD_ne_zero preset.profile_isPositive.renewDeadline
  retryPeriod := given_getD_ne_zero preset.profile_isPositive.retryPeriod

theorem Stores.resolve (h : Stores p s) (hp : p.IsPositive) (preset : Preset) : s.resolve preset = p := by
  unfold TimingSpec.resolve TimingSpec.leaseDuration TimingSpec.renewDeadline TimingSpec.retryPeriod
  rw [h.leaseDuration, h.renewDeadline, h.retryPeriod, given_some hp.leaseDuration, given_some hp.renewDeadline,
    given_some hp.retryPeriod]
  rfl

end TimingSpec

/-! ### One layer -/

theorem resolveNamespace_of_open {explicit : String} {fallback : Option String} (hexplicit : explicit = "")
    (hfallback : fallback.getD "" = "") (ambient : AmbientNamespace ω) :
    resolveNamespace explicit fallback ambient = ambient := by
  unfold resolveNamespace
  rw [if_neg (not_not_intro hexplicit)]
  cases fallback with
  | none => rfl
  | some name => rw [Option.filter_some_neg (by simpa using hfallback)]

theorem resolveNamespace_of_given {explicit : String} {fallback : Option String}
    (hgiven : ¬ (explicit = "" ∧ fallback.getD "" = "")) (ambient : AmbientNamespace ω) :
    resolveNamespace explicit fallback ambient = pure (some (firstGiven [some explicit, fallback])) := by
  unfold resolveNamespace
  rw [firstGiven_cons, firstGiven_cons, Option.getD_some]
  by_cases hexplicit : explicit = ""
  · have hfallback : fallback.getD "" ≠ "" := fun h => hgiven ⟨hexplicit, h⟩
    rw [if_neg (not_not_intro hexplicit), if_pos hexplicit, if_neg hfallback]
    cases fallback with
    | none => exact absurd rfl hfallback
    | some name =>
        rw [Option.filter_some_pos (by simpa using hfallback)]
        rfl
  · rw [if_pos hexplicit, if_neg hexplicit]

/-- A platform that notes under a number that it was asked. -/
def AmbientNamespace.noted (number : Nat) (ambient : AmbientNamespace ω) : AmbientNamespace (ω × List Nat) :=
  (do
    .change fun s => (s.1, s.2 ++ [number])
    ambient.on Part.fst : Act (ω × List Nat) (Option String))

namespace ElectionDefaults

/-- Neither the spec nor the defaults have a namespace. -/
def Asks (d : ElectionDefaults) (s : TimingSpec) : Prop := s.namespaceName = "" ∧ d.namespaceName.getD "" = ""

instance (d : ElectionDefaults) (s : TimingSpec) : Decidable (d.Asks s) :=
  inferInstanceAs (Decidable (s.namespaceName = "" ∧ d.namespaceName.getD "" = ""))

/-- The spec, filled in as the precedence of its sources has it. -/
def filled (d : ElectionDefaults) (answer : Option String) (s : TimingSpec) : TimingSpec where
  namespaceName := firstGiven [some s.namespaceName, d.namespaceName, answer]
  name := firstGiven [some s.name, d.name]
  storedLeaseDuration := some (s.resolve d.preset).leaseDuration
  storedRenewDeadline := some (s.resolve d.preset).renewDeadline
  storedRetryPeriod := some (s.resolve d.preset).retryPeriod

variable {d : ElectionDefaults} {s : TimingSpec}

theorem filled_stores (d : ElectionDefaults) (answer : Option String) (s : TimingSpec) :
    (d.filled answer s).Stores (s.resolve d.preset) := ⟨rfl, rfl, rfl⟩

theorem nameFor_eq (d : ElectionDefaults) (s : TimingSpec) : d.nameFor s = firstGiven [some s.name, d.name] := by
  unfold nameFor
  rw [firstGiven_cons, firstGiven_cons, Option.getD_some]
  by_cases hname : s.name = ""
  · rw [if_pos hname, if_pos hname, hname]
    split
    next hopen => exact hopen
    next => rfl
  · rw [if_neg hname, if_neg hname]

theorem filled_namespace_of_open {answer : Option String} (hasks : d.Asks s) :
    (d.filled answer s).namespaceName = answer.getD "" := by
  obtain ⟨hexplicit, hfallback⟩ := hasks
  change firstGiven [some s.namespaceName, d.namespaceName, answer] = _
  rw [firstGiven_cons, Option.getD_some, if_pos hexplicit, firstGiven_cons, if_pos hfallback, firstGiven_cons]
  by_cases hanswer : answer.getD "" = ""
  · rw [if_pos hanswer, hanswer]
    rfl
  · rw [if_neg hanswer]

theorem filled_namespace_of_given {answer : Option String} (hgiven : ¬ d.Asks s) :
    (d.filled answer s).namespaceName = firstGiven [some s.namespaceName, d.namespaceName] := by
  change firstGiven ([some s.namespaceName, d.namespaceName] ++ [answer]) = _
  rw [firstGiven_append]
  by_cases hnone : firstGiven [some s.namespaceName, d.namespaceName] = ""
  · have hopen := firstGiven_eq_empty hnone
    rw [List.forall_mem_cons, List.forall_mem_singleton] at hopen
    exact absurd hopen hgiven
  · rw [if_neg hnone]

/-- Applied to a spec, defaults fill it in, and the platform is asked once or not at all. -/
theorem apply_eq (d : ElectionDefaults) (ambient : AmbientNamespace ω) (s : TimingSpec) (w : ω) :
    (d.apply ambient s w).value = d.filled (ambient w).value s ∧
      (d.apply ambient s w).world = if d.Asks s then (ambient w).world else w := by
  by_cases hasks : d.Asks s
  · have hresolve := resolveNamespace_of_open hasks.1 hasks.2 ambient
    rw [if_pos hasks, apply, hresolve]
    refine ⟨TimingSpec.ext ?_ (nameFor_eq d s) rfl rfl rfl, rfl⟩
    change (ambient w).value.getD s.namespaceName = _
    rw [filled_namespace_of_open hasks, hasks.1]
  · have hresolve := resolveNamespace_of_given hasks ambient
    rw [if_neg hasks, apply, hresolve, pure_bind]
    refine ⟨TimingSpec.ext ?_ (nameFor_eq d s) rfl rfl rfl, rfl⟩
    exact (filled_namespace_of_given hasks).symm

theorem apply_noted (d : ElectionDefaults) (number : Nat) (ambient : AmbientNamespace ω) (s : TimingSpec)
    (w : ω) (notes : List Nat) :
    (d.apply (ambient.noted number) s (w, notes)).value = (d.apply ambient s w).value ∧
      (d.apply (ambient.noted number) s (w, notes)).world =
        ((d.apply ambient s w).world, notes ++ if d.Asks s then [number] else []) := by
  obtain ⟨hvalue, hworld⟩ := d.apply_eq ambient s w
  obtain ⟨hnotedValue, hnotedWorld⟩ := d.apply_eq (ambient.noted number) s (w, notes)
  rw [hvalue, hworld, hnotedValue, hnotedWorld]
  refine ⟨rfl, ?_⟩
  by_cases hasks : d.Asks s
  · rw [if_pos hasks, if_pos hasks, if_pos hasks]
    rfl
  · rw [if_neg hasks, if_neg hasks, if_neg hasks, List.append_nil]

theorem filled_again (d : ElectionDefaults) (answer : Option String) (s : TimingSpec) :
    d.filled answer (d.filled answer s) = d.filled answer s := by
  have hnamespace : firstGiven [some (firstGiven [some s.namespaceName, d.namespaceName, answer]), d.namespaceName,
      answer] = firstGiven [some s.namespaceName, d.namespaceName, answer] := by
    rw [firstGiven_flatten]
    apply firstGiven_again
    intro source hsource
    exact List.mem_cons_of_mem _ hsource
  have hname : firstGiven [some (firstGiven [some s.name, d.name]), d.name] = firstGiven [some s.name, d.name] := by
    rw [firstGiven_flatten]
    apply firstGiven_again
    intro source hsource
    exact List.mem_cons_of_mem _ hsource
  have hdurations := (d.filled_stores answer s).resolve (s.resolve_isPositive d.preset) d.preset
  have htwice : d.filled answer (d.filled answer s) =
      let p := (d.filled answer s).resolve d.preset
      ⟨firstGiven [some (firstGiven [some s.namespaceName, d.namespaceName, answer]), d.namespaceName, answer],
        firstGiven [some (firstGiven [some s.name, d.name]), d.name],
        some p.leaseDuration, some p.renewDeadline, some p.retryPeriod⟩ := rfl
  rw [htwice, hdurations, hnamespace, hname]
  rfl

theorem apply_namespaceName (d : ElectionDefaults) (ambient : AmbientNamespace ω) (s : TimingSpec) (w : ω) :
    (d.apply ambient s w).value.namespaceName =
      firstGiven [some s.namespaceName, d.namespaceName, (ambient w).value] := by
  rw [(d.apply_eq ambient s w).1]
  rfl

theorem apply_name (d : ElectionDefaults) (ambient : AmbientNamespace ω) (s : TimingSpec) (w : ω) :
    (d.apply ambient s w).value.name = firstGiven [some s.name, d.name] := by
  rw [(d.apply_eq ambient s w).1]
  rfl

theorem apply_stores (d : ElectionDefaults) (ambient : AmbientNamespace ω) (s : TimingSpec) (w : ω) :
    (d.apply ambient s w).value.Stores (s.resolve d.preset) := by
  rw [(d.apply_eq ambient s w).1]
  exact d.filled_stores _ s

theorem apply_again (d : ElectionDefaults) {ambient : AmbientNamespace ω} {answer : Option String}
    (hanswer : ∀ v, (ambient v).value = answer) (s : TimingSpec) (w v : ω) :
    (d.apply ambient (d.apply ambient s w).value v).value = (d.apply ambient s w).value := by
  rw [(d.apply_eq ambient _ v).1, (d.apply_eq ambient s w).1, hanswer, hanswer, filled_again]

/-! ### Two layers -/

section TwoLayers

variable (d₁ d₂ : ElectionDefaults) (a₁ a₂ : AmbientNamespace ω) (s : TimingSpec) (w v : ω)

theorem apply_twice_namespaceName :
    (d₂.apply a₂ (d₁.apply a₁ s w).value v).value.namespaceName =
      firstGiven [some s.namespaceName, d₁.namespaceName, (a₁ w).value, d₂.namespaceName, (a₂ v).value] := by
  rw [apply_namespaceName, apply_namespaceName]
  exact firstGiven_flatten [some s.namespaceName, d₁.namespaceName, (a₁ w).value] _

theorem apply_twice_name :
    (d₂.apply a₂ (d₁.apply a₁ s w).value v).value.name = firstGiven [some s.name, d₁.name, d₂.name] := by
  rw [apply_name, apply_name]
  exact firstGiven_flatten [some s.name, d₁.name] _

theorem apply_twice_stores :
    (d₂.apply a₂ (d₁.apply a₁ s w).value v).value.Stores (s.resolve d₁.preset) := by
  have hfirst := d₁.apply_stores a₁ s w
  have hsecond := d₂.apply_stores a₂ (d₁.apply a₁ s w).value v
  rwa [hfirst.resolve (s.resolve_isPositive d₁.preset)] at hsecond

theorem apply_twice_noted :
    let first := d₁.apply a₁ s w
    let second := d₂.apply a₂ first.value first.world
    let noted := (d₁.apply (a₁.noted 1) s >>= d₂.apply (a₂.noted 2)) (w, [])
    noted.value = second.value ∧
      noted.world =
        (second.world, (if d₁.Asks s then [1] else []) ++ if d₂.Asks first.value then [2] else []) := by
  intro first second noted
  obtain ⟨hfirst, hfirstWorld⟩ := d₁.apply_noted 1 a₁ s w []
  let between := d₁.apply (a₁.noted 1) s (w, [])
  have hnoted : noted.value = (d₂.apply (a₂.noted 2) between.value between.world).value ∧
    noted.world = (d₂.apply (a₂.noted 2) between.value between.world).world := ⟨rfl, rfl⟩
  have hvalue : between.value = first.value := hfirst
  have hworld : between.world = (first.world, [] ++ if d₁.Asks s then [1] else []) := hfirstWorld
  rw [hnoted.1, hnoted.2, hvalue, hworld]
  exact d₂.apply_noted 2 a₂ first.value first.world _

end TwoLayers

end ElectionDefaults

open ElectionDefaults in
/-- **Precedence.** Of two layers of defaults the first comes before the second, after what the spec gives itself. The
durations are settled by the first layer, so no preset makes a difference any more. Each platform is asked once if the
texts before it name no namespace, and not at all otherwise. Applied twice, a layer adds nothing, and nothing that is
given is changed. -/
theorem defaults_layer_by_precedence (s : TimingSpec) (d₁ d₂ : ElectionDefaults) (a₁ a₂ : AmbientNamespace ω)
    (w : ω) :
    let first := d₁.apply a₁ s w
    let second := d₂.apply a₂ first.value first.world
    let t := second.value
    let p := s.resolve d₁.preset
    let noted := (d₁.apply (a₁.noted 1) s >>= d₂.apply (a₂.noted 2)) (w, [])
    (t.namespaceName = firstGiven [some s.namespaceName, d₁.namespaceName, (a₁ w).value, d₂.namespaceName,
        (a₂ first.world).value] ∧
      t.name = firstGiven [some s.name, d₁.name, d₂.name]) ∧
    (p.IsPositive ∧ first.value.Stores p ∧ t.Stores p ∧ (∀ preset, t.resolve preset = p) ∧
      ∀ (b : ConfigBuilder σ) (v : σ) (config : ElectionConfig σ), b.spec = t → (b.build v).value = .ok config →
        config.timing = p) ∧
    (noted.value = t ∧
      noted.world = (second.world, (if s.namespaceName = "" ∧ d₁.namespaceName.getD "" = "" then [1] else []) ++
        if first.value.namespaceName = "" ∧ d₂.namespaceName.getD "" = "" then [2] else [])) ∧
    (∀ answer, (∀ v, (a₁ v).value = answer) → (d₁.apply a₁ first.value first.world).value = first.value) ∧
    (s.namespaceName ≠ "" → t.namespaceName = s.namespaceName) ∧ (s.name ≠ "" → t.name = s.name) ∧
    (∀ d, s.leaseDuration = some d → t.storedLeaseDuration = some d) ∧
    (∀ d, s.renewDeadline = some d → t.storedRenewDeadline = some d) ∧
    ∀ d, s.retryPeriod = some d → t.storedRetryPeriod = some d := by
  intro first second t p noted
  have hp : p.IsPositive := s.resolve_isPositive d₁.preset
  have hstored : t.Stores p := apply_twice_stores d₁ d₂ a₁ a₂ s w first.world
  have hnamespace := apply_twice_namespaceName d₁ d₂ a₁ a₂ s w first.world
  have hname := apply_twice_name d₁ d₂ a₁ a₂ s w first.world
  refine ⟨⟨hnamespace, hname⟩, ⟨hp, d₁.apply_stores a₁ s w, hstored, hstored.resolve hp, ?_⟩,
    apply_twice_noted d₁ d₂ a₁ a₂ s w, ?_, ?_, ?_, ?_, ?_, ?_⟩
  · intro b v config hspec hbuild
    obtain ⟨events, client, -, -, -, rfl⟩ := ConfigBuilder.eq_of_build_ok hbuild
    change b.spec.resolve b.preset = p
    rw [hspec]
    exact hstored.resolve hp b.preset
  · exact fun answer hanswer => d₁.apply_again hanswer s w first.world
  · intro hgiven
    exact hnamespace.trans (by rw [firstGiven_cons, Option.getD_some, if_neg hgiven])
  · intro hgiven
    exact hname.trans (by rw [firstGiven_cons, Option.getD_some, if_neg hgiven])
  · intro d hgiven
    rw [hstored.leaseDuration]
    change some (s.leaseDuration.getD _) = _
    rw [hgiven, Option.getD_some]
  · intro d hgiven
    rw [hstored.renewDeadline]
    change some (s.renewDeadline.getD _) = _
    rw [hgiven, Option.getD_some]
  · intro d hgiven
    rw [hstored.retryPeriod]
    change some (s.retryPeriod.getD _) = _
    rw [hgiven, Option.getD_some]

def openSpec : TimingSpec := (TimingSpec.empty.withRenewDeadline .zero).withRetryPeriod (.ofSeconds 5)

theorem defaults_layer_by_precedence_openSpec :
    let d₁ : ElectionDefaults := ⟨.standard, some "", none⟩
    let d₂ : ElectionDefaults := ⟨.resourceConstrained, some "team-c", some "lock"⟩
    let a₁ : AmbientNamespace Nat := (Platform.answering (some "team-b")).counted
    let a₂ : AmbientNamespace Nat := Platform.absent.counted
    let first := d₁.apply a₁ openSpec 0
    let t := (d₂.apply a₂ first.value first.world).value
    let b := { Program.builder with spec := t, preset := .resourceConstrained }
    (∀ v, (a₁ v).value = some "team-b") ∧ (d₁.apply a₁ first.value first.world).value = first.value ∧
      (∃ config, (b.build .fresh).value = .ok config ∧ config.timing = openSpec.resolve .standard) ∧
      openSpec.retryPeriod = some (.ofSeconds 5) ∧ t.storedRetryPeriod = some (.ofSeconds 5) := by
  intro d₁ d₂ a₁ a₂ first t b
  obtain ⟨⟨hnamespace, hname⟩, ⟨-, -, -, -, htiming⟩, -, hagain, -, -, -, -, hretry⟩ :=
    @defaults_layer_by_precedence Nat Program openSpec d₁ d₂ a₁ a₂ 0
  have hanswer : ∀ v, (a₁ v).value = some "team-b" := fun _ => rfl
  have hgiven : openSpec.retryPeriod = some (.ofSeconds 5) := TimingSpec.given_some (by decide)
  have hvalid : b.spec.validate = .ok () := by
    apply TimingSpec.validate_of_named
    · exact fun hempty => absurd (hnamespace.symm.trans hempty) (by decide)
    · exact fun hempty => absurd (hname.symm.trans hempty) (by decide)
  have hconnect : (b.connect .fresh).value = .ok Program.acceptAll := rfl
  have hbuild := congrArg Ended.value (ConfigBuilder.build_of_connections hvalid hconnect rfl)
  exact ⟨hanswer, hagain _ hanswer, ⟨_, hbuild, htiming b .fresh _ rfl hbuild⟩, hgiven, hretry _ hgiven⟩

end LeaderLease
