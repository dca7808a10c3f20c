import LeaderLease.Proofs.Act.Basic

/-!
# Acts that match each other

Two acts match when they do the same in worlds that are alike, with values that are alike and logs that are related as
they should be. Sequences of matching acts match, whatever relation it is, as long as logs can be put together in it.
-/

namespace LeaderLease

variable {σ τ ω α β γ δ ε : Type}

/-- A relation of logs that is kept when logs are continued. -/
structure LogRelation where
  rel : List LogEvent → List LogEvent → Prop
  nil : rel [] []
  append : ∀ {a b c d}, rel a b → rel c d → rel (a ++ c) (b ++ d)

namespace LogRelation

def any : LogRelation := ⟨fun _ _ => True, trivial, fun _ _ => trivial⟩

/-- The first log is what is kept of the second. -/
def filtered (keep : LogEvent → Bool) : LogRelation where
  rel a b := a = b.filter keep
  nil := rfl
  append h h' := by rw [h, h', List.filter_append]

end LogRelation

/-- A part that worlds have in common when they are alike, and that may change without making them unlike. -/
structure Part.Common (part : Part σ ω) (S : σ → σ → Prop) : Prop where
  get : ∀ s t, S s t → part.get s = part.get t
  set : ∀ s t w, S s t → S (part.set w s) (part.set w t)

theorem Part.Common.trans {outer : Part σ τ} {S : σ → σ → Prop} (houter : outer.Common S) (inner : Part τ ω) :
    (outer.trans inner).Common S where
  get s t hst := congrArg inner.get (houter.get s t hst)
  set s t w hst := by
    change S (outer.set (inner.set w (outer.get s)) s) (outer.set (inner.set w (outer.get t)) t)
    rw [houter.get s t hst]
    exact houter.set s t _ hst

namespace Act

structure Matches (L : LogRelation) (V : α → β → Prop) (S : σ → τ → Prop) (a : Act σ α) (b : Act τ β) : Prop where
  value : ∀ s t, S s t → V (a s).value (b t).value
  world : ∀ s t, S s t → S (a s).world (b t).world
  log : ∀ s t, S s t → L.rel (a s).log (b t).log

/-- The act's log is related to itself, so that the act matches itself. -/
def Steady (L : LogRelation) (a : Act σ α) : Prop := ∀ s, L.rel (a s).log (a s).log

variable {L : LogRelation}

theorem Steady.matches {a : Act σ α} (ha : Steady L a) : Matches L Eq Eq a a where
  value s t hst := by rw [hst]
  world s t hst := by rw [hst]
  log s t hst := by
    subst hst
    exact ha s

theorem steady_of_log {a : Act σ α} (hsilent : ∀ s, (a s).log = []) : Steady L a := by
  intro s
  rw [hsilent]
  exact L.nil

variable {V : α → β → Prop} {W : γ → δ → Prop} {S : σ → τ → Prop}

theorem matches_pure {x : α} {y : β} (hxy : V x y) : Matches L V S (pure x) (pure y) where
  value _ _ _ := hxy
  world _ _ hst := hst
  log _ _ _ := L.nil

theorem Matches.bind {a : Act σ α} {b : Act τ β} {f : α → Act σ γ} {g : β → Act τ δ} (ha : Matches L V S a b)
    (hf : ∀ x y, V x y → Matches L W S (f x) (g y)) : Matches L W S (a >>= f) (b >>= g) where
  value s t hst := (hf _ _ (ha.value s t hst)).value _ _ (ha.world s t hst)
  world s t hst := (hf _ _ (ha.value s t hst)).world _ _ (ha.world s t hst)
  log s t hst := by
    have hrest := (hf _ _ (ha.value s t hst)).log _ _ (ha.world s t hst)
    exact L.append (ha.log s t hst) hrest

theorem Matches.bind_same {a : Act σ α} {b : Act τ α} {f : α → Act σ γ} {g : α → Act τ δ} (ha : Matches L Eq S a b)
    (hf : ∀ x, Matches L W S (f x) (g x)) : Matches L W S (a >>= f) (b >>= g) := by
  apply ha.bind
  rintro x _ rfl
  exact hf x

theorem Matches.weaken {V' : α → β → Prop} {a : Act σ α} {b : Act τ β} (ha : Matches L V S a b)
    (hV : ∀ x y, V x y → V' x y) : Matches L V' S a b where
  value s t hst := hV _ _ (ha.value s t hst)
  world := ha.world
  log := ha.log

theorem matches_look {f : σ → α} {g : τ → β} (hfg : ∀ s t, S s t → V (f s) (g t)) :
    Matches L V S (look f) (look g) where
  value s t hst := hfg s t hst
  world _ _ hst := hst
  log _ _ _ := L.nil

theorem matches_change {f : σ → σ} {g : τ → τ} (hfg : ∀ s t, S s t → S (f s) (g t)) :
    Matches L Eq S (change f) (change g) where
  value _ _ _ := rfl
  world s t hst := hfg s t hst
  log _ _ _ := L.nil

theorem matches_emit {e : LogEvent} (he : L.rel [e] [e]) : Matches L Eq S (emit e) (emit e) where
  value _ _ _ := rfl
  world _ _ hst := hst
  log _ _ _ := he

theorem matches_emitIf (wanted : Bool) {e : LogEvent} (he : L.rel [e] [e]) :
    Matches L Eq S (emitIf wanted e) (emitIf wanted e) := by
  cases wanted with
  | true => exact matches_emit he
  | false => exact matches_pure rfl

theorem Matches.on {S : σ → σ → Prop} {part : Part σ ω} {a : Act ω α} {b : Act ω β} (ha : Matches L V Eq a b)
    (hpart : part.Common S) : Matches L V S (a.on part) (b.on part) where
  value s t hst := ha.value _ _ (hpart.get s t hst)
  world s t hst := by
    have hworld := ha.world _ _ (hpart.get s t hst)
    rw [on_apply, on_apply, hworld]
    exact hpart.set s t _ hst
  log s t hst := ha.log _ _ (hpart.get s t hst)

/-- Results of which both are there, or the same failure is in place of both. -/
inductive SameEnd (V : α → β → Prop) : Except ε α → Except ε β → Prop
  | ok (x : α) (y : β) (hxy : V x y) : SameEnd V (.ok x) (.ok y)
  | error (e : ε) : SameEnd V (.error e) (.error e)

theorem sameEnd_eq {x y : Except ε α} : SameEnd Eq x y ↔ x = y := by
  constructor
  · rintro (⟨_, _, rfl⟩ | _) <;> rfl
  · rintro rfl
    cases x with
    | ok value => exact .ok value value rfl
    | error e => exact .error e

theorem Matches.reportingFailure {message : ε → String} {a : Act σ (Except ε α)} {b : Act τ (Except ε β)}
    (ha : Matches L (SameEnd V) S a b) (hfailed : ∀ reason, L.rel [.failed reason] [.failed reason]) :
    Matches L (SameEnd V) S (reportingFailure message a) (reportingFailure message b) := by
  apply ha.bind
  rintro _ _ (⟨x, y, hxy⟩ | e)
  · exact matches_pure (.ok x y hxy)
  · apply (matches_emit (hfailed (message e))).bind_same
    intro _
    exact matches_pure (.error e)

end Act

end LeaderLease
