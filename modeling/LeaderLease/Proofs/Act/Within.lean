import LeaderLease.Proofs.Act.Basic

/-!
# Acts within a part of the world

An act is within a part when it changes nothing else, and when nothing else decides what comes of it, the log apart.
-/

namespace LeaderLease

variable {ρ σ ω α β ε : Type}

namespace Part

def fst : Part (σ × ω) σ where
  get := Prod.fst
  set w s := (w, s.2)
  get_set _ _ := rfl
  set_get _ := rfl
  set_set _ _ _ := rfl

def snd : Part (σ × ω) ω where
  get := Prod.snd
  set w s := (s.1, w)
  get_set _ _ := rfl
  set_get _ := rfl
  set_set _ _ _ := rfl

end Part

namespace Act

structure Within (part : Part σ ω) (a : Act σ α) : Prop where
  frame : ∀ s, ∃ w, (a s).world = part.set w s
  value : ∀ s t, part.get s = part.get t → (a s).value = (a t).value
  world : ∀ s t, part.get s = part.get t → part.get (a s).world = part.get (a t).world

variable {part : Part σ ω}

theorem within_pure (x : α) : Within part (pure x : Act σ α) where
  frame s := ⟨part.get s, (part.set_get s).symm⟩
  value _ _ _ := rfl
  world _ _ hget := hget

theorem Within.bind {a : Act σ α} {f : α → Act σ β} (ha : Within part a) (hf : ∀ x, Within part (f x)) :
    Within part (a >>= f) where
  frame s := by
    obtain ⟨v, hv⟩ := ha.frame s
    obtain ⟨w, hw⟩ := (hf (a s).value).frame (a s).world
    refine ⟨w, ?_⟩
    rw [bind_apply, hw, hv, part.set_set]
  value s t hget := by
    have hvalue := ha.value s t hget
    have hworld := ha.world s t hget
    rw [bind_apply, bind_apply, hvalue]
    exact (hf _).value _ _ hworld
  world s t hget := by
    have hvalue := ha.value s t hget
    have hworld := ha.world s t hget
    rw [bind_apply, bind_apply, hvalue]
    exact (hf _).world _ _ hworld

theorem within_emit (e : LogEvent) : Within part (emit e : Act σ Unit) where
  frame s := ⟨part.get s, (part.set_get s).symm⟩
  value _ _ _ := rfl
  world _ _ hget := hget

theorem within_look {f : σ → α} (hf : ∀ s t, part.get s = part.get t → f s = f t) :
    Within part (look f) where
  frame s := ⟨part.get s, (part.set_get s).symm⟩
  value s t hget := hf s t hget
  world _ _ hget := hget

theorem within_on (a : Act ω α) : Within part (a.on part) where
  frame s := ⟨(a (part.get s)).world, rfl⟩
  value s t hget := by rw [on_apply, on_apply, hget]
  world s t hget := by rw [on_apply, on_apply, part.get_set, part.get_set, hget]

theorem Within.of_trans {outer : Part ρ σ} {a : Act ρ α} (ha : Within (outer.trans part) a) : Within outer a where
  frame s := by
    obtain ⟨w, hw⟩ := ha.frame s
    exact ⟨part.set w (outer.get s), hw⟩
  value s t hget := ha.value s t (congrArg part.get hget)
  world s t hget := by
    obtain ⟨v, hv⟩ := ha.frame s
    obtain ⟨w, hw⟩ := ha.frame t
    have hsame := ha.world s t (congrArg part.get hget)
    rw [hv, hw, (outer.trans part).get_set, (outer.trans part).get_set] at hsame
    rw [hv, hw]
    change outer.get (outer.set (part.set v (outer.get s)) s) = outer.get (outer.set (part.set w (outer.get t)) t)
    rw [outer.get_set, outer.get_set, hsame, hget]

theorem Within.on {outer : Part ρ σ} {a : Act σ α} (ha : Within part a) : Within (outer.trans part) (a.on outer) where
  frame s := by
    obtain ⟨w, hw⟩ := ha.frame (outer.get s)
    refine ⟨w, ?_⟩
    rw [on_apply, hw]
    rfl
  value s t hget := ha.value _ _ hget
  world s t hget := by
    have hworld := ha.world _ _ hget
    change part.get (outer.get (outer.set _ s)) = part.get (outer.get (outer.set _ t))
    rw [outer.get_set, outer.get_set, hworld]

theorem Within.reportingFailure {message : ε → String} {a : Act σ (Except ε α)} (ha : Within part a) :
    Within part (reportingFailure message a) where
  frame s := by
    rw [reportingFailure_apply]
    exact ha.frame s
  value s t hget := by
    rw [reportingFailure_apply, reportingFailure_apply]
    exact ha.value s t hget
  world s t hget := by
    rw [reportingFailure_apply, reportingFailure_apply]
    exact ha.world s t hget

end Act

end LeaderLease
