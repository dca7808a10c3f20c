import LeaderLease.Log

/-!
Acts: what a part of the system does to its surroundings. An act runs in a world that it may look at and change, ends
with a value, and leaves a log. The world is a parameter, so that what is said of an act holds for any backend, host
and application around it.
-/

namespace LeaderLease

structure Ended (ω α : Type) where
  value : α
  world : ω
  log : List LogEvent

/-- Something that is done in a world of type `ω`. -/
def Act (ω α : Type) : Type := ω → Ended ω α

namespace Act

variable {ω σ α β : Type}

@[ext]
theorem ext {a b : Act ω α} (h : ∀ w, a w = b w) : a = b := funext h

instance : Monad (Act ω) where
  pure a := fun w => ⟨a, w, []⟩
  bind a f := fun w =>
    let first := a w
    let second := f first.value first.world
    ⟨second.value, second.world, first.log ++ second.log⟩

@[simp]
theorem pure_apply (a : α) (w : ω) : (pure a : Act ω α) w = ⟨a, w, []⟩ := rfl

@[simp]
theorem bind_apply (a : Act ω α) (f : α → Act ω β) (w : ω) :
    (a >>= f) w =
      ⟨(f (a w).value (a w).world).value, (f (a w).value (a w).world).world,
        (a w).log ++ (f (a w).value (a w).world).log⟩ := rfl

instance : LawfulMonad (Act ω) :=
  LawfulMonad.mk' _
    (by
      intro α a
      ext w
      show Ended.mk (a w).value (a w).world ((a w).log ++ []) = a w
      rw [List.append_nil])
    (by
      intro α β a f
      ext w
      rfl)
    (by
      intro α β γ a f g
      ext w
      simp)

def look (f : ω → α) : Act ω α := fun w => ⟨f w, w, []⟩

def change (f : ω → ω) : Act ω Unit := fun w => ⟨(), f w, []⟩

def emit (e : LogEvent) : Act ω Unit := fun w => ⟨(), w, [e]⟩

def emitIf (wanted : Bool) (e : LogEvent) : Act ω Unit := fun w => ⟨(), w, if wanted then [e] else []⟩

/-- An act whose failure is logged as its last event. -/
def reportingFailure {ε : Type} (message : ε → String) (a : Act ω (Except ε α)) : Act ω (Except ε α) := do
  let result ← a
  match result with
  | .ok value => return .ok value
  | .error e => do
    emit (.failed (message e))
    return .error e

end Act

/-- A world of type `ω` as a part of a greater one. -/
structure Part (σ ω : Type) where
  get : σ → ω
  set : ω → σ → σ
  get_set : ∀ w s, get (set w s) = w
  set_get : ∀ s, set (get s) s = s
  set_set : ∀ v w s, set v (set w s) = set v s

namespace Part

variable {ρ σ ω : Type}

def whole : Part ω ω := ⟨id, fun w _ => w, fun _ _ => rfl, fun _ => rfl, fun _ _ _ => rfl⟩

def trans (outer : Part ρ σ) (inner : Part σ ω) : Part ρ ω where
  get r := inner.get (outer.get r)
  set w r := outer.set (inner.set w (outer.get r)) r
  get_set w r := by rw [outer.get_set, inner.get_set]
  set_get r := by rw [inner.set_get, outer.set_get]
  set_set v w r := by rw [outer.get_set, inner.set_set, outer.set_set]

end Part

namespace Act

variable {σ ω α : Type}

/-- An act in the greater world that leaves all but the part as it is. -/
def on (part : Part σ ω) (a : Act ω α) : Act σ α := fun s =>
  let ended := a (part.get s)
  ⟨ended.value, part.set ended.world s, ended.log⟩

end Act

end LeaderLease
