import LeaderLease.Act

namespace LeaderLease.Act

variable {ω σ α β ε : Type}

@[simp]
theorem look_apply (f : ω → α) (w : ω) : look f w = ⟨f w, w, []⟩ := rfl

theorem look_bind (f : ω → α) (k : α → Act ω β) (w : ω) : (look f >>= k) w = k (f w) w := rfl

@[simp]
theorem emit_apply (e : LogEvent) (w : ω) : emit e w = ⟨(), w, [e]⟩ := rfl

@[simp]
theorem emitIf_apply (wanted : Bool) (e : LogEvent) (w : ω) :
    emitIf wanted e w = ⟨(), w, if wanted then [e] else []⟩ := rfl

theorem on_apply (part : Part σ ω) (a : Act ω α) (s : σ) :
    a.on part s = ⟨(a (part.get s)).value, part.set (a (part.get s)).world s, (a (part.get s)).log⟩ := rfl

def failureReport (message : ε → String) : Except ε α → List LogEvent
  | .ok _ => []
  | .error e => [.failed (message e)]

theorem reportingFailure_apply (message : ε → String) (a : Act ω (Except ε α)) (w : ω) :
    reportingFailure message a w =
      ⟨(a w).value, (a w).world, (a w).log ++ failureReport message (a w).value⟩ := by
  unfold reportingFailure
  rw [bind_apply]
  cases (a w).value <;> rfl

end LeaderLease.Act
