import LeaderLease.Election.Builder
import LeaderLease.Proofs.Act.Basic

/-!
# What assembling a config comes to

There are five ways through the assembly, and each is one equation: two texts may be missing, either connection may
fail, or all goes well.
-/

namespace LeaderLease

variable {ω : Type}

namespace TimingSpec

theorem validate_of_missing_namespace {s : TimingSpec} (hnamespace : s.namespaceName = "") :
    s.validate = .error .namespaceRequired := if_pos hnamespace

theorem validate_of_missing_name {s : TimingSpec} (hnamespace : s.namespaceName ≠ "") (hname : s.name = "") :
    s.validate = .error .nameRequired := (if_neg hnamespace).trans (if_pos hname)

theorem validate_of_named {s : TimingSpec} (hnamespace : s.namespaceName ≠ "") (hname : s.name ≠ "") :
    s.validate = .ok () := (if_neg hnamespace).trans (if_neg hname)

end TimingSpec

namespace ConfigBuilder

variable {b : ConfigBuilder ω} {w : ω}

def timingWarning (b : ConfigBuilder ω) : List LogEvent :=
  if b.timing.isConsistent then [] else [.timingInconsistent b.timing]

theorem emitIf_timingInconsistent (b : ConfigBuilder ω) (w : ω) :
    Act.emitIf (!b.timing.isConsistent) (.timingInconsistent b.timing) w = ⟨(), w, b.timingWarning⟩ := by
  unfold timingWarning
  rw [Act.emitIf_apply]
  cases b.timing.isConsistent <;> rfl

theorem build_of_invalid {e : AssemblyError} (hinvalid : b.spec.validate = .error e) :
    b.build w = ⟨.error e, w, [.failed e.message]⟩ := by
  unfold build
  rw [Act.reportingFailure_apply, hinvalid]
  rfl

theorem build_of_first_failure {fault : Fault} (hvalid : b.spec.validate = .ok ())
    (hfirst : (b.connect w).value = .error fault) :
    b.build w = ⟨.error (.backendUnavailable fault), (b.connect w).world,
      b.timingWarning ++ (b.connect w).log ++ [.failed (AssemblyError.backendUnavailable fault).message]⟩ := by
  unfold build connectBoth
  rw [Act.reportingFailure_apply, hvalid]
  simp only [Act.bind_apply, emitIf_timingInconsistent, hfirst, Act.pure_apply, Act.failureReport, List.append_nil,
    List.append_assoc]

theorem build_of_second_failure {events : Transport ω} {fault : Fault} (hvalid : b.spec.validate = .ok ())
    (hfirst : (b.connect w).value = .ok events)
    (hsecond : (b.connect (b.connect w).world).value = .error fault) :
    b.build w = ⟨.error (.backendUnavailable fault), (b.connect (b.connect w).world).world,
      b.timingWarning ++ ((b.connect w).log ++ (b.connect (b.connect w).world).log) ++
        [.failed (AssemblyError.backendUnavailable fault).message]⟩ := by
  unfold build connectBoth
  rw [Act.reportingFailure_apply, hvalid]
  simp only [Act.bind_apply, emitIf_timingInconsistent, hfirst, hsecond, Act.pure_apply, Act.failureReport,
    List.append_nil, List.append_assoc]

theorem build_of_connections {events client : Transport ω} (hvalid : b.spec.validate = .ok ())
    (hfirst : (b.connect w).value = .ok events)
    (hsecond : (b.connect (b.connect w).world).value = .ok client) :
    b.build w =
      let resolved := b.resolver.resolve b.identity (b.connect (b.connect w).world).world
      ⟨.ok (.ofLock (b.lock events client resolved.value) b.timing b.callbacks), resolved.world,
        b.timingWarning ++ ((b.connect w).log ++ (b.connect (b.connect w).world).log) ++
          (resolved.log ++ [.assembled resolved.value b.timing])⟩ := by
  unfold build connectBoth assemble
  rw [Act.reportingFailure_apply, hvalid]
  simp only [Act.bind_apply, emitIf_timingInconsistent, hfirst, hsecond, Act.pure_apply, Act.emit_apply,
    Act.failureReport, List.append_nil, List.append_assoc]

theorem eq_of_build_ok {config : ElectionConfig ω} (hbuild : (b.build w).value = .ok config) :
    ∃ events client, b.spec.validate = .ok () ∧ (b.connect w).value = .ok events ∧
      (b.connect (b.connect w).world).value = .ok client ∧
      config = .ofLock
        (b.lock events client (b.resolver.resolve b.identity (b.connect (b.connect w).world).world).value)
        b.timing b.callbacks := by
  cases hvalid : b.spec.validate with
  | error e =>
      rw [build_of_invalid hvalid] at hbuild
      cases hbuild
  | ok _ =>
      cases hfirst : (b.connect w).value with
      | error fault =>
          rw [build_of_first_failure hvalid hfirst] at hbuild
          cases hbuild
      | ok events =>
          cases hsecond : (b.connect (b.connect w).world).value with
          | error fault =>
              rw [build_of_second_failure hvalid hfirst hsecond] at hbuild
              cases hbuild
          | ok client =>
              rw [build_of_connections hvalid hfirst hsecond] at hbuild
              exact ⟨events, client, rfl, rfl, rfl, (Except.ok.inj hbuild).symm⟩

end ConfigBuilder

end LeaderLease
