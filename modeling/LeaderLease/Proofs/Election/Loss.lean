import LeaderLease.Election.LossGuard
import LeaderLease.Proofs.Election.Outcome

/-!
# The loss of leadership is acted on once

Threads that share a guard take their steps in any order. At most one of them is ever between its swap and the end of
its report: the one that has found the guard unset. So the run as a whole is in one of four phases, which follow each
other once, and the log and the world tell which one it is. What a thread has left to do becomes less with each of its
steps and never more, so that every report comes to its end if its thread is scheduled often enough.
-/

namespace LeaderLease

variable {ω : Type} {terminate : Act ω Unit}

theorem Guarded.onStoppedLeading_of_unfired (w : ω) :
    onStoppedLeading terminate ⟨false, w⟩ =
      ⟨(), ⟨true, (terminate w).world⟩, .leadershipLost :: (terminate w).log⟩ := rfl

namespace LossReport

def Idle (callers : List Caller) : Prop := ∀ caller ∈ callers, caller.stage = .outside

/-- A thread is at some stage, and no other is in the middle of a report. -/
structure OnlyAt (i : Nat) (stage : Stage) (callers : List Caller) : Prop where
  here : ∃ reports, callers[i]? = some ⟨stage, reports⟩
  others : ∀ j caller, callers[j]? = some caller → j ≠ i → caller.stage = .outside

section Callers

variable {callers : List Caller} {caller : Caller} {i j : Nat} {stage : Stage}

theorem Idle.stage_eq (h : Idle callers) (hcaller : callers[i]? = some caller) : caller.stage = .outside :=
  h caller (List.mem_of_getElem? hcaller)

theorem OnlyAt.eq_of_busy (h : OnlyAt i stage callers) (hcaller : callers[j]? = some caller)
    (hbusy : caller.stage ≠ .outside) : j = i ∧ caller.stage = stage := by
  by_cases hij : j = i
  · subst hij
    obtain ⟨reports, hhere⟩ := h.here
    rw [hhere] at hcaller
    obtain rfl := Option.some.inj hcaller
    exact ⟨rfl, rfl⟩
  · exact absurd (h.others j caller hcaller hij) hbusy

theorem OnlyAt.not_idle (h : OnlyAt i stage callers) (hstage : stage ≠ .outside) : ¬ Idle callers := by
  intro hidle
  obtain ⟨reports, hhere⟩ := h.here
  exact hstage (hidle.stage_eq hhere)

theorem onlyAt_set (hcaller : callers[i]? = some caller)
    (hothers : ∀ j other, callers[j]? = some other → j ≠ i → other.stage = .outside) (stage : Stage) (reports : Nat) :
    OnlyAt i stage (callers.set i ⟨stage, reports⟩) where
  here := by
    obtain ⟨hi, -⟩ := List.getElem?_eq_some_iff.mp hcaller
    exact ⟨reports, List.getElem?_set_self hi⟩
  others j other hother hij := by
    rw [List.getElem?_set_ne (Ne.symm hij)] at hother
    exact hothers j other hother hij

theorem OnlyAt.idle (h : OnlyAt i .outside callers) : Idle callers := by
  intro caller hmem
  obtain ⟨j, hj⟩ := List.mem_iff_getElem?.mp hmem
  by_cases hbusy : caller.stage = .outside
  · exact hbusy
  · exact (h.eq_of_busy hj hbusy).2

theorem Idle.onlyAt_set (h : Idle callers) (hcaller : callers[i]? = some caller) (stage : Stage) (reports : Nat) :
    OnlyAt i stage (callers.set i ⟨stage, reports⟩) :=
  LossReport.onlyAt_set hcaller (fun _ _ hother _ => h.stage_eq hother) stage reports

theorem OnlyAt.move (h : OnlyAt i stage callers) (next : Stage) (reports : Nat) :
    OnlyAt i next (callers.set i ⟨next, reports⟩) := by
  obtain ⟨_, hhere⟩ := h.here
  exact onlyAt_set hhere h.others next reports

theorem OnlyAt.ne_of_outside {reports : Nat} (h : OnlyAt i stage callers) (hstage : stage ≠ .outside)
    (hcaller : callers[j]? = some ⟨.outside, reports⟩) : j ≠ i := by
  rintro rfl
  obtain ⟨_, hhere⟩ := h.here
  rw [hhere] at hcaller
  exact hstage (congrArg Caller.stage (Option.some.inj hcaller))

theorem OnlyAt.late (h : OnlyAt i stage callers) (hij : j ≠ i) (reports : Nat) :
    OnlyAt i stage (callers.set j ⟨.outside, reports⟩) where
  here := by
    rw [List.getElem?_set_ne hij]
    exact h.here
  others k other hother hki := by
    by_cases hkj : j = k
    · subst hkj
      rw [List.getElem?_set, if_pos rfl] at hother
      split at hother
      · obtain rfl := Option.some.inj hother
        rfl
      · cases hother
    · rw [List.getElem?_set_ne hkj] at hother
      exact h.others k other hother hki

theorem idle_waiting (reports : List Nat) : Idle (reports.map (⟨.outside, ·⟩)) := by
  intro caller hmem
  obtain ⟨n, -, rfl⟩ := List.mem_map.mp hmem
  rfl

end Callers

/-- The steps that a thread still has to take at most. Before the guard is set it may have to warn and to terminate. -/
def Caller.work (fired : Bool) : Caller → Nat
  | ⟨.outside, 0⟩ => 0
  | ⟨.outside, reports + 1⟩ => if fired then reports + 1 else reports + 3
  | ⟨.won, reports⟩ => reports + 2
  | ⟨.warned, reports⟩ => reports + 1

theorem Caller.work_outside_lt (reports : Nat) :
    Caller.work true ⟨.outside, reports⟩ < Caller.work true ⟨.outside, reports + 1⟩ := by
  cases reports <;> exact Nat.lt_succ_self _

theorem Caller.work_le_of_fired (fired : Bool) (caller : Caller) : caller.work true ≤ caller.work fired := by
  obtain ⟨stage, reports⟩ := caller
  cases stage with
  | outside =>
      cases reports with
      | zero => exact Nat.le_refl 0
      | succ reports =>
          cases fired with
          | true => exact Nat.le_refl _
          | false => exact Nat.le_add_right (reports + 1) 2
  | won | warned => exact Nat.le_refl _

theorem Caller.eq_of_work_eq_zero {fired : Bool} {caller : Caller} (h : caller.work fired = 0) :
    caller = ⟨.outside, 0⟩ := by
  obtain ⟨stage, reports⟩ := caller
  cases stage with
  | outside =>
      cases reports with
      | zero => rfl
      | succ reports => cases fired <;> cases h
  | won | warned => cases h

namespace Crowd

/-- Everything that the step of a thread can come to. -/
inductive Stepped (terminate : Act ω Unit) (i : Nat) : Crowd ω → Crowd ω → List LogEvent → Prop
  | rests (c : Crowd ω) (hdone : ∀ caller ∈ c.callers[i]?, caller = ⟨.outside, 0⟩) : Stepped terminate i c c []
  | comesLate (w : ω) {callers : List Caller} {reports : Nat}
      (hcaller : callers[i]? = some ⟨.outside, reports + 1⟩) :
      Stepped terminate i ⟨⟨true, w⟩, callers⟩ ⟨⟨true, w⟩, callers.set i ⟨.outside, reports⟩⟩ []
  | wins (w : ω) {callers : List Caller} {reports : Nat} (hcaller : callers[i]? = some ⟨.outside, reports + 1⟩) :
      Stepped terminate i ⟨⟨false, w⟩, callers⟩ ⟨⟨true, w⟩, callers.set i ⟨.won, reports⟩⟩ []
  | warns (g : Guarded ω) {callers : List Caller} {reports : Nat} (hcaller : callers[i]? = some ⟨.won, reports⟩) :
      Stepped terminate i ⟨g, callers⟩ ⟨g, callers.set i ⟨.warned, reports⟩⟩ [.leadershipLost]
  | terminates (g : Guarded ω) {callers : List Caller} {reports : Nat}
      (hcaller : callers[i]? = some ⟨.warned, reports⟩) :
      Stepped terminate i ⟨g, callers⟩
        ⟨{ g with world := (terminate g.world).world }, callers.set i ⟨.outside, reports⟩⟩ (terminate g.world).log

theorem step_of_caller {i : Nat} {c : Crowd ω} {caller : Caller} (hcaller : c.callers[i]? = some caller) :
    step terminate i c = advance terminate i caller c := by
  unfold step
  rw [Act.look_bind, hcaller]

section Stages

variable {i reports : Nat} {callers : List Caller}

theorem step_late (w : ω) (hcaller : callers[i]? = some ⟨.outside, reports + 1⟩) :
    step terminate i ⟨⟨true, w⟩, callers⟩ = ⟨(), ⟨⟨true, w⟩, callers.set i ⟨.outside, reports⟩⟩, []⟩ := by
  rw [step_of_caller hcaller]
  rfl

theorem step_wins (w : ω) (hcaller : callers[i]? = some ⟨.outside, reports + 1⟩) :
    step terminate i ⟨⟨false, w⟩, callers⟩ = ⟨(), ⟨⟨true, w⟩, callers.set i ⟨.won, reports⟩⟩, []⟩ := by
  rw [step_of_caller hcaller]
  rfl

theorem step_warns (g : Guarded ω) (hcaller : callers[i]? = some ⟨.won, reports⟩) :
    step terminate i ⟨g, callers⟩ = ⟨(), ⟨g, callers.set i ⟨.warned, reports⟩⟩, [.leadershipLost]⟩ := by
  rw [step_of_caller hcaller]
  rfl

theorem step_terminates (g : Guarded ω) (hcaller : callers[i]? = some ⟨.warned, reports⟩) :
    step terminate i ⟨g, callers⟩ =
      ⟨(), ⟨{ g with world := (terminate g.world).world }, callers.set i ⟨.outside, reports⟩⟩,
        (terminate g.world).log⟩ := by
  rw [step_of_caller hcaller]
  change (⟨(), _, (terminate g.world).log ++ []⟩ : Ended (Crowd ω) Unit) = _
  rw [List.append_nil]
  rfl

end Stages

theorem step_stepped (terminate : Act ω Unit) (i : Nat) (c : Crowd ω) :
    Stepped terminate i c (step terminate i c).world (step terminate i c).log := by
  obtain ⟨⟨fired, w⟩, callers⟩ := c
  cases hcaller : callers[i]? with
  | none =>
      unfold step
      rw [Act.look_bind, hcaller]
      refine .rests _ fun caller hmem => ?_
      rw [hcaller] at hmem
      cases hmem
  | some caller =>
      obtain ⟨stage, reports⟩ := caller
      cases stage with
      | outside =>
          cases reports with
          | zero =>
              rw [step_of_caller hcaller]
              refine .rests _ fun caller hmem => ?_
              rw [hcaller] at hmem
              exact (Option.some.inj hmem).symm
          | succ reports =>
              cases fired with
              | true =>
                  rw [step_late w hcaller]
                  exact .comesLate w hcaller
              | false =>
                  rw [step_wins w hcaller]
                  exact .wins w hcaller
      | won =>
          rw [step_warns _ hcaller]
          exact .warns _ hcaller
      | warned =>
          rw [step_terminates _ hcaller]
          exact .terminates _ hcaller

theorem Stepped.fired {i : Nat} {c c' : Crowd ω} {log : List LogEvent} (h : Stepped terminate i c c' log)
    (hfired : c.guarded.fired = true) : c'.guarded.fired = true := by
  cases h with
  | rests => exact hfired
  | comesLate => rfl
  | wins => rfl
  | warns => exact hfired
  | terminates => exact hfired

theorem Stepped.length_eq {i : Nat} {c c' : Crowd ω} {log : List LogEvent} (h : Stepped terminate i c c' log) :
    c'.callers.length = c.callers.length := by
  cases h with
  | rests => rfl
  | comesLate | wins | warns | terminates => exact List.length_set

/-- The phases of a run that began in the world `w`: what has been logged so far goes with the state that has been
reached. -/
inductive Reached (terminate : Act ω Unit) (w : ω) : Crowd ω → List LogEvent → Prop
  | quiet {callers : List Caller} (hidle : Idle callers) : Reached terminate w ⟨⟨false, w⟩, callers⟩ []
  | won {callers : List Caller} (winner : Nat) (hwinner : OnlyAt winner .won callers) :
      Reached terminate w ⟨⟨true, w⟩, callers⟩ []
  | warned {callers : List Caller} (winner : Nat) (hwinner : OnlyAt winner .warned callers) :
      Reached terminate w ⟨⟨true, w⟩, callers⟩ [.leadershipLost]
  | ended {callers : List Caller} (hidle : Idle callers) :
      Reached terminate w ⟨⟨true, (terminate w).world⟩, callers⟩ (.leadershipLost :: (terminate w).log)

variable {w : ω} {c c' : Crowd ω} {log more : List LogEvent} {i : Nat}

theorem Reached.step (h : Reached terminate w c log) (hstep : Stepped terminate i c c' more) :
    Reached terminate w c' (log ++ more) := by
  cases hstep with
  | rests =>
      rw [List.append_nil]
      exact h
  | comesLate _ hcaller =>
      rw [List.append_nil]
      cases h with
      | won winner hwinner => exact .won winner (hwinner.late (hwinner.ne_of_outside Stage.noConfusion hcaller) _)
      | warned winner hwinner =>
          exact .warned winner (hwinner.late (hwinner.ne_of_outside Stage.noConfusion hcaller) _)
      | ended hidle => exact .ended (hidle.onlyAt_set hcaller .outside _).idle
  | wins _ hcaller =>
      cases h with
      | quiet hidle => exact .won i (hidle.onlyAt_set hcaller .won _)
  | warns _ hcaller =>
      cases h with
      | quiet hidle => exact nomatch hidle.stage_eq hcaller
      | won winner hwinner =>
          obtain ⟨rfl, -⟩ := hwinner.eq_of_busy hcaller Stage.noConfusion
          exact .warned i (hwinner.move .warned _)
      | warned winner hwinner => exact nomatch (hwinner.eq_of_busy hcaller Stage.noConfusion).2
      | ended hidle => exact nomatch hidle.stage_eq hcaller
  | terminates _ hcaller =>
      cases h with
      | quiet hidle => exact nomatch hidle.stage_eq hcaller
      | won winner hwinner => exact nomatch (hwinner.eq_of_busy hcaller Stage.noConfusion).2
      | warned winner hwinner =>
          obtain ⟨rfl, -⟩ := hwinner.eq_of_busy hcaller Stage.noConfusion
          exact .ended (hwinner.move .outside _).idle
      | ended hidle => exact nomatch hidle.stage_eq hcaller

theorem Reached.idle_of_unfired (h : Reached terminate w c log) (hunfired : c.guarded.fired = false) :
    Idle c.callers := by
  cases h with
  | quiet hidle => exact hidle
  | won | warned | ended => cases hunfired

/-- The steps that the thread with this number still has to take at most. -/
def left (c : Crowd ω) (i : Nat) : Nat := (c.callers[i]?.map (Caller.work c.guarded.fired)).getD 0

theorem left_of_caller {caller : Caller} (hcaller : c.callers[i]? = some caller) :
    c.left i = caller.work c.guarded.fired := by
  unfold left
  rw [hcaller]
  rfl

theorem left_eq_zero_of_done {i : Nat} (hdone : ∀ caller ∈ c.callers[i]?, caller = ⟨.outside, 0⟩) :
    c.left i = 0 := by
  unfold left
  cases hcaller : c.callers[i]? with
  | none => rfl
  | some caller =>
      rw [hdone caller hcaller]
      rfl

theorem left_waiting_le {g : Guarded ω} {reports schedule : List Nat} (hunfired : g.fired = false)
    (henough : ∀ i n, reports[i]? = some (n + 1) → n + 3 ≤ schedule.count i) (i : Nat) :
    (waiting g reports).left i ≤ schedule.count i := by
  unfold left waiting
  dsimp only
  rw [List.getElem?_map, hunfired]
  cases hreports : reports[i]? with
  | none => exact Nat.zero_le _
  | some n =>
      cases n with
      | zero => exact Nat.zero_le _
      | succ n => exact henough i n hreports

/-- What a thread has left to do becomes less when the thread is stepped, and no more when another is. -/
theorem left_set_le {g g' : Guarded ω} {callers : List Caller} {caller next : Caller}
    (hcaller : callers[i]? = some caller) (hfired : g'.fired = true ∨ g'.fired = g.fired)
    (hless : next.work g'.fired < caller.work g.fired) (j : Nat) :
    left ⟨g', callers.set i next⟩ j ≤ left ⟨g, callers⟩ j - if i = j then 1 else 0 := by
  by_cases hij : i = j
  · subst hij
    obtain ⟨hi, -⟩ := List.getElem?_eq_some_iff.mp hcaller
    rw [if_pos rfl, left_of_caller (List.getElem?_set_self hi), left_of_caller hcaller]
    exact Nat.le_sub_of_add_le hless
  · unfold left
    dsimp only
    rw [if_neg hij, Nat.sub_zero, List.getElem?_set_ne hij]
    cases callers[j]? with
    | none => exact Nat.le_refl 0
    | some other =>
        obtain hfired | hfired := hfired
        · rw [hfired]
          exact other.work_le_of_fired g.fired
        · exact Nat.le_of_eq (by rw [hfired])

theorem Stepped.left_le (h : Stepped terminate i c c' log) (hidle : c.guarded.fired = false → Idle c.callers)
    (j : Nat) : c'.left j ≤ c.left j - if i = j then 1 else 0 := by
  cases h with
  | rests _ hdone =>
      by_cases hij : i = j
      · subst hij
        rw [left_eq_zero_of_done hdone]
        exact Nat.zero_le _
      · rw [if_neg hij]
        exact Nat.le_refl _
  | comesLate _ hcaller => exact left_set_le hcaller (.inl rfl) (Caller.work_outside_lt _) j
  | wins _ hcaller => exact left_set_le hcaller (.inl rfl) (Nat.le_refl _) j
  | warns _ hcaller => exact left_set_le hcaller (.inr rfl) (Nat.le_refl _) j
  | terminates g hcaller =>
      obtain ⟨fired, w⟩ := g
      cases fired with
      | true => exact left_set_le hcaller (.inr rfl) (Caller.work_outside_lt _) j
      | false => exact nomatch (hidle rfl).stage_eq hcaller

theorem Stepped.fires_or_rests (h : Stepped terminate i c c' log) (hunfired : c.guarded.fired = false)
    (hidle : Idle c.callers) :
    (c'.guarded.fired = true ∧ ∃ n, c.callers[i]? = some ⟨.outside, n + 1⟩) ∨
      (c' = c ∧ ¬ ∃ n, c.callers[i]? = some ⟨.outside, n + 1⟩) := by
  cases h with
  | rests _ hdone =>
      refine .inr ⟨rfl, ?_⟩
      rintro ⟨n, hcaller⟩
      exact nomatch hdone _ hcaller
  | comesLate => cases hunfired
  | wins _ hcaller => exact .inl ⟨rfl, _, hcaller⟩
  | warns _ hcaller | terminates _ hcaller => exact nomatch hidle.stage_eq hcaller

theorem run_cons (terminate : Act ω Unit) (i : Nat) (schedule : List Nat) (c : Crowd ω) :
    (run terminate (i :: schedule) c).world = (run terminate schedule (step terminate i c).world).world ∧
      (run terminate (i :: schedule) c).log =
        (step terminate i c).log ++ (run terminate schedule (step terminate i c).world).log := ⟨rfl, rfl⟩

theorem run_append (terminate : Act ω Unit) (schedule later : List Nat) (c : Crowd ω) :
    (run terminate (schedule ++ later) c).world = (run terminate later (run terminate schedule c).world).world := by
  induction schedule generalizing c with
  | nil => rfl
  | cons i schedule ih =>
      rw [List.cons_append, (run_cons ..).1, (run_cons ..).1, ih]

theorem run_length (terminate : Act ω Unit) (schedule : List Nat) (c : Crowd ω) :
    (run terminate schedule c).world.callers.length = c.callers.length := by
  induction schedule generalizing c with
  | nil => rfl
  | cons i schedule ih =>
      rw [(run_cons ..).1, ih, (step_stepped terminate i c).length_eq]

theorem run_fired (terminate : Act ω Unit) (schedule : List Nat) (hfired : c.guarded.fired = true) :
    (run terminate schedule c).world.guarded.fired = true := by
  induction schedule generalizing c with
  | nil => exact hfired
  | cons i schedule ih =>
      rw [(run_cons ..).1]
      exact ih ((step_stepped terminate i c).fired hfired)

/-- The guard is set by the first thread that has a report to make. -/
theorem run_fired_iff (terminate : Act ω Unit) (schedule : List Nat) (hunfired : c.guarded.fired = false)
    (hidle : Idle c.callers) :
    (run terminate schedule c).world.guarded.fired = true ↔
      ∃ i ∈ schedule, ∃ n, c.callers[i]? = some ⟨.outside, n + 1⟩ := by
  induction schedule with
  | nil =>
      change c.guarded.fired = true ↔ _
      rw [hunfired]
      refine ⟨Bool.noConfusion, ?_⟩
      rintro ⟨_, hmem, -⟩
      cases hmem
  | cons i schedule ih =>
      rw [(run_cons ..).1]
      simp only [List.mem_cons, or_and_right, exists_or, exists_eq_left]
      obtain ⟨hfired, hfirst⟩ | ⟨hsame, hnone⟩ := (step_stepped terminate i c).fires_or_rests hunfired hidle
      · exact ⟨fun _ => .inl hfirst, fun _ => run_fired terminate schedule hfired⟩
      · rw [hsame, ih, or_iff_right hnone]

theorem Reached.run (h : Reached terminate w c log) (schedule : List Nat) :
    Reached terminate w (run terminate schedule c).world (log ++ (run terminate schedule c).log) := by
  induction schedule generalizing c log with
  | nil =>
      change Reached terminate w c (log ++ [])
      rw [List.append_nil]
      exact h
  | cons i schedule ih =>
      rw [(run_cons ..).1, (run_cons ..).2, ← List.append_assoc]
      exact ih (h.step (step_stepped terminate i c))

theorem Reached.run_left_le (h : Reached terminate w c log) (schedule : List Nat) (j : Nat) :
    (Crowd.run terminate schedule c).world.left j ≤ c.left j - schedule.count j := by
  induction schedule generalizing c log with
  | nil => exact Nat.le_refl _
  | cons i schedule ih =>
      have hstep := step_stepped terminate i c
      rw [(run_cons ..).1]
      calc
        (Crowd.run terminate schedule (Crowd.step terminate i c).world).world.left j ≤
            (Crowd.step terminate i c).world.left j - schedule.count j := ih (h.step hstep)
        _ ≤ c.left j - (if i = j then 1 else 0) - schedule.count j :=
          Nat.sub_le_sub_right (hstep.left_le h.idle_of_unfired j) _
        _ = c.left j - (i :: schedule).count j := by
          rw [List.count_cons, Nat.sub_sub, Nat.add_comm]
          simp only [beq_iff_eq]

/-- Whatever the schedule, a run is in one of the phases. -/
theorem run_reached (terminate : Act ω Unit) (w : ω) (reports schedule : List Nat) :
    let ended := run terminate schedule (waiting (.fresh w) reports)
    Reached terminate w ended.world ended.log :=
  (Reached.quiet (idle_waiting reports)).run schedule

theorem run_waiting_fired_iff (terminate : Act ω Unit) (w : ω) (reports schedule : List Nat) :
    (run terminate schedule (waiting (.fresh w) reports)).world.guarded.fired = true ↔
      ∃ i ∈ schedule, ∃ n, reports[i]? = some (n + 1) := by
  have hcaller : ∀ i n : Nat, (reports.map (⟨.outside, ·⟩))[i]? = some (⟨.outside, n⟩ : Caller) ↔
      reports[i]? = some n := by
    intro i n
    rw [List.getElem?_map, Option.map_eq_some_iff]
    constructor
    · rintro ⟨m, hm, h⟩
      cases h
      exact hm
    · exact fun h => ⟨n, h, rfl⟩
  rw [run_fired_iff terminate schedule rfl (idle_waiting reports)]
  simp only [waiting, hcaller]

/-- Every report comes to its end if its thread is scheduled as often as the report can take steps. -/
theorem run_waiting_complete (terminate : Act ω Unit) (w : ω) {reports schedule : List Nat}
    (henough : ∀ i n, reports[i]? = some (n + 1) → n + 3 ≤ schedule.count i) :
    (run terminate schedule (waiting (.fresh w) reports)).world.callers =
      List.replicate reports.length ⟨.outside, 0⟩ := by
  rw [List.eq_replicate_iff]
  refine ⟨by rw [run_length, waiting, List.length_map], fun caller hmem => ?_⟩
  obtain ⟨i, hcaller⟩ := List.mem_iff_getElem?.mp hmem
  have hstart : Reached terminate w (waiting (.fresh w) reports) [] := .quiet (idle_waiting reports)
  have hleft := hstart.run_left_le schedule i
  rw [Nat.sub_eq_zero_of_le (left_waiting_le rfl henough i), Nat.le_zero, left_of_caller hcaller] at hleft
  exact Caller.eq_of_work_eq_zero hleft

/-- The steps that a thread takes with nothing between them are one report to the guard. -/
theorem run_alone (terminate : Act ω Unit) {reports : Nat}
    (hcaller : c.callers[i]? = some ⟨.outside, reports + 1⟩) :
    let report := Guarded.onStoppedLeading terminate c.guarded
    let alone := run terminate (List.replicate (if c.guarded.fired then 1 else 3) i) c
    alone.world = ⟨report.world, c.callers.set i ⟨.outside, reports⟩⟩ ∧ alone.log = report.log := by
  intro report alone
  obtain ⟨⟨fired, w⟩, callers⟩ := c
  obtain ⟨hi, -⟩ := List.getElem?_eq_some_iff.mp hcaller
  cases fired with
  | true =>
      have halone : alone = run terminate [i] ⟨⟨true, w⟩, callers⟩ := rfl
      rw [halone, (run_cons ..).1, (run_cons ..).2, step_late w hcaller]
      exact ⟨rfl, rfl⟩
  | false =>
      have halone : alone = run terminate [i, i, i] ⟨⟨false, w⟩, callers⟩ := rfl
      have hwon := List.getElem?_set_self (a := (⟨.won, reports⟩ : Caller)) hi
      have hwarned := List.getElem?_set_self (a := (⟨.warned, reports⟩ : Caller)) hi
      rw [halone]
      simp only [run_cons, step_wins w hcaller, step_warns _ hwon, List.set_set, step_terminates _ hwarned]
      exact ⟨rfl, congrArg (LogEvent.leadershipLost :: ·) (List.append_nil (terminate w).log)⟩

end Crowd

end LossReport

end LeaderLease
