import LeaderLease.Proofs.Election.Uses
import LeaderLease.StandIn.Program

/-!
# A lost leadership terminates once

Among any number of threads, and in any use of a config, the terminator is called for the first report of a loss and
for no other.
-/

namespace LeaderLease

variable {ω : Type}

namespace InUse

def terminations (calls : List BuilderCall) : Nat := calls.count .terminate

/-- What is remembered of reports: that there was one, and the terminations it has led to. -/
def account (g : Guarded (Spied ω)) : Bool × Nat := (g.fired, terminations g.world.calls)

theorem terminations_append {c : BuilderCall} (hc : c ≠ .terminate) (calls : List BuilderCall) :
    terminations (calls ++ [c]) = terminations calls := by
  unfold terminations
  rw [List.count_append, List.count_singleton, if_neg (by simpa using hc), Nat.add_zero]

theorem account_stopped (terminate : Act ω Unit) (g : Guarded (Spied ω)) :
    account (Guarded.onStoppedLeading (Spied.call .terminate terminate) g).world =
      (true, if g.fired then terminations g.world.calls else terminations g.world.calls + 1) := by
  obtain ⟨fired, w⟩ := g
  cases fired with
  | true => rfl
  | false =>
      rw [Guarded.onStoppedLeading_of_unfired, Spied.call_apply]
      unfold account terminations
      dsimp only
      rw [List.count_append, List.count_singleton_self]
      rfl

section Run

variable {config : ElectionConfig (Spied ω)} {u : InUse (Spied ω)}

theorem step_stopped (hspied : config.SpiedOn) (hholds : Holds config u) :
    account (u.step .stoppedLeading).guarded =
      (true, if u.guarded.fired then terminations u.guarded.world.calls
        else terminations u.guarded.world.calls + 1) := by
  obtain ⟨terminate, hstopped⟩ := hspied.stopped
  change account (u.callbacks.onStoppedLeading u.guarded).world = _
  rw [hholds.callbacks_eq, hstopped, account_stopped]

theorem step_keeps_account (hspied : config.SpiedOn) (hholds : Holds config u) {use : ElectionUse}
    (huse : use ≠ .stoppedLeading) : account (u.step use).guarded = account u.guarded := by
  have hcalls : terminations (u.step use).guarded.world.calls = terminations u.guarded.world.calls := by
    apply step_keeps hspied hholds use
    intro c hc
    apply terminations_append
    rintro rfl
    cases use with
    | lock call => exact nomatch hc
    | recordEvent message => exact nomatch hc
    | stoppedLeading => exact huse rfl
    | startedLeading | newLeader | intoParts => cases hc
  unfold account
  rw [hcalls, step_fired hspied hholds huse]

theorem run_account_of_fired (hspied : config.SpiedOn) (hholds : Holds config u) (hfired : u.guarded.fired = true)
    (uses : List ElectionUse) : account (u.run uses).guarded = account u.guarded := by
  induction uses generalizing u with
  | nil => rfl
  | cons use uses ih =>
      have hstep : account (u.step use).guarded = account u.guarded := by
        by_cases huse : use = .stoppedLeading
        · rw [huse, step_stopped hspied hholds, if_pos hfired, account, hfired]
        · exact step_keeps_account hspied hholds huse
      have hstill : (u.step use).guarded.fired = true := (congrArg Prod.fst hstep).trans hfired
      exact (ih (hholds.step use) hstill).trans hstep

theorem run_account (hspied : config.SpiedOn) (hholds : Holds config u) (hunfired : u.guarded.fired = false)
    (uses : List ElectionUse) :
    account (u.run uses).guarded =
      if .stoppedLeading ∈ uses then (true, terminations u.guarded.world.calls + 1) else account u.guarded := by
  induction uses generalizing u with
  | nil => rfl
  | cons use uses ih =>
      change account ((u.step use).run uses).guarded = _
      by_cases huse : use = .stoppedLeading
      · subst huse
        have hstep := step_stopped hspied hholds
        rw [hunfired] at hstep
        rw [run_account_of_fired hspied (hholds.step _) (congrArg Prod.fst hstep), hstep, if_pos List.mem_cons_self]
        rfl
      · have hstep := step_keeps_account hspied hholds huse
        have hmem : (.stoppedLeading ∈ use :: uses) ↔ .stoppedLeading ∈ uses := by
          rw [List.mem_cons, or_iff_right (Ne.symm huse)]
        have hcalls : terminations (u.step use).guarded.world.calls = terminations u.guarded.world.calls :=
          congrArg Prod.snd hstep
        rw [ih (hholds.step use) ((congrArg Prod.fst hstep).trans hunfired), hstep, hcalls]
        simp only [hmem]

end Run

theorem terminations_callsOf (b : ConfigBuilder ω) (w : ω) : terminations (b.callsOf w) = 0 := by
  have hconnects : ∀ n, terminations (List.replicate n .connect) = 0 := fun n => List.count_replicate.trans rfl
  have hidentity : ∀ explicit, terminations (identityCalls explicit) = 0 := by
    intro explicit
    unfold identityCalls
    by_cases hexplicit : explicit = ""
    · rw [if_pos hexplicit]
      rfl
    · rw [if_neg hexplicit]
      rfl
  unfold ConfigBuilder.callsOf
  cases (b.build w).value with
  | error e => exact hconnects _
  | ok config =>
      have happend : terminations (List.replicate (b.attempts w) .connect ++ identityCalls b.identity) =
        terminations (List.replicate (b.attempts w) .connect) + terminations (identityCalls b.identity) :=
        List.count_append
      change terminations (List.replicate (b.attempts w) .connect ++ identityCalls b.identity) = 0
      rw [happend, hconnects, hidentity]

end InUse

namespace LossReport.Crowd

/-- What a phase tells of the notes of a spy on the terminator. -/
theorem Reached.accounts {terminate : Act ω Unit} {w : ω} {c : Crowd (Spied ω)} {log : List LogEvent}
    (h : Reached (Spied.call .terminate terminate) ⟨w, []⟩ c log) :
    ∃ warnings terminations,
      c.guarded.world.calls = List.replicate terminations .terminate ∧
      log = List.replicate warnings .leadershipLost ++ (if terminations = 0 then [] else (terminate w).log) ∧
      terminations ≤ warnings ∧ warnings ≤ 1 ∧
      (0 < warnings → c.guarded.fired = true) ∧
      (c.guarded.fired = true → Idle c.callers → terminations = 1) := by
  cases h with
  | quiet => exact ⟨0, 0, rfl, rfl, Nat.le_refl 0, Nat.zero_le 1, fun h => absurd h (Nat.lt_irrefl 0), Bool.noConfusion⟩
  | won winner hwinner =>
      refine ⟨0, 0, rfl, rfl, Nat.le_refl 0, Nat.zero_le 1, fun _ => rfl, fun _ hidle => ?_⟩
      exact absurd hidle (hwinner.not_idle Stage.noConfusion)
  | warned winner hwinner =>
      refine ⟨1, 0, rfl, rfl, Nat.zero_le 1, Nat.le_refl 1, fun _ => rfl, fun _ hidle => ?_⟩
      exact absurd hidle (hwinner.not_idle Stage.noConfusion)
  | ended => exact ⟨1, 1, rfl, rfl, Nat.le_refl 1, Nat.le_refl 1, fun _ => rfl, fun _ _ => rfl⟩

theorem Reached.eq_of_idle {terminate : Act ω Unit} {w : ω} {c : Crowd (Spied ω)} {log : List LogEvent}
    (h : Reached (Spied.call .terminate terminate) ⟨w, []⟩ c log) (hfired : c.guarded.fired = true)
    (hidle : Idle c.callers) :
    c.guarded.world.calls = [.terminate] ∧ log = .leadershipLost :: (terminate w).log := by
  cases h with
  | quiet => cases hfired
  | won winner hwinner | warned winner hwinner => exact absurd hidle (hwinner.not_idle Stage.noConfusion)
  | ended => exact ⟨rfl, rfl⟩

end LossReport.Crowd

open LossReport in
/-- **Once.** However many threads report the loss of leadership, however often, and however their steps interleave,
there is at most one warning and at most one termination, in this order, and the termination has taken place when a
report has begun and none is under way. A report begins with the swap of its guard, which is the first step of a thread
that has a report left. Threads that are scheduled often enough come to the end of their reports, and a report that
nothing comes between is `Guarded.onStoppedLeading`. A config terminates as often, whatever else it is used for. -/
theorem leadership_loss_terminates_once (w : ω) :
    (∀ (terminate : Act ω Unit) (reports schedule : List Nat),
      let guard := Spied.call .terminate terminate
      let start := Crowd.waiting (.fresh ⟨w, []⟩) reports
      let ended := Crowd.run guard schedule start
      let calls := ended.world.guarded.world.calls
      let fired := ended.world.guarded.fired
      let begun := ∃ i ∈ schedule, ∃ n, reports[i]? = some (n + 1)
      (∃ warnings terminations,
        calls = List.replicate terminations .terminate ∧
        ended.log = List.replicate warnings .leadershipLost ++ (if terminations = 0 then [] else (terminate w).log) ∧
        terminations ≤ warnings ∧ warnings ≤ 1 ∧
        (0 < warnings → begun) ∧
        (begun → (∀ caller ∈ ended.world.callers, caller.stage = .outside) → terminations = 1)) ∧
      (fired = true ↔ begun) ∧
      (fired = true → ∀ later, (Crowd.run guard (schedule ++ later) start).world.guarded.fired = true) ∧
      ((∀ i n, reports[i]? = some (n + 1) → n + 3 ≤ schedule.count i) →
        ended.world.callers = List.replicate reports.length ⟨.outside, 0⟩ ∧
        ∀ n, n + 1 ∈ reports → calls = [.terminate] ∧ ended.log = .leadershipLost :: (terminate w).log)) ∧
    (∀ (terminate : Act ω Unit) (c : Crowd ω) (i reports : Nat),
      c.callers[i]? = some ⟨.outside, reports + 1⟩ →
        let report := Guarded.onStoppedLeading terminate c.guarded
        let alone := Crowd.run terminate (List.replicate (if c.guarded.fired then 1 else 3) i) c
        alone.world = ⟨report.world, c.callers.set i ⟨.outside, reports⟩⟩ ∧ alone.log = report.log) ∧
    ∀ (b : ConfigBuilder ω) (config : ElectionConfig (Spied ω)) (uses : List ElectionUse),
      (b.spied.build ⟨w, []⟩).value = .ok config →
        ((InUse.fresh config (b.spied.build ⟨w, []⟩).world).run uses).guarded.world.calls.count .terminate =
          if .stoppedLeading ∈ uses then 1 else 0 := by
  refine ⟨?_, fun terminate c i reports => Crowd.run_alone terminate, ?_⟩
  · intro terminate reports schedule guard start ended calls fired begun
    have hreached : Crowd.Reached guard ⟨w, []⟩ ended.world ended.log :=
      Crowd.run_reached guard ⟨w, []⟩ reports schedule
    have hfired : fired = true ↔ begun := Crowd.run_waiting_fired_iff guard ⟨w, []⟩ reports schedule
    refine ⟨?_, hfired, ?_, ?_⟩
    · rw [← hfired]
      exact hreached.accounts
    · intro hset later
      rw [Crowd.run_append]
      exact Crowd.run_fired guard later hset
    · intro henough
      have hcallers : ended.world.callers = List.replicate reports.length ⟨.outside, 0⟩ :=
        Crowd.run_waiting_complete guard ⟨w, []⟩ henough
      refine ⟨hcallers, fun n hn => ?_⟩
      obtain ⟨i, hi⟩ := List.mem_iff_getElem?.mp hn
      have hscheduled : i ∈ schedule := List.count_pos_iff.mp (Nat.lt_of_lt_of_le (Nat.succ_pos _) (henough i n hi))
      refine hreached.eq_of_idle (hfired.mpr ⟨i, hscheduled, n, hi⟩) ?_
      intro caller hmem
      rw [hcallers] at hmem
      rw [List.eq_of_mem_replicate hmem]
  · intro b config uses hbuild
    have hstart : InUse.Holds config (InUse.fresh config (b.spied.build ⟨w, []⟩).world) := .inl rfl
    have haccount := InUse.run_account (ConfigBuilder.spiedOn_of_build hbuild) hstart rfl uses
    have hnone : InUse.terminations (b.spied.build ⟨w, []⟩).world.calls = 0 := by
      rw [(ConfigBuilder.spied_build b w).1]
      exact InUse.terminations_callsOf b w
    change InUse.account _ = if _ then (true, InUse.terminations (b.spied.build ⟨w, []⟩).world.calls + 1) else
      (false, InUse.terminations (b.spied.build ⟨w, []⟩).world.calls) at haccount
    rw [hnone] at haccount
    have hcount := congrArg Prod.snd haccount
    change InUse.terminations _ = _
    by_cases hmem : .stoppedLeading ∈ uses
    · rw [if_pos hmem] at hcount ⊢
      exact hcount
    · rw [if_neg hmem] at hcount ⊢
      exact hcount

theorem Program.builder_spied_build :
    ∃ config, (Program.builder.spied.build ⟨.fresh, []⟩).value = .ok config :=
  ConfigBuilder.spied_build_ok (by decide) (by decide) rfl rfl

open LossReport in
/-- Thread 2 finds the guard unset, thread 0 comes too late, and thread 1 has nothing to report. -/
theorem leadership_loss_terminates_once_in_program :
    let together := Crowd.run (Spied.call .terminate Program.terminate) [2, 0, 2, 1, 0, 2, 0, 2]
      (.waiting (.fresh ⟨.fresh, []⟩) [1, 0, 2])
    let alone := Crowd.run Program.terminate [1, 1, 1] (.waiting (.fresh .fresh) [0, 2])
    (together.world.guarded.fired = true ∧ together.world.callers = List.replicate 3 ⟨.outside, 0⟩ ∧
      together.world.guarded.world.calls = [.terminate] ∧ together.log = [.leadershipLost]) ∧
    alone.world.guarded = (Guarded.onStoppedLeading Program.terminate (.fresh .fresh)).world ∧
    alone.world.callers = [⟨.outside, 0⟩, ⟨.outside, 1⟩] ∧
    ∃ config, (Program.builder.spied.build ⟨.fresh, []⟩).value = .ok config ∧
      ((InUse.fresh config (Program.builder.spied.build ⟨.fresh, []⟩).world).run
        [.lock .get, .stoppedLeading, .intoParts, .newLeader "other", .stoppedLeading]).guarded.world.calls.count
          .terminate = 1 := by
  obtain ⟨hthreads, hreport, hconfig⟩ := leadership_loss_terminates_once Program.fresh
  obtain ⟨-, hfired, -, hcomplete⟩ := hthreads Program.terminate [1, 0, 2] [2, 0, 2, 1, 0, 2, 0, 2]
  have henough : ∀ i n, [1, 0, 2][i]? = some (n + 1) → n + 3 ≤ [2, 0, 2, 1, 0, 2, 0, 2].count i := by
    intro i n hn
    obtain _ | _ | _ | i := i
    all_goals cases hn
    all_goals decide
  obtain ⟨hcallers, hcalls⟩ := hcomplete henough
  have halone := (hreport Program.terminate (.waiting (.fresh .fresh) [0, 2]) 1 1 rfl).1
  obtain ⟨config, hbuild⟩ := Program.builder_spied_build
  refine ⟨⟨hfired.mpr ⟨2, by decide, 1, rfl⟩, hcallers, hcalls 1 (by decide)⟩, congrArg Crowd.guarded halone,
    congrArg Crowd.callers halone, config, hbuild, ?_⟩
  exact hconfig Program.builder config _ hbuild

end LeaderLease
