import LeaderLease.Proofs.Act.Matching
import LeaderLease.Proofs.Transport.Logged

namespace LeaderLease

variable {ω : Type}

/-- The events that are logged with these flags. -/
def DebugFlags.keeps (flags : DebugFlags) : LogEvent → Bool
  | .sending .. => flags.detailedTiming
  | .timed .. => flags.detailedTiming
  | .finished .. => flags.urlTiming
  | .answered .. => flags.responseStatus
  | _ => true

theorem DebugFlags.keeps_of_none {flags : DebugFlags} {e : LogEvent} (he : DebugFlags.none.keeps e = true) :
    flags.keeps e = true := by
  cases e <;> first | rfl | cases he

/-- The relation holds between what flags keep of an event and the event. -/
def LogRelation.Respects (L : LogRelation) (flags : DebugFlags) : Prop :=
  ∀ e, L.rel (if flags.keeps e then [e] else []) [e]

theorem LogRelation.Respects.kept {L : LogRelation} {flags : DebugFlags} (hL : L.Respects flags) {e : LogEvent}
    (he : DebugFlags.none.keeps e = true) : L.rel [e] [e] := by
  have hrel := hL e
  rw [if_pos (DebugFlags.keeps_of_none he)] at hrel
  exact hrel

theorem LogRelation.any_respects (flags : DebugFlags) : any.Respects flags := fun _ => trivial

theorem LogRelation.filtered_respects (flags : DebugFlags) : (filtered flags.keeps).Respects flags := by
  intro e
  change (if flags.keeps e then [e] else []) = [e].filter flags.keeps
  by_cases he : flags.keeps e = true
  · rw [if_pos he, List.filter_cons_of_pos he, List.filter_nil]
  · rw [if_neg he, List.filter_cons_of_neg he, List.filter_nil]

/-- The same logs, without traffic in them that flags could silence. -/
def LogRelation.quiet : LogRelation := filtered DebugFlags.none.keeps

theorem Act.Steady.of_quiet {α : Type} {a : Act ω α} {flags : DebugFlags} (ha : Steady .quiet a) :
    Steady (.filtered flags.keeps) a := by
  intro s
  have hquiet : (a s).log = (a s).log.filter DebugFlags.none.keeps := ha s
  refine (List.filter_eq_self.mpr ?_).symm
  intro e he
  rw [hquiet] at he
  exact DebugFlags.keeps_of_none (List.mem_filter.mp he).2

namespace Transport

variable {L : LogRelation} {flags : DebugFlags}

theorem resultEvents_related (hL : L.Respects flags) (request : Request) (elapsed : Duration)
    (result : Except TransportError Response) :
    L.rel (resultEvents flags request elapsed result) (resultEvents .all request elapsed result) := by
  cases result with
  | error e => exact hL (.undelivered request.method request.path elapsed e.message)
  | ok response =>
      have hfinished := hL (.finished request.method request.path elapsed)
      have hanswered := hL (.answered request.method request.path response.status)
      have htimed := hL (.timed request.method request.path elapsed response.body.length)
      exact L.append hfinished (L.append hanswered htimed)

theorem logged_matches (hL : L.Respects flags) {clock : Clock ω} {inner : Transport ω} {request : Request}
    (hsteady : Act.Steady L (inner request)) :
    Act.Matches L Eq Eq (logged clock flags inner request) (logged clock .all inner request) where
  value s t hst := by rw [hst, logged_value, logged_value]
  world s t hst := by rw [hst, logged_world, logged_world]
  log s t hst := by
    subst hst
    rw [logged_apply, logged_apply]
    have hsending := hL (.sending request.method request.path request.body.length)
    exact L.append hsending (L.append (hsteady s) (resultEvents_related hL request _ _))

def sendAll (t : Transport ω) : List Request → Act ω (List (Except TransportError Response))
  | [] => return []
  | request :: requests => do
    let result ← t request
    return result :: (← sendAll t requests)

theorem sendAll_logged (clock : Clock ω) (flags : DebugFlags) (inner : Transport ω) (requests : List Request) (w : ω) :
    ((logged clock flags inner).sendAll requests w).value = (inner.sendAll requests w).value ∧
      ((logged clock flags inner).sendAll requests w).world = (inner.sendAll requests w).world := by
  induction requests generalizing w with
  | nil => exact ⟨rfl, rfl⟩
  | cons request requests ih =>
      obtain ⟨hvalue, hworld⟩ := ih (inner request w).world
      simp only [sendAll, Act.bind_apply, Act.pure_apply, logged_value, logged_world, hvalue, hworld, and_self]

theorem sendAll_matches (hL : L.Respects flags) (clock : Clock ω) {inner : Transport ω}
    (hsteady : ∀ request, Act.Steady L (inner request)) (requests : List Request) :
    Act.Matches L Eq Eq ((logged clock flags inner).sendAll requests) ((logged clock .all inner).sendAll requests) := by
  induction requests with
  | nil => exact Act.matches_pure rfl
  | cons request requests ih =>
      apply (logged_matches hL (hsteady request)).bind_same
      intro result
      apply ih.bind_same
      intro results
      exact Act.matches_pure rfl

end Transport

end LeaderLease
