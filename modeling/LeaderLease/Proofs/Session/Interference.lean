import LeaderLease.Proofs.Leader.Recorder
import LeaderLease.Proofs.Session.Config

/-!
# Lock, events and callbacks do not interfere

The steps of a session belong to three concerns, and every concern has a part of the session to itself: the lock its
connection and the record that was read last, events their connection, and callbacks the guard and the audience. A step
stays within the part of its concern, and taking a config apart changes only how it is held. So what the steps of one
concern bring about is what they bring about when all other steps are left out.
-/

namespace LeaderLease

inductive Concern where
  | lock
  | event
  | callbacks
  deriving DecidableEq

namespace SessionStep

/-- The concern that a step belongs to. To take a config apart belongs to none. -/
def concern? : SessionStep → Option Concern
  | script .lock _ => some .lock
  | script .event _ => some .event
  | get => some .lock
  | create _ => some .lock
  | update _ => some .lock
  | updateLast => some .lock
  | recordEvent _ => some .event
  | intoParts => none
  | change _ => some .callbacks

theorem eq_intoParts {step : SessionStep} (hstep : step.concern? = none) : step = intoParts := by
  cases step with
  | script channel outcomes => cases channel <;> cases hstep
  | intoParts => rfl
  | _ => cases hstep

end SessionStep

/-- What can be seen of a step: its answer and the requests that are new on the two connections, without the times of
events. -/
structure StepSeen where
  reply : SessionReply
  lockRequests : List Request
  eventRequests : List Request

def Channel.concern : Channel → Concern
  | lock => .lock
  | event => .event

theorem Channel.connection_ne {c d : Channel} (hcd : c ≠ d) (first : Nat) :
    c.connection first ≠ d.connection first := by
  cases c <;> cases d
  · exact absurd rfl hcd
  · exact Nat.succ_ne_self first
  · exact (Nat.succ_ne_self first).symm
  · exact absurd rfl hcd

namespace Session

variable {first : Nat}

def sent (channel : Channel) (s : Session first) : List Request := ((connection channel).get s).requests

def observe (step : SessionStep) : Act (Session first) StepSeen := fun s =>
  let ended := perform step s
  ⟨{ reply := ended.value
     lockRequests := (sent .lock ended.world).drop (sent .lock s).length
     eventRequests := ((sent .event ended.world).drop (sent .event s).length).map Request.timeless },
    ended.world, ended.log⟩

def watch : List SessionStep → Act (Session first) (List (SessionStep × StepSeen))
  | [] => return []
  | step :: steps => do
    let seen ← observe step
    return (step, seen) :: (← watch steps)

theorem watch_cons (step : SessionStep) (steps : List SessionStep) (s : Session first) :
    (watch (step :: steps) s).value =
        (step, (observe step s).value) :: (watch steps (perform step s).world).value ∧
      (watch (step :: steps) s).world = (watch steps (perform step s).world).world := ⟨rfl, rfl⟩

def lockPart : Part (Session first) (Recording × Option LeaderRecord) where
  get s := ((connection .lock).get s, s.lastRead)
  set v s := { (connection .lock).set v.1 s with lastRead := v.2 }
  get_set v s := Prod.ext ((connection .lock).get_set v.1 s) rfl
  set_get s := by
    rw [(connection .lock).set_get]
  set_set v w s := by
    change { (connection .lock).set v.1 ((connection .lock).set w.1 s) with lastRead := v.2 } = _
    rw [(connection .lock).set_set]

def eventPart : Part (Session first) Recording := connection .event

def callbackPart : Part (Session first) (Bool × Audience) := guardedPart.trans Guarded.listeners

/-- Nothing has changed but in the part of the concern, or in how the config is held. -/
inductive Moved : Option Concern → Session first → Session first → Prop
  | lock (s : Session first) (v : Recording × Option LeaderRecord) : Moved (some .lock) s (lockPart.set v s)
  | event (s : Session first) (v : Recording) : Moved (some .event) s (eventPart.set v s)
  | callbacks (s : Session first) (v : Bool × Audience) : Moved (some .callbacks) s (callbackPart.set v s)
  | handle (s : Session first) (h : ConfigHandle) : Moved none s { s with handle := h }

theorem connection_get_set_of_ne {c d : Channel} (hcd : c ≠ d) (r : Recording) (s : Session first) :
    (connection c).get ((connection d).set r s) = (connection c).get s := if_neg (Channel.connection_ne hcd first)

theorem Moved.sent_eq {k : Option Concern} {s s' : Session first} (h : Moved k s s') (channel : Channel)
    (hk : k ≠ some channel.concern) : sent channel s' = sent channel s := by
  cases h with
  | lock _ v =>
      have hchannel : channel ≠ .lock := fun heq => hk (by rw [heq]; rfl)
      exact congrArg Recording.requests (connection_get_set_of_ne hchannel v.1 s)
  | event _ v =>
      have hchannel : channel ≠ .event := fun heq => hk (by rw [heq]; rfl)
      exact congrArg Recording.requests (connection_get_set_of_ne hchannel v s)
  | callbacks | handle => rfl

/-- The part of the concern is the same in both sessions, the times of events apart. -/
def Agree : Concern → Session first → Session first → Prop
  | .lock, s, t => lockPart.get s = lockPart.get t
  | .event, s, t => (eventPart.get s).timeless = (eventPart.get t).timeless
  | .callbacks, s, t => callbackPart.get s = callbackPart.get t

theorem Agree.refl (c : Concern) (s : Session first) : Agree c s s := by
  cases c <;> exact rfl

theorem Agree.symm {c : Concern} {s t : Session first} (h : Agree c s t) : Agree c t s := by
  cases c <;> exact Eq.symm h

theorem Agree.trans {c : Concern} {s t u : Session first} (hst : Agree c s t) (htu : Agree c t u) : Agree c s u := by
  cases c <;> exact Eq.trans hst htu

instance (c : Concern) : Trans (α := Session first) (Agree c) (Agree c) (Agree c) := ⟨Agree.trans⟩

theorem Moved.handle_eq {k : Option Concern} {s s' : Session first} (h : Moved k s s') (hk : k ≠ none) :
    s'.handle = s.handle := by
  cases h with
  | lock v => rfl
  | event v => rfl
  | callbacks v => rfl
  | handle h => exact absurd rfl hk

theorem Agree.sent_lock {s t : Session first} (h : Agree .lock s t) : sent .lock s = sent .lock t :=
  congrArg (fun v => v.1.requests) h

theorem Agree.sent_event {s t : Session first} (h : Agree .event s t) :
    (sent .event s).map Request.timeless = (sent .event t).map Request.timeless :=
  congrArg Recording.requests h

theorem agree_event_set {s t : Session first} {r r' : Recording} (hr : r.timeless = r'.timeless) :
    Agree .event (eventPart.set r s) (eventPart.set r' t) := by
  change (eventPart.get (eventPart.set r s)).timeless = (eventPart.get (eventPart.set r' t)).timeless
  rw [eventPart.get_set, eventPart.get_set, hr]

theorem Moved.agree {k : Option Concern} {c : Concern} {s s' : Session first} (h : Moved k s s') (hk : k ≠ some c) :
    Agree c s' s := by
  cases h with
  | lock _ v =>
      cases c with
      | lock => exact absurd rfl hk
      | event => exact congrArg Recording.timeless (connection_get_set_of_ne Channel.noConfusion v.1 s)
      | callbacks => rfl
  | event _ v =>
      cases c with
      | lock => exact Prod.ext (connection_get_set_of_ne Channel.noConfusion v s) rfl
      | event => exact absurd rfl hk
      | callbacks => rfl
  | callbacks v =>
      cases c with
      | lock => rfl
      | event => rfl
      | callbacks => exact absurd rfl hk
  | handle h => cases c <;> rfl

def Holds (config : ElectionConfig Rehearsal) (s : Session first) : Prop :=
  s.handle = .whole config ∨ s.handle = .split config.intoParts

section Steps

variable {config : ElectionConfig Rehearsal} {s t : Session first}

theorem Holds.lock_eq (h : Holds config s) : s.handle.lock = config.lock := by
  obtain h | h := h <;> rw [h] <;> rfl

theorem Holds.callbacks_eq (h : Holds config s) : s.handle.callbacks = config.callbacks := by
  obtain h | h := h <;> rw [h] <;> rfl

theorem Holds.parts_eq (h : Holds config s) : s.handle.parts = config.intoParts := by
  obtain h | h := h <;> rw [h] <;> rfl

theorem within_lockPart {α : Type} {a : Act Rehearsal α}
    (ha : Act.Within (Rehearsal.connection (Channel.lock.connection first)) a) :
    Act.Within (σ := Session first) lockPart (a.on world) := by
  have hon : Act.Within (lockPart.trans .fst) (a.on world) := ha.on
  exact hon.of_trans

theorem within_remember (record : LeaderRecord) :
    Act.Within (σ := Session first) lockPart (.change fun s => { s with lastRead := some record }) where
  frame s := by
    refine ⟨((connection .lock).get s, some record), ?_⟩
    change _ = { (connection .lock).set ((connection .lock).get s) s with lastRead := some record }
    rw [(connection .lock).set_get]
    rfl
  value _ _ _ := rfl
  world s t hget := by
    have hconnection : (connection .lock).get s = (connection .lock).get t := congrArg Prod.fst hget
    exact Prod.ext hconnection rfl

theorem within_write {act : Act Rehearsal (Except LockError Unit)}
    (hact : Act.Within (Rehearsal.connection (Channel.lock.connection first)) act) :
    Act.Within (σ := Session first) lockPart (do return replyTo (← act.on world)) := by
  apply (within_lockPart hact).bind
  intro result
  exact Act.within_pure _

theorem perform_of_lock {step : SessionStep} {f : LeaseLock Rehearsal → Act (Session first) SessionReply}
    (hstep : perform step = lock >>= f) (hs : Holds config s) : perform step s = f config.lock s := by
  rw [hstep, ← hs.lock_eq]
  rfl

theorem perform_updateLast (s : Session first) :
    perform .updateLast s =
      match s.lastRead with
      | some record => perform (.update record) s
      | none => ⟨.nothingRead, s, []⟩ := by
  simp only [perform, Act.look_bind]
  cases s.lastRead with
  | none => rfl
  | some record => dsimp only

theorem perform_lock (hconfig : config.KeepsApart first) {step : SessionStep} (hstep : step.concern? = some .lock) :
    ∃ a, Act.Within (σ := Session first) lockPart a ∧ ∀ s, Holds config s → perform step s = a s := by
  cases step with
  | script channel outcomes =>
      cases channel with
      | lock =>
          refine ⟨perform (.script .lock outcomes), ?_, fun _ _ => rfl⟩
          have hqueue : Act.Within (σ := Session first) (lockPart.trans .fst)
              (Act.on (connection .lock) (.change (Recording.queue outcomes))) := Act.within_on _
          apply hqueue.of_trans.bind
          intro _
          exact Act.within_pure _
      | event => cases hstep
  | get =>
      refine ⟨_, ?_, fun s hs => perform_of_lock rfl hs⟩
      apply (within_lockPart (LeaseLock.get_within hconfig.client)).bind
      intro result
      cases result with
      | error e => exact Act.within_pure _
      | ok record =>
          apply (within_remember record).bind
          intro _
          exact Act.within_pure _
  | create record =>
      refine ⟨_, ?_, fun s hs => perform_of_lock rfl hs⟩
      exact within_write (LeaseLock.create_within hconfig.client record)
  | update record =>
      refine ⟨_, ?_, fun s hs => perform_of_lock rfl hs⟩
      exact within_write (LeaseLock.update_within hconfig.client record)
  | updateLast =>
      have hwrite : ∀ record, Act.Within (σ := Session first) lockPart
          (do return replyTo (← (config.lock.update record).on world)) :=
        fun record => within_write (LeaseLock.update_within hconfig.client record)
      refine ⟨do
        match ← .look (·.lastRead) with
        | some record => return replyTo (← (config.lock.update record).on world)
        | none => return .nothingRead, ?_, ?_⟩
      · have hlook : Act.Within (σ := Session first) lockPart (.look (·.lastRead)) :=
          Act.within_look fun _ _ hget => congrArg Prod.snd hget
        apply hlook.bind
        intro last
        cases last with
        | none => exact Act.within_pure _
        | some record => exact hwrite record
      · intro s hs
        rw [perform_updateLast, Act.look_bind]
        cases s.lastRead with
        | none => rfl
        | some record =>
            dsimp only
            rw [perform_of_lock rfl hs]
  | recordEvent message => cases hstep
  | intoParts => cases hstep
  | change change => cases hstep

theorem report_within {callbacks : LeaderCallbacks (Guarded Rehearsal)}
    (hcallbacks : callbacks.Within Guarded.listeners) (change : LeadershipChange) :
    Act.Within Guarded.listeners (change.report audience callbacks) := by
  have haudience : ∀ {α : Type} (a : Act Audience α), Act.Within Guarded.listeners (a.on audience) := by
    intro α a
    have hon : Act.Within (Guarded.listeners.trans .snd) (a.on audience) := Act.within_on a
    exact hon.of_trans
  cases change with
  | stoppedLeading => exact hcallbacks.stoppedLeading
  | newLeader identity => exact hcallbacks.newLeader identity
  | startedLeading =>
      apply (haudience Audience.newToken).bind
      intro token
      exact hcallbacks.startedLeading token
  | cancel token => exact haudience (Audience.cancel token)

theorem perform_change (hconfig : config.KeepsApart first) (change : LeadershipChange) :
    ∃ a, Act.Within (σ := Session first) callbackPart a ∧ ∀ s, Holds config s → perform (.change change) s = a s := by
  refine ⟨do
    (change.report audience config.callbacks).on guardedPart
    return .heard (← .look (·.guarded.world.audience.heard)), ?_, ?_⟩
  · apply (report_within hconfig.callbacks change).on.bind
    intro _
    have hlook : Act.Within (σ := Session first) callbackPart (.look (·.guarded.world.audience.heard)) :=
      Act.within_look fun _ _ hget => congrArg (fun v => v.2.heard) hget
    apply hlook.bind
    intro heard
    exact Act.within_pure _
  · intro s hs
    rw [← hs.callbacks_eq]
    rfl

theorem perform_script_event (outcomes : List (Except String Response)) (s : Session first) :
    (perform (.script .event outcomes) s).value = .done ∧
      (perform (.script .event outcomes) s).world =
        eventPart.set (Recording.queue outcomes (eventPart.get s)) s := ⟨rfl, rfl⟩

/-- The time at which an event is recorded is all that the event connection learns of the rest of the session. -/
theorem perform_recordEvent (hconfig : config.KeepsApart first) (hs : Holds config s) (message : String) :
    (perform (.recordEvent message) s).value = .done ∧ ∃ time, (perform (.recordEvent message) s).world =
      eventPart.set (config.lock.recorder.sent (config.lock.recorder.event .normal LeaderEvent.electionReason
        (config.lock.identity ++ " " ++ message) time) (eventPart.get s)) s := by
  refine ⟨rfl, config.lock.recorder.now (world.get s), ?_⟩
  rw [perform_of_lock rfl hs]
  simp only [Act.bind_apply, Act.on_apply, Act.pure_apply, LeaseLock.recordEvent]
  rw [EventRecorder.record_world hconfig.events]
  rfl

theorem perform_intoParts (hs : Holds config s) :
    (perform .intoParts s).value = .parts config.intoParts ∧
      (perform .intoParts s).world = { s with handle := .split config.intoParts } := by
  rw [← hs.parts_eq]
  exact ⟨rfl, rfl⟩

theorem perform_moved (hconfig : config.KeepsApart first) (hs : Holds config s) (step : SessionStep) :
    Moved step.concern? s (perform step s).world := by
  have hlock : step.concern? = some .lock → Moved (some .lock) s (perform step s).world := by
    intro hstep
    obtain ⟨a, ha, hperform⟩ := perform_lock hconfig hstep
    obtain ⟨v, hv⟩ := ha.frame s
    rw [hperform s hs, hv]
    exact .lock s v
  cases step with
  | script channel outcomes =>
      cases channel with
      | lock => exact hlock rfl
      | event => exact .event s _
  | get => exact hlock rfl
  | create record => exact hlock rfl
  | update record => exact hlock rfl
  | updateLast => exact hlock rfl
  | recordEvent message =>
      obtain ⟨-, time, hworld⟩ := perform_recordEvent hconfig hs message
      rw [hworld]
      exact .event s _
  | intoParts =>
      rw [(perform_intoParts hs).2]
      exact .handle s _
  | change change =>
      obtain ⟨a, ha, hperform⟩ := perform_change hconfig change
      obtain ⟨v, hv⟩ := ha.frame s
      rw [hperform s hs, hv]
      exact .callbacks s v

theorem perform_holds (hconfig : config.KeepsApart first) (hs : Holds config s) (step : SessionStep) :
    Holds config (perform step s).world := by
  by_cases hnone : step.concern? = none
  · obtain rfl := SessionStep.eq_intoParts hnone
    rw [(perform_intoParts hs).2]
    exact .inr rfl
  · have hhandle := (perform_moved hconfig hs step).handle_eq hnone
    unfold Holds
    rw [hhandle]
    exact hs

/-- Sessions that agree on the concern of a step answer it alike and agree afterwards. -/
theorem perform_agree (hconfig : config.KeepsApart first) (hs : Holds config s) (ht : Holds config t)
    {step : SessionStep} {c : Concern} (hstep : step.concern? = some c) (hagree : Agree c s t) :
    (perform step s).value = (perform step t).value ∧ Agree c (perform step s).world (perform step t).world := by
  cases c with
  | lock =>
      obtain ⟨a, ha, hperform⟩ := perform_lock hconfig hstep
      rw [hperform s hs, hperform t ht]
      exact ⟨ha.value s t hagree, ha.world s t hagree⟩
  | callbacks =>
      cases step with
      | change change =>
          obtain ⟨a, ha, hperform⟩ := perform_change hconfig change
          rw [hperform s hs, hperform t ht]
          exact ⟨ha.value s t hagree, ha.world s t hagree⟩
      | script channel outcomes => cases channel <;> cases hstep
      | _ => cases hstep
  | event =>
      cases step with
      | script channel outcomes =>
          cases channel with
          | lock => cases hstep
          | event =>
              obtain ⟨hvalue, hworld⟩ := perform_script_event outcomes s
              obtain ⟨hvalue', hworld'⟩ := perform_script_event outcomes t
              refine ⟨hvalue.trans hvalue'.symm, ?_⟩
              rw [hworld, hworld']
              exact agree_event_set (congrArg (Recording.queue outcomes) hagree)
      | recordEvent message =>
          obtain ⟨hvalue, time, hworld⟩ := perform_recordEvent hconfig hs message
          obtain ⟨hvalue', time', hworld'⟩ := perform_recordEvent hconfig ht message
          refine ⟨hvalue.trans hvalue'.symm, ?_⟩
          rw [hworld, hworld']
          exact agree_event_set (EventRecorder.timeless_sent rfl hagree)
      | _ => cases hstep

theorem observe_agree (hconfig : config.KeepsApart first) (hs : Holds config s) (ht : Holds config t)
    (step : SessionStep) (hagree : ∀ c, step.concern? = some c → Agree c s t) :
    (observe step s).value = (observe step t).value := by
  have hmoved := perform_moved hconfig hs step
  have hmoved' := perform_moved hconfig ht step
  have hreply : (perform step s).value = (perform step t).value := by
    cases hstep : step.concern? with
    | none =>
        obtain rfl := SessionStep.eq_intoParts hstep
        rw [(perform_intoParts hs).1, (perform_intoParts ht).1]
    | some c => exact (perform_agree hconfig hs ht hstep (hagree c hstep)).1
  have hlock : (sent .lock (perform step s).world).drop (sent .lock s).length =
      (sent .lock (perform step t).world).drop (sent .lock t).length := by
    by_cases hstep : step.concern? = some .lock
    · have hbefore := hagree .lock hstep
      have hafter := (perform_agree hconfig hs ht hstep hbefore).2
      rw [hbefore.sent_lock, hafter.sent_lock]
    · rw [hmoved.sent_eq .lock hstep, hmoved'.sent_eq .lock hstep, List.drop_length, List.drop_length]
  have hevent : ((sent .event (perform step s).world).drop (sent .event s).length).map Request.timeless =
      ((sent .event (perform step t).world).drop (sent .event t).length).map Request.timeless := by
    by_cases hstep : step.concern? = some .event
    · have hbefore := hagree .event hstep
      have hafter := (perform_agree hconfig hs ht hstep hbefore).2
      have hlength : (sent .event s).length = (sent .event t).length := by
        have := congrArg List.length hbefore.sent_event
        rwa [List.length_map, List.length_map] at this
      rw [List.map_drop, List.map_drop, hafter.sent_event, hlength]
    · rw [hmoved.sent_eq .event hstep, hmoved'.sent_eq .event hstep, List.drop_length, List.drop_length]
  simp only [observe, hreply, hlock, hevent]

theorem Agree.after (hconfig : config.KeepsApart first) (hs : Holds config s) (ht : Holds config t) {c : Concern}
    (hagree : Agree c s t) (step : SessionStep) : Agree c (perform step s).world (perform step t).world := by
  by_cases hstep : step.concern? = some c
  · exact (perform_agree hconfig hs ht hstep hagree).2
  · have hmoved := (perform_moved hconfig hs step).agree hstep
    have hmoved' := (perform_moved hconfig ht step).agree hstep
    calc
      Agree c (perform step s).world s := hmoved
      Agree c _ t := hagree
      Agree c _ (perform step t).world := hmoved'.symm

/-! ### Runs -/

theorem watch_append (steps more : List SessionStep) (s : Session first) :
    (watch (steps ++ more) s).value = (watch steps s).value ++ (watch more (watch steps s).world).value ∧
      (watch (steps ++ more) s).world = (watch more (watch steps s).world).world := by
  induction steps generalizing s with
  | nil => exact ⟨rfl, rfl⟩
  | cons step steps ih =>
      rw [List.cons_append, (watch_cons step (steps ++ more) s).1, (watch_cons step (steps ++ more) s).2,
        (watch_cons step steps s).1, (watch_cons step steps s).2, (ih _).1, (ih _).2]
      exact ⟨rfl, rfl⟩

theorem watch_holds (hconfig : config.KeepsApart first) (hs : Holds config s) (steps : List SessionStep) :
    Holds config (watch steps s).world := by
  induction steps generalizing s with
  | nil => exact hs
  | cons step steps ih =>
      rw [(watch_cons step steps s).2]
      exact ih (perform_holds hconfig hs step)

/-- The steps of one concern bring about the same when all other steps are left out. -/
theorem watch_filter (hconfig : config.KeepsApart first) (hs : Holds config s) (ht : Holds config t)
    (k : Option Concern) (hagree : ∀ c, k = some c → Agree c s t) (steps : List SessionStep) :
    (watch steps s).value.filter (·.1.concern? = k) = (watch (steps.filter (·.concern? = k)) t).value ∧
      ∀ c, k = some c → Agree c (watch steps s).world (watch (steps.filter (·.concern? = k)) t).world := by
  induction steps generalizing s t with
  | nil => exact ⟨rfl, hagree⟩
  | cons step steps ih =>
      rw [(watch_cons step steps s).1, (watch_cons step steps s).2]
      have hs' := perform_holds hconfig hs step
      by_cases hstep : step.concern? = k
      · have ht' := perform_holds hconfig ht step
        obtain ⟨htrace, hlast⟩ := ih hs' ht' fun c hc => (hagree c hc).after hconfig hs ht step
        have hseen := observe_agree hconfig hs ht step fun c hc => hagree c (hstep.symm.trans hc)
        rw [List.filter_cons_of_pos (by simpa using hstep), List.filter_cons_of_pos (by simpa using hstep),
          (watch_cons step _ t).1, (watch_cons step _ t).2, htrace, hseen]
        exact ⟨rfl, hlast⟩
      · rw [List.filter_cons_of_neg (by simpa using hstep), List.filter_cons_of_neg (by simpa using hstep)]
        apply ih hs' ht
        intro c hc
        have hmoved := (perform_moved hconfig hs step).agree (hc ▸ hstep)
        exact hmoved.trans (hagree c hc)

theorem watch_agree (hconfig : config.KeepsApart first) (hs : Holds config s) (ht : Holds config t)
    (hagree : ∀ c, Agree c s t) (steps : List SessionStep) : (watch steps s).value = (watch steps t).value := by
  induction steps generalizing s t with
  | nil => rfl
  | cons step steps ih =>
      have hseen := observe_agree hconfig hs ht step fun c _ => hagree c
      have hrest := ih (perform_holds hconfig hs step) (perform_holds hconfig ht step)
        fun c => (hagree c).after hconfig hs ht step
      rw [(watch_cons step steps s).1, (watch_cons step steps t).1, hseen, hrest]

theorem perform_comm (hconfig : config.KeepsApart first) (hs : Holds config s) {first second : SessionStep}
    (hapart : first.concern? ≠ second.concern?) (c : Concern) :
    Agree c (perform second (perform first s).world).world (perform first (perform second s).world).world := by
  have hfirst := perform_holds hconfig hs first
  have hsecond := perform_holds hconfig hs second
  by_cases hc : first.concern? = some c
  · -- The second step does not matter to the concern, before the first or after it.
    have hnot : second.concern? ≠ some c := fun heq => hapart (hc.trans heq.symm)
    have hafter := (perform_moved hconfig hfirst second).agree hnot
    have hbefore := (perform_moved hconfig hs second).agree hnot
    calc
      Agree c (perform second (perform first s).world).world (perform first s).world := hafter
      Agree c _ (perform first (perform second s).world).world := hbefore.symm.after hconfig hs hsecond first
  · have hbefore := (perform_moved hconfig hs first).agree hc
    have hafter := (perform_moved hconfig hsecond first).agree hc
    calc
      Agree c (perform second (perform first s).world).world (perform second s).world :=
        hbefore.after hconfig hfirst hs second
      Agree c _ (perform first (perform second s).world).world := hafter.symm

theorem watch_swap (hconfig : config.KeepsApart first) (hs : Holds config s) {first second : SessionStep}
    (hapart : first.concern? ≠ second.concern?) (after : List SessionStep) :
    ∃ x y rest, (watch (first :: second :: after) s).value = x :: y :: rest ∧
      (watch (second :: first :: after) s).value = y :: x :: rest := by
  have hfirst := perform_holds hconfig hs first
  have hsecond := perform_holds hconfig hs second
  have hseenFirst := observe_agree hconfig hs hsecond first fun c hc =>
    ((perform_moved hconfig hs second).agree fun heq => hapart (hc.trans heq.symm)).symm
  have hseenSecond := observe_agree hconfig hfirst hs second fun c hc =>
    (perform_moved hconfig hs first).agree fun heq => hapart (heq.trans hc.symm)
  have hrest := watch_agree hconfig (perform_holds hconfig hfirst second) (perform_holds hconfig hsecond first)
    (perform_comm hconfig hs hapart) after
  refine ⟨(first, (observe first s).value), (second, (observe second s).value),
    (watch after (perform second (perform first s).world).world).value, ?_, ?_⟩
  · rw [(watch_cons first _ s).1, (watch_cons second after _).1, hseenSecond]
  · rw [(watch_cons second _ s).1, (watch_cons first after _).1, ← hseenFirst, hrest]

theorem watch_intoParts (hconfig : config.KeepsApart first) (hs : Holds config s) (after : List SessionStep) :
    ∃ x, (watch (.intoParts :: after) s).value = x :: (watch after s).value := by
  have hagree : ∀ c, Agree c (perform .intoParts s).world s := fun c =>
    (perform_moved hconfig hs .intoParts).agree nofun
  have hrest := watch_agree hconfig (perform_holds hconfig hs .intoParts) hs hagree after
  refine ⟨(.intoParts, (observe .intoParts s).value), ?_⟩
  rw [(watch_cons .intoParts after s).1, hrest]

end Steps

end Session

open Session in
/-- **Noninterference.** In a session with a config that was assembled over a backend, whatever connections were made
before, each concern is served as if its steps were the only ones. So neighbouring steps of different concerns may
change places, and the config may be taken apart at any time. -/
theorem concerns_do_not_interfere {b : ConfigBuilder Rehearsal} (hb : b.AmongStandIns) {w : Rehearsal}
    {config : ElectionConfig Rehearsal} (hbuild : (b.build w).value = .ok config) :
    let start : Session w.backend.made := .fresh config (b.build w).world
    (∀ (c : Concern) (steps : List SessionStep),
      (watch steps start).value.filter (·.1.concern? = some c) =
          (watch (steps.filter (·.concern? = some c)) start).value ∧
        Agree c (watch steps start).world (watch (steps.filter (·.concern? = some c)) start).world) ∧
    (∀ (before after : List SessionStep) (first second : SessionStep), first.concern? ≠ second.concern? →
      ∃ sofar x y rest,
        (watch (before ++ first :: second :: after) start).value = sofar ++ x :: y :: rest ∧
        (watch (before ++ second :: first :: after) start).value = sofar ++ y :: x :: rest) ∧
    ∀ before after : List SessionStep, ∃ sofar x rest,
      (watch (before ++ .intoParts :: after) start).value = sofar ++ x :: rest ∧
      (watch (before ++ after) start).value = sofar ++ rest := by
  intro start
  have hconfig := hb.keepsApart hbuild
  have hstart : Holds config start := .inl rfl
  refine ⟨?_, ?_, ?_⟩
  · intro c steps
    obtain ⟨htrace, hlast⟩ := watch_filter hconfig hstart hstart (some c) (fun c _ => .refl c start) steps
    exact ⟨htrace, hlast c rfl⟩
  · intro before after first second hapart
    have hmiddle := watch_holds hconfig hstart before
    obtain ⟨x, y, rest, hone, hother⟩ := watch_swap hconfig hmiddle hapart after
    refine ⟨(watch before start).value, x, y, rest, ?_, ?_⟩
    · rw [(watch_append before _ start).1, hone]
    · rw [(watch_append before _ start).1, hother]
  · intro before after
    have hmiddle := watch_holds hconfig hstart before
    obtain ⟨x, hparts⟩ := watch_intoParts hconfig hmiddle after
    refine ⟨(watch before start).value, x, (watch after (watch before start).world).value, ?_, ?_⟩
    · rw [(watch_append before _ start).1, hparts]
    · rw [(watch_append before _ start).1]

def rehearsed : ConfigBuilder Rehearsal :=
  Rehearsal.withAudience (Rehearsal.builder (.forLock "team-a" "controller-lock") (some "host-a"))

theorem rehearsed_build {w : Rehearsal} (havailable : w.backend.unavailable = none)
    (hfailing : w.backend.failing = none) : ∃ config, (rehearsed.build w).value = .ok config := by
  obtain ⟨⟨unavailable, failing, attempts, reached, made, connections⟩, uuids, audience⟩ := w
  obtain rfl : unavailable = none := havailable
  obtain rfl : failing = none := hfailing
  let w : Rehearsal := ⟨⟨none, none, attempts, reached, made, connections⟩, uuids, audience⟩
  have hvalid : rehearsed.spec.validate = .ok () := TimingSpec.validate_of_named (by decide) (by decide)
  have hfirst : (rehearsed.connect w).value = .ok _ := rfl
  have hsecond : (rehearsed.connect (rehearsed.connect w).world).value = .ok _ := rfl
  rw [ConfigBuilder.build_of_connections hvalid hfirst hsecond]
  exact ⟨_, rfl⟩

/-- Another config over the same backend. -/
theorem concerns_do_not_interfere_rehearsed :
    let w := (rehearsed.build (.fresh (.fresh none none))).world
    rehearsed.AmongStandIns ∧ w.backend.made = 2 ∧ ∃ config, (rehearsed.build w).value = .ok config ∧
      let start : Session w.backend.made := .fresh config (rehearsed.build w).world
      (Session.watch [.get, .recordEvent "became leader", .change .startedLeading, .intoParts, .updateLast]
          start).value.filter (·.1.concern? = some .lock) =
        (Session.watch [.get, .updateLast] start).value := by
  intro w
  have hb : rehearsed.AmongStandIns := (Rehearsal.builder_amongStandIns _ _).withAudience
  obtain ⟨config, hbuild⟩ := rehearsed_build (w := w) rfl rfl
  obtain ⟨hfilter, -⟩ := concerns_do_not_interfere hb hbuild
  exact ⟨hb, rfl, config, hbuild, (hfilter .lock _).1⟩

end LeaderLease
