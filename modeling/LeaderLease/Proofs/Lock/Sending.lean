import LeaderLease.Proofs.Lock.Outcome

namespace LeaderLease

variable {ω : Type}

def EventRecorder.watched (r : EventRecorder ω) : EventRecorder (Spied ω) where
  component := r.component
  namespaceName := r.namespaceName
  object := r.object
  transport := Spied.transport 0 r.transport
  now s := r.now s.world

def LeaseLock.watched (l : LeaseLock ω) : LeaseLock (Spied ω) where
  namespaceName := l.namespaceName
  name := l.name
  identity := l.identity
  client := Spied.transport 1 l.client
  locate := l.locate
  recorder := l.recorder.watched

def LeaseName.IsAddressable (n : LeaseName) : Prop := ∃ target, Target.parse n.resourcePath = .ok target

namespace LockCall

def IsSendable (n : LeaseName) (call : LockCall) : Prop := ∃ target, Target.parse (call.path n) = .ok target

def sent (n : LeaseName) (call : LockCall) : List Request :=
  match Target.parse (call.path n) with
  | .ok target => [⟨call.method, target, call.body⟩]
  | .error _ => []

/-- What a handle sends when it is used in a world. -/
def sends (l : LeaseLock ω) (call : LockCall) (w : ω) : List Request :=
  lockTraffic (call.perform l.watched ⟨w, []⟩).world.calls

variable {n : LeaseName} {call : LockCall}

theorem path_eq (n : LeaseName) (call : LockCall) : ∃ text, call.path n = .ofList ('/' :: text) := by
  cases call with
  | get => exact ⟨_, n.resourcePath_eq⟩
  | create record => exact ⟨_, n.collectionPath_eq⟩
  | update record => exact ⟨_, n.resourcePath_eq⟩

theorem sent_of_target {target : Target} (htarget : Target.parse (call.path n) = .ok target) :
    call.sent n = [⟨call.method, target, call.body⟩] := by
  unfold sent
  rw [htarget]

theorem sent_of_error {e : TargetError} (htarget : Target.parse (call.path n) = .error e) : call.sent n = [] := by
  unfold sent
  rw [htarget]

theorem sent_of_sendable (hsendable : call.IsSendable n) :
    call.sent n = [⟨call.method, Target.ofChars (call.path n).toList, call.body⟩] := by
  obtain ⟨target, htarget⟩ := hsendable
  obtain ⟨text, htext⟩ := path_eq n call
  rw [sent_of_target htarget]
  rw [htext] at htarget
  rw [htext, String.toList_ofList, Target.parse_eq htarget]

theorem perform_watched (l : LeaseLock ω) (call : LockCall) (s : Spied ω) :
    (call.perform l.watched s).value = (call.perform l s.world).value ∧
      (call.perform l.watched s).world =
        ⟨(call.perform l s.world).world, s.calls ++ (call.sent l.key).map (.request 1)⟩ := by
  cases htarget : Target.parse (call.path l.key) with
  | ok target =>
      obtain ⟨hworld, hvalue⟩ := perform_addressed (l := l) htarget s.world
      obtain ⟨hwatchedWorld, hwatchedValue⟩ := perform_addressed (l := l.watched) htarget s
      rw [hworld, hvalue, sent_of_target htarget]
      exact ⟨hwatchedValue, hwatchedWorld⟩
  | error e =>
      obtain ⟨hworld, hvalue⟩ := perform_unaddressed (l := l) htarget s.world
      obtain ⟨hwatchedWorld, hwatchedValue⟩ := perform_unaddressed (l := l.watched) htarget s
      rw [hworld, hvalue, hwatchedWorld, hwatchedValue, sent_of_error htarget]
      exact ⟨rfl, congrArg (Spied.mk s.world) (List.append_nil s.calls).symm⟩

/-- Neither the world nor anything done before has a say in what is sent. -/
theorem sends_eq (l : LeaseLock ω) (call : LockCall) (w : ω) : call.sends l w = call.sent l.key := by
  unfold sends
  rw [(perform_watched l call ⟨w, []⟩).2]
  exact lockTraffic_requests _

theorem sends_of_target {l : LeaseLock ω} {target : Target} (hkey : l.key = n)
    (htarget : Target.parse (call.path n) = .ok target) (w : ω) :
    call.sends l w = [⟨call.method, target, call.body⟩] := by
  rw [sends_eq, hkey, sent_of_target htarget]

theorem sends_of_error {l : LeaseLock ω} {e : TargetError} (hkey : l.key = n)
    (htarget : Target.parse (call.path n) = .error e) (w : ω) : call.sends l w = [] := by
  rw [sends_eq, hkey, sent_of_error htarget]

theorem sends_of_sendable {l : LeaseLock ω} (hsendable : call.IsSendable l.key) (w : ω) :
    call.sends l w = [⟨call.method, Target.ofChars (call.path l.key).toList, call.body⟩] :=
  (sends_eq l call w).trans (sent_of_sendable hsendable)

end LockCall

def contenderFor (n : LeaseName) : LeaseLock LeaseStore :=
  { twoContenders false with namespaceName := n.namespaceName, name := n.name }

theorem contenderFor_key (n : LeaseName) : (contenderFor n).key = n := rfl

end LeaderLease
