import LeaderLease.StandIn.Recording

namespace LeaderLease

structure Backend where
  /-- Why no connection can be made, if none can. -/
  unavailable : Option String
  /-- An attempt to connect, counted from one, that fails before it gets here. -/
  failing : Option (Nat × Fault)
  attempts : Nat
  /-- The attempts that got here. -/
  reached : Nat
  made : Nat
  /-- The connections, numbered from zero. Those still to be made are blank. -/
  connections : Nat → Recording

namespace Backend

def fresh (unavailable : Option String) (failing : Option (Nat × Fault)) : Backend :=
  ⟨unavailable, failing, 0, 0, 0, fun _ => .blank⟩

def connection (i : Nat) : Part Backend Recording where
  get b := b.connections i
  set r b := { b with connections := fun j => if j = i then r else b.connections j }
  get_set r b := if_pos rfl
  set_get b := by
    have same : (fun j => if j = i then b.connections i else b.connections j) = b.connections := by
      funext j
      split <;> simp_all
    rw [same]
  set_set q r b := by
    have same : (fun j => if j = i then q else if j = i then r else b.connections j) =
        fun j => if j = i then q else b.connections j := by
      funext j
      split <;> rfl
    rw [same]

def accept (b : Backend) : Ended Backend (Except Fault (Transport Backend)) :=
  let b := { b with reached := b.reached + 1 }
  match b.unavailable with
  | some reason => ⟨.error ⟨reason, []⟩, b, []⟩
  | none =>
    ⟨.ok (Recording.transport.on (connection b.made)), { b with made := b.made + 1 }, []⟩

def connect : Act Backend (Except Fault (Transport Backend)) := fun b =>
  let b := { b with attempts := b.attempts + 1 }
  match b.failing with
  | some (attempt, fault) => if b.attempts = attempt then ⟨.error fault, b, []⟩ else b.accept
  | none => b.accept

end Backend

end LeaderLease
