import LeaderLease.Act

/-!
Terminating when leadership is lost. A process that has lost its lock may still take itself for the leader, so it
ends at once, and it ends once however often and from however many threads the loss is reported.
-/

namespace LeaderLease

/-- A world with a guard beside it, which remembers whether leadership has been lost. -/
structure Guarded (ω : Type) where
  fired : Bool
  world : ω

namespace Guarded

variable {ω : Type}

def fresh (w : ω) : Guarded ω := ⟨false, w⟩

def inner : Part (Guarded ω) ω where
  get := world
  set w g := { g with world := w }
  get_set _ _ := rfl
  set_get _ := rfl
  set_set _ _ _ := rfl

/-- Set the guard and tell whether it was set before, in one step that nothing can come between. -/
def swap : Act (Guarded ω) Bool := fun g => ⟨g.fired, { g with fired := true }, []⟩

/-- Terminate, with a warning, unless this has been done before. -/
def onStoppedLeading (terminate : Act ω Unit) : Act (Guarded ω) Unit := do
  if ← swap then return ()
  else
    .emit .leadershipLost
    terminate.on inner

end Guarded

namespace LossReport

/-- How far a caller has got with its current report. -/
inductive Stage where
  | outside
  | won
  | warned
  deriving DecidableEq

/-- A thread that reports the loss some more times. -/
structure Caller where
  stage : Stage
  reports : Nat
  deriving DecidableEq

structure Crowd (ω : Type) where
  guarded : Guarded ω
  callers : List Caller

namespace Crowd

variable {ω : Type}

def guardPart : Part (Crowd ω) (Guarded ω) where
  get := guarded
  set g c := { c with guarded := g }
  get_set _ _ := rfl
  set_get _ := rfl
  set_set _ _ _ := rfl

def waiting (g : Guarded ω) (reports : List Nat) : Crowd ω := ⟨g, reports.map (⟨.outside, ·⟩)⟩

def setCaller (i : Nat) (caller : Caller) : Act (Crowd ω) Unit :=
  .change fun c => { c with callers := c.callers.set i caller }

/-- The next step of a thread, which no other thread can come between: to set the guard, to warn, or to terminate. -/
def advance (terminate : Act ω Unit) (i : Nat) (caller : Caller) : Act (Crowd ω) Unit :=
  match caller with
  | ⟨.outside, 0⟩ => return ()
  | ⟨.outside, reports + 1⟩ => do
    if ← Guarded.swap.on guardPart then setCaller i ⟨.outside, reports⟩
    else setCaller i ⟨.won, reports⟩
  | ⟨.won, reports⟩ => do
    .emit .leadershipLost
    setCaller i ⟨.warned, reports⟩
  | ⟨.warned, reports⟩ => do
    (terminate.on Guarded.inner).on guardPart
    setCaller i ⟨.outside, reports⟩

def step (terminate : Act ω Unit) (i : Nat) : Act (Crowd ω) Unit := do
  match ← .look (·.callers[i]?) with
  | some caller => advance terminate i caller
  | none => return ()

def run (terminate : Act ω Unit) : List Nat → Act (Crowd ω) Unit
  | [] => return ()
  | i :: schedule => do
    step terminate i
    run terminate schedule

/-- A schedule in which each of some threads takes three steps in turn, enough for one report each. -/
def roundRobin (threads : Nat) : List Nat :=
  List.range threads ++ List.range threads ++ List.range threads

end Crowd

def fromThreads {ω : Type} (terminate : Act ω Unit) (threads : Nat) : Act (Guarded ω) Unit := fun g =>
  let ended := Crowd.run terminate (Crowd.roundRobin threads) (.waiting g (List.replicate threads 1))
  ⟨(), ended.world.guarded, ended.log⟩

end LossReport

end LeaderLease
