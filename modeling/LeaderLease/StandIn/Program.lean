import LeaderLease.Election.Builder

/-!
A program that can print and exit. Nothing happens in it after it has exited.
-/

namespace LeaderLease

structure Program where
  stdout : String
  exited : Option Nat
  deriving DecidableEq

namespace Program

def fresh : Program := ⟨"", none⟩

def isRunning (p : Program) : Bool := p.exited.isNone

def say (line : String) : Act Program Unit :=
  .change fun p => if p.isRunning then { p with stdout := p.stdout ++ line ++ "\n" } else p

def exit (status : Nat) : Act Program Unit :=
  .change fun p => if p.isRunning then { p with exited := some status } else p

/-- The status of the program when it has come to its end. Running off the end is a success. -/
def exitStatus (p : Program) : Nat := p.exited.getD 0

/-- How a program terminates when leadership is lost: its work is over, which is no failure. -/
def terminate : Act Program Unit := exit 0

def saying (middle : Act Program Unit) : Act Program Unit := do
  say "before"
  middle
  say "after"

def reportLoss : Act Program Unit := fun p =>
  let ended := Guarded.onStoppedLeading terminate (.fresh p)
  ⟨(), ended.world.world, ended.log⟩

def acceptAll : Transport Program := fun _ => (return .ok ⟨200, []⟩ : Act Program (Except TransportError Response))

def resolver : IdentityResolver Program := ⟨return .error "hostname unavailable", return .version7 0 0 0⟩

def clock : Clock Program := ⟨fun _ => .zero, fun _ => .epoch⟩

/-- Every error is told at the end of the first line. -/
def locate : Json.Locator := fun body _ => ⟨1, body.length⟩

def builder : ConfigBuilder Program :=
  { ConfigBuilder.forSpec (.forLock "team-a" "controller-lock") (return .ok acceptAll) resolver terminate clock
      locate with
    identity := "contender" }

def reportLossToConfig : Act Program Unit := do
  match ← builder.build with
  | .ok config => fun p =>
    let ended := config.callbacks.stoppedLeading (.fresh p)
    ⟨(), ended.world.world, ended.log⟩
  | .error _ => return ()

end Program

end LeaderLease
