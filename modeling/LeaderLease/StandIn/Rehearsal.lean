import LeaderLease.Election.Builder
import LeaderLease.StandIn.Audience
import LeaderLease.StandIn.Backend

/-!
A world made of stand-ins, in which a config can be assembled and used without a backend or a host.
-/

namespace LeaderLease

structure UuidSource where
  drawn : List Uuid
  deriving DecidableEq

namespace UuidSource

def fresh : UuidSource := ⟨[]⟩

/-- The identifier with a number. The numbers are spread so that no two texts look alike. -/
def nth (n : Nat) : Uuid :=
  .version7 (.ofNat 48 (1709251200000 + n)) (.ofNat 12 (0x9E3 * (n + 1))) (.ofNat 62 (0x2A5F1C3B7E9D4680 * (n + 1)))

def draw : Act UuidSource Uuid := fun s =>
  let next := nth s.drawn.length
  ⟨next, ⟨s.drawn ++ [next]⟩, []⟩

end UuidSource

def fixedHostname {ω : Type} (hostname : Option String) : Act ω (Except String String) :=
  return match hostname with
    | some name => .ok name
    | none => .error "hostname unavailable"

structure Rehearsal where
  backend : Backend
  uuids : UuidSource
  audience : Audience

namespace Rehearsal

def fresh (backend : Backend) : Rehearsal := ⟨backend, .fresh, .empty⟩

def backendPart : Part Rehearsal Backend where
  get := backend
  set b w := { w with backend := b }
  get_set _ _ := rfl
  set_get _ := rfl
  set_set _ _ _ := rfl

def uuidPart : Part Rehearsal UuidSource where
  get := uuids
  set u w := { w with uuids := u }
  get_set _ _ := rfl
  set_get _ := rfl
  set_set _ _ _ := rfl

def audiencePart : Part Rehearsal Audience where
  get := audience
  set a w := { w with audience := a }
  get_set _ _ := rfl
  set_get _ := rfl
  set_set _ _ _ := rfl

def connection (i : Nat) : Part Rehearsal Recording := backendPart.trans (Backend.connection i)

def connect : Act Rehearsal (Except Fault (Transport Rehearsal)) := do
  match ← Backend.connect.on backendPart with
  | .ok transport => return .ok (transport.on backendPart)
  | .error fault => return .error fault

def clock : Clock Rehearsal := ⟨fun _ => .zero, fun _ => .epoch⟩

def locate : Json.Locator := fun _ _ => .none

def resolver (hostname : Option String) : IdentityResolver Rehearsal :=
  ⟨fixedHostname hostname, UuidSource.draw.on uuidPart⟩

/-- A builder whose collaborators are the stand-ins. Terminating is only counted. -/
def builder (spec : TimingSpec) (hostname : Option String) : ConfigBuilder Rehearsal :=
  .forSpec spec connect (resolver hostname) (Audience.countStop.on audiencePart) clock locate

def withAudience (b : ConfigBuilder Rehearsal) : ConfigBuilder Rehearsal :=
  { b with
    onStartedLeading := some fun token => (Audience.receive token).on audiencePart
    onNewLeader := some fun identity => (Audience.hearLeader identity).on audiencePart }

end Rehearsal

end LeaderLease
