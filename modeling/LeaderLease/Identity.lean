import LeaderLease.Act
import LeaderLease.Identity.Uuid

/-!
The identity of a contender. Processes can share a host, so the name of the host alone is never enough: unless the
user gives an identity, a unique identifier is part of it.
-/

namespace LeaderLease

structure IdentityResolver (ω : Type) where
  hostname : Act ω (Except String String)
  draw : Act ω Uuid

namespace IdentityResolver

variable {ω : Type}

def onHost (hostname : String) (unique : Uuid) : String := hostname ++ "_" ++ .ofList unique.text

/-- The explicit identity unless it is empty, and otherwise a new one. -/
def resolve (r : IdentityResolver ω) (explicit : String) : Act ω String :=
  if explicit ≠ "" then return explicit
  else do
    let unique ← r.draw
    let bare := String.ofList unique.text
    match ← r.hostname with
    | .ok hostname =>
      if hostname ≠ "" then return onHost hostname unique
      else do
        .emit (.hostnameEmpty bare)
        return bare
    | .error reason => do
      .emit (.hostnameUnavailable bare reason)
      return bare

end IdentityResolver

end LeaderLease
