import LeaderLease.Transport
import LeaderLease.Json.Error

namespace LeaderLease

inductive LockError where
  /-- There is no such lock. -/
  | notFound (lock : String)
  /-- Another contender was faster. -/
  | conflict (lock : String)
  | unexpectedStatus (status : Nat) (body : String)
  /-- The backend answered with something that is no record. -/
  | unreadable (reason : Json.LocatedError)
  /-- The request could not be addressed or delivered. -/
  | transport (fault : Fault)
  deriving DecidableEq

namespace LockError

def message : LockError → String
  | notFound lock => "Lock " ++ lock ++ " not found"
  | conflict lock => "Lock " ++ lock ++ " was modified by another contender"
  | unexpectedStatus status body => "Lock backend answered with unexpected status " ++ toString status ++ ": " ++ body
  | unreadable reason => "Failed to encode or decode leader election record: " ++ reason.message
  | transport fault => "Lock backend transport error: " ++ fault.message

def source? : LockError → Option String
  | unreadable reason => some reason.message
  | transport fault => some fault.message
  | notFound _ | conflict _ | unexpectedStatus .. => none

end LockError

end LeaderLease
