import LeaderLease.Request.Method
import LeaderLease.Request.Target

namespace LeaderLease

structure Request where
  method : Method
  target : Target
  body : Bytes
  deriving DecidableEq

namespace Request

/-- A request to the target that a text names. -/
def address (method : Method) (path : String) (body : Bytes) : Except TargetError Request := do
  return { method, target := ← Target.parse path, body }

def path (r : Request) : String := r.target.path

end Request

structure Response where
  status : Nat
  body : Bytes
  deriving DecidableEq

namespace Response

def isSuccess (r : Response) : Bool := 200 ≤ r.status && r.status < 300

def notFound : Nat := 404

def conflict : Nat := 409

end Response

end LeaderLease
