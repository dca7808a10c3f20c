import LeaderLease.Namespace

namespace LeaderLease

inductive Platform where
  | absent
  /-- It answers with this. -/
  | answering (namespaceName : Option String)
  /-- It mounts a file with these bytes. -/
  | mounting (contents : Bytes)
  | mountingNothing
  | mountingDirectory

namespace Platform

/-- What comes of reading the file that the platform mounts. -/
def file (contents : Except String Bytes) : NamespaceFile Nat := .atWellKnownPath (return contents)

def provider : Platform → AmbientNamespace Nat
  | absent => .absent
  | answering name => (pure name : Act Nat _)
  | mounting contents => (file (.ok contents)).lookup
  | mountingNothing => (file (.error "No such file or directory")).lookup
  | mountingDirectory => (file (.error "Is a directory")).lookup

/-- Look up the namespace in a world that is the number of lookups. -/
def counted (p : Platform) : AmbientNamespace Nat := fun asked => p.provider (asked + 1)

end Platform

end LeaderLease
