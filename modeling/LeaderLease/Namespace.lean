import LeaderLease.Act
import LeaderLease.Text.WhiteSpace

namespace LeaderLease

/-- Looks up the namespace that the platform provides, if it provides one. -/
abbrev AmbientNamespace (ω : Type) := Act ω (Option String)

def AmbientNamespace.absent {ω : Type} : AmbientNamespace ω := (pure none : Act ω (Option String))

structure NamespaceFile (ω : Type) where
  path : String
  contents : Act ω (Except String Bytes)

namespace NamespaceFile

def wellKnownPath : String := "/var/run/secrets/kubernetes.io/serviceaccount/namespace"

def notText : String := "stream did not contain valid UTF-8"

def atWellKnownPath {ω : Type} (contents : Act ω (Except String Bytes)) : NamespaceFile ω :=
  ⟨wellKnownPath, contents⟩

def text (read : Except String Bytes) : Except String (List Char) := do
  match Utf8.decode? (← read) with
  | some text => return text
  | none => throw notText

/-- The text of the file without white space around it. -/
def lookup {ω : Type} (file : NamespaceFile ω) : Act ω (Option String) := do
  match text (← file.contents) with
  | .error reason => do
    .emit (.ambientUnavailable file.path reason)
    return none
  | .ok text =>
    let found := trim text
    if found = [] then do
      .emit (.ambientBlank file.path)
      return none
    else return some (.ofList found)

end NamespaceFile

/-- The explicit namespace, or the default, or what the platform provides. Neither of the first two counts if it is
empty, and the platform is asked only if neither counts. -/
def resolveNamespace {ω : Type} (explicit : String) (fallback : Option String) (ambient : AmbientNamespace ω) :
    Act ω (Option String) :=
  if explicit ≠ "" then return some explicit
  else match fallback.filter (· ≠ "") with
    | some name => return some name
    | none => ambient

end LeaderLease
