import LeaderLease.Text.Utf8

namespace LeaderLease

/-- The path and the query of a request, without a fragment. -/
structure Target where
  path : String
  query : Option String
  deriving DecidableEq

inductive TargetError where
  | empty
  | tooLong
  | invalidCharacter
  deriving DecidableEq

def TargetError.message : TargetError → String
  | empty => "empty string"
  | tooLong => "uri too long"
  | invalidCharacter => "invalid uri character"

namespace Target

def byteLimit : Nat := 65534

/-- Control characters, blanks and angle brackets stand nowhere in a target. -/
def isForbidden (c : Char) : Bool := c ≤ ' ' || c == '<' || c == '>' || c == '\x7F'

/-- A path has no grave accent, either. -/
def isPathChar (c : Char) : Bool := !isForbidden c && c != '\x60'

/-- A query has no quotation mark, either. -/
def isQueryChar (c : Char) : Bool := !isForbidden c && c != '"'

def endsPath (c : Char) : Bool := c == '?' || c == '#'

/-- What follows the path: a query up to a fragment, or no query. -/
def parseQuery (text : List Char) : Except TargetError (Option String) :=
  match text with
  | '?' :: rest =>
    let query := rest.takeWhile (· != '#')
    if query.all isQueryChar then .ok (some (.ofList query)) else .error .invalidCharacter
  | _ => .ok none

/-- A target that is an asterisk or begins with a slash. A fragment is dropped unseen. Only these forms are covered: the
absolute one, and the one that is an authority alone, are answered as an invalid character. -/
def parse (text : String) : Except TargetError Target :=
  let chars := text.toList
  if byteLimit < (Utf8.encode chars).length then .error .tooLong
  else match chars with
    | [] => .error .empty
    | ['*'] => .ok ⟨"*", none⟩
    | '/' :: _ => do
      let path := chars.takeWhile (!endsPath ·)
      if path.all isPathChar then
        return ⟨.ofList path, ← parseQuery (chars.dropWhile (!endsPath ·))⟩
      else throw .invalidCharacter
    | _ => .error .invalidCharacter

def text (t : Target) : String :=
  match t.query with
  | some query => t.path ++ "?" ++ query
  | none => t.path

end Target

end LeaderLease
