namespace LeaderLease

namespace Method

/-- Letters, digits and the marks that do not end a token. -/
def isTokenChar (c : Char) : Bool := c.isAlphanum || "!#$%&'*+-.^_`|~".toList.contains c

def isToken (name : String) : Bool := !name.toList.isEmpty && name.toList.all isTokenChar

end Method

/-- A method is known by its name, a token in which upper and lower case differ. -/
structure Method where
  name : String
  nameIsToken : Method.isToken name
  deriving DecidableEq

namespace Method

def get : Method := ⟨"GET", rfl⟩

def post : Method := ⟨"POST", rfl⟩

def put : Method := ⟨"PUT", rfl⟩

def ofName? (name : String) : Option Method :=
  if h : isToken name then some ⟨name, h⟩ else none

end Method

end LeaderLease
