import LeaderLease.Json.Number

namespace LeaderLease.Json

/-- A character inside quotation marks. Only what the grammar demands is escaped. -/
def escape (c : Char) : List Char :=
  if c = '"' then ['\\', '"']
  else if c = '\\' then ['\\', '\\']
  else if c = '\x08' then ['\\', 'b']
  else if c = '\x0C' then ['\\', 'f']
  else if c = '\n' then ['\\', 'n']
  else if c = '\r' then ['\\', 'r']
  else if c = '\t' then ['\\', 't']
  else if c < ' ' then ['\\', 'u', '0', '0', Nat.digitChar (c.toNat / 16), Nat.digitChar (c.toNat % 16)]
  else [c]

def writeText (s : String) : List Char := '"' :: s.toList.flatMap escape ++ ['"']

def writeMember (key : String) (value : List Char) : List Char := writeText key ++ ':' :: value

def writeObject (members : List (String × List Char)) : List Char :=
  '{' :: List.intercalate [','] (members.map fun m => writeMember m.1 m.2) ++ ['}']

end LeaderLease.Json
