import LeaderLease.Text.Printable

namespace LeaderLease

namespace Quoted

def escape (c : Char) : List Char :=
  if c = '"' then ['\\', '"']
  else if c = '\\' then ['\\', '\\']
  else if c = '\n' then ['\\', 'n']
  else if c = '\t' then ['\\', 't']
  else if c = '\r' then ['\\', 'r']
  else if c = '\x00' then ['\\', '0']
  else if isPrintable c then [c]
  else ['\\', 'u', '\x7b'] ++ Nat.toDigits 16 c.toNat ++ ['\x7d']

end Quoted

/-- The text between quotation marks, with quotation marks, backslashes and what is not printable escaped. -/
def quoted (text : String) : String :=
  .ofList ('"' :: text.toList.flatMap Quoted.escape ++ ['"'])

end LeaderLease
