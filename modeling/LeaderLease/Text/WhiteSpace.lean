namespace LeaderLease

/-- White_Space. Zero width spaces, separators among the control characters and the byte order mark are not in it. -/
def isWhiteSpace (c : Char) : Bool :=
  ('\x09' ≤ c && c ≤ '\x0D') || c == ' ' || c == '\u0085' || c == '\u00A0' || c == '\u1680' ||
    ('\u2000' ≤ c && c ≤ '\u200A') || c == '\u2028' || c == '\u2029' || c == '\u202F' || c == '\u205F' ||
    c == '\u3000'

def trimStart (text : List Char) : List Char := text.dropWhile isWhiteSpace

def trimEnd (text : List Char) : List Char := (text.reverse.dropWhile isWhiteSpace).reverse

def trim (text : List Char) : List Char := trimEnd (trimStart text)

end LeaderLease
