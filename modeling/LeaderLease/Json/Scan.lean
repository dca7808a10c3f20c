import LeaderLease.Json.Error
import LeaderLease.Text.Utf8

/-!
The tokens of JSON texts, read from the front of a list of bytes. Every reader returns the bytes that it leaves, and
a lemma beside it says that they are no more than it was given.
-/

namespace LeaderLease.Json

@[match_pattern] abbrev quote : UInt8 := 0x22
@[match_pattern] abbrev plus : UInt8 := 0x2B
@[match_pattern] abbrev comma : UInt8 := 0x2C
@[match_pattern] abbrev minus : UInt8 := 0x2D
@[match_pattern] abbrev point : UInt8 := 0x2E
@[match_pattern] abbrev colon : UInt8 := 0x3A
@[match_pattern] abbrev capitalE : UInt8 := 0x45
@[match_pattern] abbrev openBracket : UInt8 := 0x5B
@[match_pattern] abbrev backslash : UInt8 := 0x5C
@[match_pattern] abbrev closeBracket : UInt8 := 0x5D
@[match_pattern] abbrev letterE : UInt8 := 0x65
@[match_pattern] abbrev letterF : UInt8 := 0x66
@[match_pattern] abbrev letterN : UInt8 := 0x6E
@[match_pattern] abbrev letterT : UInt8 := 0x74
@[match_pattern] abbrev letterU : UInt8 := 0x75
@[match_pattern] abbrev openBrace : UInt8 := 0x7B
@[match_pattern] abbrev closeBrace : UInt8 := 0x7D

/-- Space, tab, line feed or carriage return. -/
def isBlank (b : UInt8) : Bool := b == 0x20 || b == 0x09 || b == 0x0A || b == 0x0D

def skipBlanks (bs : Bytes) : Bytes := bs.dropWhile isBlank

theorem skipBlanks_length_le (bs : Bytes) : (skipBlanks bs).length ≤ bs.length :=
  (List.dropWhile_suffix _).length_le

/-- The bytes of `true`, `false` and `null`, each after its first letter. -/
def restOfTrue : Bytes := [0x72, 0x75, 0x65]

def restOfFalse : Bytes := [0x61, 0x6C, 0x73, 0x65]

def restOfNull : Bytes := [0x75, 0x6C, 0x6C]

def readWord : Bytes → Bytes → Except Error Bytes
  | [], bs => .ok bs
  | _ :: _, [] => .error .endInValue
  | w :: ws, b :: bs => if b = w then readWord ws bs else .error .expectedWord

theorem readWord_length_le {word bs rest : Bytes} (h : readWord word bs = .ok rest) : rest.length ≤ bs.length := by
  induction word generalizing bs with
  | nil => cases h; exact Nat.le_refl _
  | cons w ws ih =>
    cases bs with
    | nil => cases h
    | cons b bs =>
      unfold readWord at h
      split at h
      · exact Nat.le_succ_of_le (ih h)
      · cases h

def isDigit (b : UInt8) : Bool := 0x30 ≤ b && b ≤ 0x39

def digitValue (b : UInt8) : Nat := b.toNat - 0x30

def hexValue? (b : UInt8) : Option Nat :=
  if 0x30 ≤ b ∧ b ≤ 0x39 then some (b.toNat - 0x30)
  else if 0x41 ≤ b ∧ b ≤ 0x46 then some (b.toNat - 0x41 + 10)
  else if 0x61 ≤ b ∧ b ≤ 0x66 then some (b.toNat - 0x61 + 10)
  else none

def readHex : Bytes → Except Error (Nat × Bytes)
  | a :: b :: c :: d :: rest =>
    match hexValue? a, hexValue? b, hexValue? c, hexValue? d with
    | some a, some b, some c, some d => .ok (((a * 16 + b) * 16 + c) * 16 + d, rest)
    | _, _, _, _ => .error .invalidEscape
  | _ => .error .endInText

theorem readHex_length_lt {bs rest : Bytes} {n : Nat} (h : readHex bs = .ok (n, rest)) : rest.length < bs.length := by
  unfold readHex at h
  split at h
  · split at h
    · cases h; simp only [List.length_cons]; omega
    · cases h
  · cases h

def isLeadingSurrogate (n : Nat) : Bool := 0xD800 ≤ n && n ≤ 0xDBFF

def isTrailingSurrogate (n : Nat) : Bool := 0xDC00 ≤ n && n ≤ 0xDFFF

/-- The second half of a pair of surrogates, as an escape of its own. -/
def readTrailingSurrogate : Bytes → Except Error (Nat × Bytes)
  | [] => .error .endInText
  | backslash :: [] => .error .endInText
  | backslash :: letterU :: rest => do
    let (n, rest) ← readHex rest
    if isTrailingSurrogate n then return (n, rest) else throw .loneSurrogate
  | _ => .error .unfinishedSurrogatePair

/-- The character whose code follows in hexadecimal digits, as one UTF-16 unit or a pair of surrogates. -/
def readCodedChar (bs : Bytes) : Except Error (Char × Bytes) := do
  let (n, rest) ← readHex bs
  if isTrailingSurrogate n then throw .loneSurrogate
  else if isLeadingSurrogate n then
    let (m, rest) ← readTrailingSurrogate rest
    return (Char.ofNat (0x10000 + (n - 0xD800) * 0x400 + (m - 0xDC00)), rest)
  else return (Char.ofNat n, rest)

def escapedChar? (b : UInt8) : Option Char :=
  if b = quote then some '"'
  else if b = backslash then some '\\'
  else if b = 0x2F then some '/'
  else if b = 0x62 then some '\x08'
  else if b = letterF then some '\x0C'
  else if b = letterN then some '\n'
  else if b = 0x72 then some '\r'
  else if b = letterT then some '\t'
  else none

def readEscape : Bytes → Except Error (Char × Bytes)
  | [] => .error .endInText
  | letterU :: rest => readCodedChar rest
  | b :: rest => match escapedChar? b with
    | some c => .ok (c, rest)
    | none => .error .invalidEscape

theorem readTrailingSurrogate_length_lt {bs rest : Bytes} {n : Nat} (h : readTrailingSurrogate bs = .ok (n, rest)) :
    rest.length < bs.length := by
  unfold readTrailingSurrogate at h
  split at h
  · cases h
  · cases h
  · rename_i tail
    cases hx : readHex tail with
    | error e => rw [hx] at h; cases h
    | ok found =>
      rw [hx] at h
      have := readHex_length_lt hx
      simp only [bind, Except.bind] at h
      split at h
      · cases h; simp only [List.length_cons]; omega
      · cases h
  · cases h

theorem readCodedChar_length_lt {bs rest : Bytes} {c : Char} (h : readCodedChar bs = .ok (c, rest)) :
    rest.length < bs.length := by
  unfold readCodedChar at h
  cases hx : readHex bs with
  | error e => rw [hx] at h; cases h
  | ok found =>
    obtain ⟨n, tail⟩ := found
    have short := readHex_length_lt hx
    rw [hx] at h
    simp only [bind, Except.bind] at h
    split at h
    · cases h
    · split at h
      · cases hy : readTrailingSurrogate tail with
        | error e => rw [hy] at h; cases h
        | ok second =>
          rw [hy] at h
          injection h with h
          injection h with _ h
          subst h
          exact Nat.lt_trans (readTrailingSurrogate_length_lt hy) short
      · injection h with h
        injection h with _ h
        subst h
        exact short

theorem readEscape_length_lt {bs rest : Bytes} {c : Char} (h : readEscape bs = .ok (c, rest)) :
    rest.length < bs.length := by
  unfold readEscape at h
  split at h
  · cases h
  · exact Nat.lt_succ_of_lt (readCodedChar_length_lt h)
  · split at h
    · cases h; exact Nat.lt_succ_self _
    · cases h

/-- The next bytes of a text inside quotation marks: those of an escaped character, or one as it stands. There are
none at the closing quotation mark. -/
def readUnit : Bytes → Except Error (Option Bytes × Bytes)
  | [] => .error .endInText
  | quote :: rest => .ok (none, rest)
  | backslash :: rest => do
    let (c, rest) ← readEscape rest
    return (some (Utf8.encode [c]), rest)
  | b :: rest => if b < 0x20 then .error .controlCharacter else .ok (some [b], rest)

theorem readUnit_length_lt {bs rest : Bytes} {unit : Option Bytes} (h : readUnit bs = .ok (unit, rest)) :
    rest.length < bs.length := by
  unfold readUnit at h
  split at h
  · cases h
  · cases h; exact Nat.lt_succ_self _
  · rename_i tail
    cases he : readEscape tail with
    | error e => rw [he] at h; cases h
    | ok found =>
      rw [he] at h
      cases h
      exact Nat.lt_succ_of_lt (readEscape_length_lt he)
  · split at h
    · cases h
    · cases h; exact Nat.lt_succ_self _

/-- The bytes of a text up to its closing quotation mark, with escapes replaced by what they stand for. -/
def readContent (bs : Bytes) : Except Error (Bytes × Bytes) :=
  match _h : readUnit bs with
  | .error e => .error e
  | .ok (none, rest) => .ok ([], rest)
  | .ok (some unit, rest) => do
    let (content, left) ← readContent rest
    return (unit ++ content, left)
termination_by bs.length
decreasing_by exact readUnit_length_lt _h

def readText (bs : Bytes) : Except Error (String × Bytes) := do
  let (content, rest) ← readContent bs
  match Utf8.decode? content with
  | some text => return (.ofList text, rest)
  | none => throw .notUnicode

theorem readContent_length_lt {bs content rest : Bytes} (h : readContent bs = .ok (content, rest)) :
    rest.length < bs.length := by
  fun_induction readContent bs generalizing content rest with
  | case1 => cases h
  | case2 bs tail hu => cases h; exact readUnit_length_lt hu
  | case3 bs unit tail hu ih =>
    cases hr : readContent tail with
    | error e => rw [hr] at h; cases h
    | ok found =>
      rw [hr] at h
      cases h
      exact Nat.lt_trans (ih hr) (readUnit_length_lt hu)

theorem readText_length_lt {bs rest : Bytes} {s : String} (h : readText bs = .ok (s, rest)) :
    rest.length < bs.length := by
  unfold readText at h
  cases hr : readContent bs with
  | error e => rw [hr] at h; cases h
  | ok found =>
    rw [hr] at h
    simp only [bind, Except.bind] at h
    split at h
    · cases h; exact readContent_length_lt hr
    · cases h

end LeaderLease.Json
