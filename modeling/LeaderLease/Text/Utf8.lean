/-!
UTF-8. Bytes are read one at a time into pieces: characters, and maximal parts that belong to no character. Strict
reading refuses text with such a part, lenient reading puts U+FFFD for each.
-/

namespace LeaderLease

abbrev Bytes := List UInt8

namespace Utf8

def encode (text : List Char) : Bytes := text.flatMap String.utf8EncodeChar

/-- A character whose first bytes have been read. -/
structure Sequence where
  /-- How many bytes follow the next one. -/
  further : Nat
  /-- The next byte lies between these two. -/
  lowest : UInt8
  highest : UInt8
  code : Nat
  deriving DecidableEq

namespace Sequence

def allows (s : Sequence) (b : UInt8) : Bool := s.lowest ≤ b && b ≤ s.highest

/-- The sequence that a first byte begins. The bounds on the second byte leave out overlong forms, surrogates and
what lies beyond U+10FFFF. -/
def start? (b : UInt8) : Option Sequence :=
  if 0xC2 ≤ b ∧ b ≤ 0xDF then some ⟨0, 0x80, 0xBF, b.toNat % 32⟩
  else if b = 0xE0 then some ⟨1, 0xA0, 0xBF, b.toNat % 16⟩
  else if b = 0xED then some ⟨1, 0x80, 0x9F, b.toNat % 16⟩
  else if 0xE1 ≤ b ∧ b ≤ 0xEF then some ⟨1, 0x80, 0xBF, b.toNat % 16⟩
  else if b = 0xF0 then some ⟨2, 0x90, 0xBF, b.toNat % 8⟩
  else if 0xF1 ≤ b ∧ b ≤ 0xF3 then some ⟨2, 0x80, 0xBF, b.toNat % 8⟩
  else if b = 0xF4 then some ⟨2, 0x80, 0x8F, b.toNat % 8⟩
  else none

end Sequence

/-- A character, or nothing for a maximal part that belongs to no character. -/
abbrev Piece := Option Char

/-- What a byte completes where a new character may begin, and the sequence it begins. -/
def first (b : UInt8) : List Piece × Option Sequence :=
  if b < 0x80 then ([some (Char.ofNat b.toNat)], none)
  else match Sequence.start? b with
    | some s => ([], some s)
    | none => ([none], none)

/-- What a byte completes after a sequence has begun, and the sequence that is open after it. -/
def next (s : Sequence) (b : UInt8) : List Piece × Option Sequence :=
  if s.allows b then
    let code := s.code * 64 + b.toNat % 64
    match s.further with
    | 0 => ([some (Char.ofNat code)], none)
    | n + 1 => ([], some ⟨n, 0x80, 0xBF, code⟩)
  else
    let (pieces, opened) := first b
    (none :: pieces, opened)

def piecesAfter : Option Sequence → Bytes → List Piece
  | none, [] => []
  | some _, [] => [none]
  | none, b :: bs => (first b).1 ++ piecesAfter (first b).2 bs
  | some s, b :: bs => (next s b).1 ++ piecesAfter (next s b).2 bs

def pieces (bs : Bytes) : List Piece := piecesAfter none bs

def decode? (bs : Bytes) : Option (List Char) := (pieces bs).mapM id

/-- The text with U+FFFD for each maximal part that belongs to no character. -/
def decodeLenient (bs : Bytes) : List Char := (pieces bs).map (·.getD '\uFFFD')

end Utf8

end LeaderLease
