import LeaderLease.Json.Reader
import LeaderLease.Json.Skip

/-!
Readers of structured values. A structured value is written as an object, whose members come in any order among
members that nobody asks for, or as a list of its members in their order.
-/

namespace LeaderLease.Json

/-- A member of a structured value. Reading it fills a place in a draft. -/
structure Member (σ : Type) where
  key : String
  isFilled : σ → Bool
  value : Reader (σ → σ)

structure Shape (σ α : Type) where
  name : String
  members : List (Member σ)
  start : σ
  /-- A list may end before its last member. -/
  isOpenEnded : Bool
  finish : σ → Except Error α

/-- The value of a member that must not be missing. -/
def required {α : Type} (key : String) (value : Option α) : Except Error α :=
  match value with
  | some a => .ok a
  | none => .error (.missingMember key)

namespace Shape

variable {σ α : Type}

def readKeyed (shape : Shape σ α) (key : String) (draft : σ) (bs : Bytes) : Except Error (σ × Bytes) :=
  match shape.members.find? (·.key == key) with
  | some m =>
    if m.isFilled draft then .error (.repeatedMember key)
    else do
      let (fill, rest) ← m.value.run (← skipColon bs)
      return (fill draft, rest)
  | none => do return (draft, ← skipValue (← skipColon bs))

def readMember (shape : Shape σ α) (draft : σ) (bs : Bytes) : Except Error (σ × Bytes) := do
  let (key, rest) ← readText bs
  shape.readKeyed key draft rest

/-- What comes after a member: the end of the object, or the key of another member after its quotation mark. -/
def afterMember (bs : Bytes) : Except Error (Option Bytes × Bytes) :=
  match skipBlanks bs with
  | [] => .error .endInObject
  | closeBrace :: rest => .ok (none, rest)
  | comma :: rest => match skipBlanks rest with
    | [] => .error .endInValue
    | quote :: rest => .ok (some rest, rest)
    | closeBrace :: _ => .error .trailingComma
    | _ => .error .keyIsNoText
  | _ => .error .expectedCommaOrEndOfObject

theorem readKeyed_length_lt {shape : Shape σ α} {key : String} {draft draft' : σ} {bs rest : Bytes}
    (h : shape.readKeyed key draft bs = .ok (draft', rest)) : rest.length < bs.length := by
  unfold readKeyed at h
  split at h
  · rename_i m _
    split at h
    · cases h
    · cases hc : skipColon bs with
      | error e => rw [hc] at h; cases h
      | ok tail =>
        rw [hc] at h
        change (do let found ← m.value.run tail; pure (found.1 draft, found.2)) = _ at h
        cases hv : m.value.run tail with
        | error e => rw [hv] at h; cases h
        | ok found =>
          rw [hv] at h
          cases h
          exact Nat.lt_of_le_of_lt (m.value.length_le hv) (skipColon_length_lt hc)
  · cases hc : skipColon bs with
    | error e => rw [hc] at h; cases h
    | ok tail =>
      rw [hc] at h
      change (do let rest ← skipValue tail; pure (draft, rest)) = _ at h
      cases hv : skipValue tail with
      | error e => rw [hv] at h; cases h
      | ok rest' =>
        rw [hv] at h
        cases h
        exact Nat.lt_of_le_of_lt (skipValue_length_le hv) (skipColon_length_lt hc)

theorem readMember_length_lt {shape : Shape σ α} {draft draft' : σ} {bs rest : Bytes}
    (h : shape.readMember draft bs = .ok (draft', rest)) : rest.length < bs.length := by
  unfold readMember at h
  cases ht : readText bs with
  | error e => rw [ht] at h; cases h
  | ok found =>
    rw [ht] at h
    exact Nat.lt_trans (readKeyed_length_lt h) (readText_length_lt ht)

theorem afterMember_length_le {bs rest left : Bytes} (h : afterMember bs = .ok (some rest, left)) :
    rest.length ≤ bs.length := by
  have short := skipBlanks_length_le bs
  unfold afterMember at h
  split at h
  · cases h
  · cases h
  · rename_i tail hs
    rw [hs] at short
    have inner := skipBlanks_length_le tail
    split at h
    · cases h
    · rename_i hr
      cases h
      rw [hr] at inner
      exact Nat.le_trans (Nat.le_of_succ_le inner) (Nat.le_of_succ_le short)
    · cases h
    · cases h
  · cases h

/-- All members from the one whose opening quotation mark has been read, and the end of the object. -/
def readMembers (shape : Shape σ α) (draft : σ) (bs : Bytes) : Except Error (σ × Bytes) :=
  match _hm : shape.readMember draft bs with
  | .error e => .error e
  | .ok (draft, rest) =>
    match _ha : afterMember rest with
    | .error e => .error e
    | .ok (none, rest) => .ok (draft, rest)
    | .ok (some rest, _) => shape.readMembers draft rest
termination_by bs.length
decreasing_by exact Nat.lt_of_le_of_lt (afterMember_length_le _ha) (readMember_length_lt _hm)

def readObject (shape : Shape σ α) (bs : Bytes) : Except Error (α × Bytes) :=
  match skipBlanks bs with
  | [] => .error .endInObject
  | closeBrace :: rest => do return (← shape.finish shape.start, rest)
  | quote :: rest => do
    let (draft, rest) ← shape.readMembers shape.start rest
    return (← shape.finish draft, rest)
  | _ => .error .keyIsNoText

/-- The place of the next element of a list, if there is one. -/
def nextElement (isFirst : Bool) (bs : Bytes) : Except Error (Option Bytes) :=
  match skipBlanks bs with
  | [] => .error .endInList
  | closeBracket :: _ => .ok none
  | b :: rest =>
    if isFirst then .ok (some (b :: rest))
    else if b = comma then
      match skipBlanks rest with
      | [] => .error .endInValue
      | closeBracket :: _ => .error .trailingComma
      | next => .ok (some next)
    else .error .expectedCommaOrEndOfList

def readElements (shape : Shape σ α) : Nat → List (Member σ) → σ → Bytes → Except Error (σ × Bytes)
  | _, [], draft, bs => .ok (draft, bs)
  | index, m :: more, draft, bs => do
    match ← nextElement (index == 0) bs with
    | none =>
      if shape.isOpenEnded then return (draft, bs)
      else throw (.wrongLength index shape.name shape.members.length)
    | some place =>
      let (fill, rest) ← m.value.run place
      shape.readElements (index + 1) more (fill draft) rest

def endOfList (bs : Bytes) : Except Error Bytes :=
  match skipBlanks bs with
  | [] => .error .endInList
  | closeBracket :: rest => .ok rest
  | comma :: rest => match skipBlanks rest with
    | closeBracket :: _ => .error .trailingComma
    | _ => .error .trailingCharacters
  | _ => .error .trailingCharacters

def readList (shape : Shape σ α) (bs : Bytes) : Except Error (α × Bytes) := do
  let (draft, rest) ← shape.readElements 0 shape.members shape.start bs
  return (← shape.finish draft, ← endOfList rest)

def read (shape : Shape σ α) (bs : Bytes) : Except Error (α × Bytes) :=
  match skipBlanks bs with
  | openBrace :: rest => shape.readObject rest
  | openBracket :: rest => shape.readList rest
  | other => .error (mistyped (.shape shape.name) other)

def parse (shape : Shape σ α) (bs : Bytes) : Except Error α := whole shape.read bs

end Shape

end LeaderLease.Json
