import LeaderLease.Json.Reader

namespace LeaderLease.Json

structure Variants (α : Type) where
  firstName : String
  first : α
  secondName : String
  second : α

namespace Variants

def find {α : Type} (v : Variants α) (name : String) : Except Error α :=
  if name = v.firstName then .ok v.first
  else if name = v.secondName then .ok v.second
  else .error (.unknownVariant name v.firstName v.secondName)

/-- Past a member that has to be `null`, and past the end of its object. -/
def pastUnit (bs : Bytes) : Except Error Bytes :=
  match skipBlanks bs with
  | letterN :: rest => do
    match skipBlanks (← readWord restOfNull rest) with
    | [] => throw .endInObject
    | closeBrace :: rest => return rest
    | _ => throw .expectedValue
  | other => .error (mistyped .unit other)

theorem pastUnit_length_le {bs rest : Bytes} (h : pastUnit bs = .ok rest) : rest.length ≤ bs.length := by
  have short := skipBlanks_length_le bs
  unfold pastUnit at h
  split at h
  · rename_i tail hs
    rw [hs] at short
    cases hw : readWord restOfNull tail with
    | error e => rw [hw] at h; cases h
    | ok tail' =>
      have := readWord_length_le hw
      have := skipBlanks_length_le tail'
      rw [hw] at h
      simp only [bind, Except.bind] at h
      split at h
      · cases h
      · rename_i hr
        cases h
        rw [hr] at this
        simp only [List.length_cons] at *
        omega
      · cases h
  · cases h

/-- The name as the only key of an object, after its opening brace. -/
def readKeyed {α : Type} (v : Variants α) (bs : Bytes) : Except Error (α × Bytes) :=
  match skipBlanks bs with
  | [] => .error .endInObject
  | quote :: rest => do
    let (name, rest) ← readText rest
    let a ← v.find name
    return (a, ← pastUnit (← skipColon rest))
  | closeBrace :: _ => .error .expectedValue
  | _ => .error .keyIsNoText

theorem readKeyed_length_le {α : Type} {v : Variants α} {bs rest : Bytes} {a : α}
    (h : v.readKeyed bs = .ok (a, rest)) : rest.length ≤ bs.length := by
  have short := skipBlanks_length_le bs
  unfold readKeyed at h
  split at h
  · cases h
  · rename_i tail hs
    rw [hs] at short
    cases ht : readText tail with
    | error e => rw [ht] at h; cases h
    | ok found =>
      have := readText_length_lt ht
      rw [ht] at h
      simp only [bind, Except.bind] at h
      split at h
      · cases h
      · split at h
        · cases h
        · rename_i hc
          have := skipColon_length_lt hc
          split at h
          · cases h
          · rename_i hu
            have := pastUnit_length_le hu
            cases h
            simp only [List.length_cons] at *
            omega
  · cases h
  · cases h

def reader {α : Type} (v : Variants α) : Reader α where
  run bs := match skipBlanks bs with
    | [] => .error .endInValue
    | quote :: rest => do
      let (name, rest) ← readText rest
      return (← v.find name, rest)
    | openBrace :: rest => v.readKeyed rest
    | _ => .error .expectedValue
  length_le {bs rest a} h := by
    have short := skipBlanks_length_le bs
    dsimp only at h
    split at h
    · cases h
    · rename_i tail hs
      rw [hs] at short
      cases ht : readText tail with
      | error e => rw [ht] at h; cases h
      | ok found =>
        rw [ht] at h
        simp only [bind, Except.bind] at h
        split at h
        · cases h
        · cases h
          exact Nat.le_trans (Nat.le_of_lt (readText_length_lt ht)) (Nat.le_of_succ_le short)
    · rename_i hs
      rw [hs] at short
      exact Nat.le_trans (readKeyed_length_le h) (Nat.le_of_succ_le short)
    · cases h

def parse {α : Type} (v : Variants α) (bs : Bytes) : Except Error α := whole v.reader.run bs

end Variants

end LeaderLease.Json
