import LeaderLease.Json.Numeral

/-!
Readers of single values. White space may stand before a value. A value of another kind is itself read before it is
refused, so that a problem inside it comes first.
-/

namespace LeaderLease.Json

structure Reader (α : Type) where
  run : Bytes → Except Error (α × Bytes)
  length_le : ∀ {bs rest : Bytes} {a : α}, run bs = .ok (a, rest) → rest.length ≤ bs.length

/-- The problem with a value that is not of the expected kind, or a problem inside it. -/
def mistyped (expected : Expected) (bs : Bytes) : Error :=
  let found : Except Error Found := match bs with
    | [] => .error .endInValue
    | b :: rest =>
      if b = letterN then do
        let _ ← readWord restOfNull rest
        return .null
      else if b = letterT then do
        let _ ← readWord restOfTrue rest
        return .boolean true
      else if b = letterF then do
        let _ ← readWord restOfFalse rest
        return .boolean false
      else if beginsNumber b then do return .number (← readNumber bs).1
      else if b = quote then do return .text (← readText rest).1
      else if b = openBracket then .ok .sequence
      else if b = openBrace then .ok .map
      else .error .expectedValue
  match found with
  | .ok found => .wrongType found expected
  | .error e => e

namespace Reader

/-- Apply a function to what is read. It may refuse the value. -/
def check {α β : Type} (r : Reader α) (f : α → Except Error β) : Reader β where
  run bs := do
    let (a, rest) ← r.run bs
    return (← f a, rest)
  length_le {bs rest b} h := by
    cases hr : r.run bs with
    | error e => rw [hr] at h; cases h
    | ok found =>
      obtain ⟨a, tail⟩ := found
      rw [hr] at h
      simp only [bind, Except.bind] at h
      split at h
      · cases h
      · cases h; exact r.length_le hr

def map {α β : Type} (r : Reader α) (f : α → β) : Reader β := r.check fun a => .ok (f a)

/-- A text. What else is found is not what was expected. -/
def textAs (expected : Expected) : Reader String where
  run bs := match skipBlanks bs with
    | quote :: rest => readText rest
    | other => .error (mistyped expected other)
  length_le {bs rest s} h := by
    have short := skipBlanks_length_le bs
    split at h
    · rename_i hs
      rw [hs] at short
      exact Nat.le_trans (Nat.le_of_lt (readText_length_lt h)) (Nat.le_of_succ_le short)
    · cases h

def text : Reader String := textAs .text

def number (expected : Expected) : Reader Number where
  run bs := match skipBlanks bs with
    | [] => .error .endInValue
    | b :: rest => if beginsNumber b then readNumber (b :: rest) else .error (mistyped expected (b :: rest))
  length_le {bs rest n} h := by
    have short := skipBlanks_length_le bs
    split at h
    · cases h
    · rename_i hs
      rw [hs] at short
      split at h
      · exact Nat.le_trans (readNumber_length_le h) short
      · cases h

def integerBelow (limit : Nat) (expected : Expected) : Reader Nat :=
  (number expected).check fun n => match n with
    | .natural k => if k < limit then .ok k else .error (.wrongValue (.number n) expected)
    | .negative _ => .error (.wrongValue (.number n) expected)
    | .real .. => .error (.wrongType (.number n) expected)

def word32 : Reader UInt32 := (integerBelow (Nat.pow 2 32) .word32).map .ofNat

def word64 : Reader UInt64 := (integerBelow (Nat.pow 2 64) .word64).map .ofNat

def duration : Reader Duration :=
  (number .real).check fun n =>
    let duration? := match n with
      | .natural k => Duration.ofSeconds? false (.ofNat k)
      | .negative k => Duration.ofSeconds? true (.ofNat k)
      | .real isNegative magnitude => Duration.ofSeconds? isNegative magnitude
    duration?.mapError .noDuration

def optional {α : Type} (r : Reader α) : Reader (Option α) where
  run bs := match skipBlanks bs with
    | letterN :: rest => do return (none, ← readWord restOfNull rest)
    | other => do
      let (a, rest) ← r.run other
      return (some a, rest)
  length_le {bs rest a} h := by
    have short := skipBlanks_length_le bs
    dsimp only at h
    split at h
    · rename_i tail hs
      rw [hs] at short
      cases hw : readWord restOfNull tail with
      | error e => rw [hw] at h; cases h
      | ok tail' =>
        rw [hw] at h
        cases h
        exact Nat.le_trans (readWord_length_le hw) (Nat.le_of_succ_le short)
    · cases hr : r.run (skipBlanks bs) with
      | error e => rw [hr] at h; cases h
      | ok found =>
        rw [hr] at h
        cases h
        exact Nat.le_trans (r.length_le hr) short

def timestamp : Reader Timestamp :=
  (textAs .timestamp).check fun s => (Timestamp.read s.toList).mapError .noTimestamp

end Reader

def skipColon (bs : Bytes) : Except Error Bytes :=
  match skipBlanks bs with
  | [] => .error .endInObject
  | colon :: rest => .ok rest
  | _ => .error .expectedColon

theorem skipColon_length_lt {bs rest : Bytes} (h : skipColon bs = .ok rest) : rest.length < bs.length := by
  have short := skipBlanks_length_le bs
  unfold skipColon at h
  split at h
  · cases h
  · rename_i hs
    cases h
    rw [hs] at short
    exact short
  · cases h

/-- A whole text: what `run` reads, and white space after it. -/
def whole {α : Type} (run : Bytes → Except Error (α × Bytes)) (bs : Bytes) : Except Error α := do
  let (a, rest) ← run bs
  if skipBlanks rest = [] then return a else throw .trailingCharacters

end LeaderLease.Json
