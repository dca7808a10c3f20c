import LeaderLease.Json.Scan

/-!
Passing over a value that nobody asks for. Only its grammar is checked: numbers may be of any size, texts may hold
bytes that are not UTF-8 and surrogates of any kind, and values may be nested to any depth.
-/

namespace LeaderLease.Json

namespace Skip

inductive Frame where
  | list
  | object
  deriving DecidableEq

def pastEscape : Bytes → Except Error Bytes
  | [] => .error .endInText
  | letterU :: rest => do return (← readHex rest).2
  | b :: rest => if (escapedChar? b).isSome then .ok rest else .error .invalidEscape

theorem pastEscape_length_lt {bs rest : Bytes} (h : pastEscape bs = .ok rest) : rest.length < bs.length := by
  unfold pastEscape at h
  split at h
  · cases h
  · rename_i tail
    cases hx : readHex tail with
    | error e => rw [hx] at h; cases h
    | ok found =>
      rw [hx] at h
      cases h
      exact Nat.lt_succ_of_lt (readHex_length_lt hx)
  · split at h
    · cases h; exact Nat.lt_succ_self _
    · cases h

/-- What stands after a text whose opening quotation mark has been read. -/
def pastText (bs : Bytes) : Except Error Bytes :=
  match bs with
  | [] => .error .endInText
  | b :: tail =>
    if b = quote then .ok tail
    else if b = backslash then
      match _h : pastEscape tail with
      | .error e => .error e
      | .ok rest => pastText rest
    else if b < 0x20 then .error .controlCharacter
    else pastText tail
termination_by bs.length
decreasing_by
  · exact Nat.lt_succ_of_lt (pastEscape_length_lt _h)
  · exact Nat.lt_succ_self _

theorem pastText_length_lt {bs rest : Bytes} (h : pastText bs = .ok rest) : rest.length < bs.length := by
  fun_induction pastText bs with
  | case1 => cases h
  | case2 => cases h; exact Nat.lt_succ_self _
  | case3 => cases h
  | case4 _ _ he _ ih => exact Nat.lt_trans (ih h) (Nat.lt_succ_of_lt (pastEscape_length_lt he))
  | case5 => cases h
  | case6 _ _ _ _ _ ih => exact Nat.lt_succ_of_lt (ih h)

def pastDigits : Bytes → Except Error Bytes
  | [] => .error .invalidNumber
  | d :: rest => if isDigit d then .ok (rest.dropWhile isDigit) else .error .invalidNumber

theorem pastDigits_length_le {bs rest : Bytes} (h : pastDigits bs = .ok rest) : rest.length ≤ bs.length := by
  unfold pastDigits at h
  split at h
  · cases h
  · split at h
    · cases h
      exact Nat.le_succ_of_le (List.dropWhile_suffix _).length_le
    · cases h

def pastExponent : Bytes → Except Error Bytes
  | letterE :: plus :: rest | letterE :: minus :: rest | capitalE :: plus :: rest | capitalE :: minus :: rest =>
    pastDigits rest
  | letterE :: rest | capitalE :: rest => pastDigits rest
  | bs => .ok bs

theorem pastExponent_length_le {bs rest : Bytes} (h : pastExponent bs = .ok rest) : rest.length ≤ bs.length := by
  unfold pastExponent at h
  split at h
  all_goals first
    | exact Nat.le_succ_of_le (Nat.le_succ_of_le (pastDigits_length_le h))
    | exact Nat.le_succ_of_le (pastDigits_length_le h)
    | cases h; exact Nat.le_refl _

def pastFraction : Bytes → Except Error Bytes
  | point :: rest => do pastExponent (← pastDigits rest)
  | bs => pastExponent bs

theorem pastFraction_length_le {bs rest : Bytes} (h : pastFraction bs = .ok rest) : rest.length ≤ bs.length := by
  unfold pastFraction at h
  split at h
  · rename_i tail
    cases hd : pastDigits tail with
    | error e => rw [hd] at h; cases h
    | ok rest' =>
      rw [hd] at h
      exact Nat.le_succ_of_le (Nat.le_trans (pastExponent_length_le h) (pastDigits_length_le hd))
  · exact pastExponent_length_le h

/-- What stands after a number whose sign has been read. -/
def pastNumber : Bytes → Except Error Bytes
  | [] => .error .invalidNumber
  | d :: rest =>
    if ¬isDigit d then .error .invalidNumber
    else if d = 0x30 then
      match rest with
      | [] => .ok []
      | next :: _ => if isDigit next then .error .invalidNumber else pastFraction rest
    else pastFraction (rest.dropWhile isDigit)

theorem pastNumber_length_lt {bs rest : Bytes} (h : pastNumber bs = .ok rest) : rest.length < bs.length := by
  unfold pastNumber at h
  split at h
  · cases h
  · split at h
    · cases h
    · split at h
      · split at h
        · cases h; exact Nat.lt_succ_self _
        · split at h
          · cases h
          · exact Nat.lt_succ_of_le (pastFraction_length_le h)
      · exact Nat.lt_succ_of_le (Nat.le_trans (pastFraction_length_le h) (List.dropWhile_suffix _).length_le)

/-- What stands after the key of a member and its colon. -/
def pastKey (bs : Bytes) : Except Error Bytes :=
  match skipBlanks bs with
  | [] => .error .endInObject
  | quote :: rest => do
    match skipBlanks (← pastText rest) with
    | [] => throw .endInObject
    | colon :: rest => return rest
    | _ => throw .expectedColon
  | _ => .error .keyIsNoText

theorem pastKey_length_le {bs rest : Bytes} (h : pastKey bs = .ok rest) : rest.length ≤ bs.length := by
  have short := skipBlanks_length_le bs
  unfold pastKey at h
  split at h
  · cases h
  · rename_i tail hs
    rw [hs] at short
    cases ht : pastText tail with
    | error e => rw [ht] at h; cases h
    | ok rest' =>
      have := pastText_length_lt ht
      have := skipBlanks_length_le rest'
      rw [ht] at h
      simp only [bind, Except.bind] at h
      split at h
      · cases h
      · rename_i hr
        cases h
        rw [hr] at this
        simp only [List.length_cons] at *
        omega
      · cases h
  · cases h

/-- After a value, up to the next value in the innermost list or object that has one. No frame is left when the
outermost value has ended. -/
def afterValue : List Frame → Bytes → Except Error (List Frame × Bytes)
  | [], bs => .ok ([], bs)
  | .list :: frames, bs =>
    match skipBlanks bs with
    | [] => .error .endInList
    | comma :: rest => .ok (.list :: frames, rest)
    | closeBracket :: rest => afterValue frames rest
    | _ => .error .expectedCommaOrEndOfList
  | .object :: frames, bs =>
    match skipBlanks bs with
    | [] => .error .endInObject
    | comma :: rest => do return (.object :: frames, ← pastKey rest)
    | closeBrace :: rest => afterValue frames rest
    | _ => .error .expectedCommaOrEndOfObject

theorem afterValue_length_le {frames left : List Frame} {bs rest : Bytes}
    (h : afterValue frames bs = .ok (left, rest)) : rest.length ≤ bs.length := by
  have short := skipBlanks_length_le bs
  fun_induction afterValue frames bs with
  | case1 => cases h; exact Nat.le_refl _
  | case2 => cases h
  | case3 frames bs tail hs => cases h; rw [hs] at short; exact Nat.le_of_succ_le short
  | case4 frames bs tail hs ih =>
    rw [hs] at short
    exact Nat.le_trans (ih h (skipBlanks_length_le _)) (Nat.le_of_succ_le short)
  | case5 => cases h
  | case6 => cases h
  | case7 frames bs tail hs =>
    rw [hs] at short
    cases hk : pastKey tail with
    | error e => rw [hk] at h; cases h
    | ok rest' =>
      rw [hk] at h
      cases h
      exact Nat.le_trans (pastKey_length_le hk) (Nat.le_of_succ_le short)
  | case8 frames bs tail hs ih =>
    rw [hs] at short
    exact Nat.le_trans (ih h (skipBlanks_length_le _)) (Nat.le_of_succ_le short)
  | case9 => cases h

/-- From the place of a value to the place of the next: past a scalar, or into a list or an object. -/
def nextValue (frames : List Frame) (bs : Bytes) : Except Error (List Frame × Bytes) :=
  match skipBlanks bs with
  | [] => .error .endInValue
  | b :: rest =>
    if b = letterN then do afterValue frames (← readWord restOfNull rest)
    else if b = letterT then do afterValue frames (← readWord restOfTrue rest)
    else if b = letterF then do afterValue frames (← readWord restOfFalse rest)
    else if b = minus then do afterValue frames (← pastNumber rest)
    else if isDigit b then do afterValue frames (← pastNumber (b :: rest))
    else if b = quote then do afterValue frames (← pastText rest)
    else if b = openBracket then
      match skipBlanks rest with
      | [] => .error .endInList
      | closeBracket :: rest => afterValue frames rest
      | inner => .ok (.list :: frames, inner)
    else if b = openBrace then
      match skipBlanks rest with
      | [] => .error .endInObject
      | closeBrace :: rest => afterValue frames rest
      | inner => do return (.object :: frames, ← pastKey inner)
    else .error .expectedValue

theorem nextValue_length_lt {frames left : List Frame} {bs rest : Bytes}
    (h : nextValue frames bs = .ok (left, rest)) : rest.length < bs.length := by
  have short := skipBlanks_length_le bs
  have afterScalar {scalar : Except Error Bytes} {n : Nat} (hn : ∀ {tail}, scalar = .ok tail → tail.length < n)
      (hs : (scalar >>= fun tail => afterValue frames tail) = .ok (left, rest)) : rest.length < n := by
    cases he : scalar with
    | error e => rw [he] at hs; cases hs
    | ok tail =>
      rw [he] at hs
      exact Nat.lt_of_le_of_lt (afterValue_length_le hs) (hn he)
  unfold nextValue at h
  split at h
  · cases h
  · rename_i b tail hb
    rw [hb] at short
    refine Nat.lt_of_lt_of_le ?_ short
    have inner := skipBlanks_length_le tail
    split at h
    · exact afterScalar (fun hw => Nat.lt_succ_of_le (readWord_length_le hw)) h
    split at h
    · exact afterScalar (fun hw => Nat.lt_succ_of_le (readWord_length_le hw)) h
    split at h
    · exact afterScalar (fun hw => Nat.lt_succ_of_le (readWord_length_le hw)) h
    split at h
    · exact afterScalar (fun hn => Nat.lt_succ_of_lt (pastNumber_length_lt hn)) h
    split at h
    · exact afterScalar (fun hn => pastNumber_length_lt hn) h
    split at h
    · exact afterScalar (fun ht => Nat.lt_succ_of_lt (pastText_length_lt ht)) h
    split at h
    · split at h
      · cases h
      · rename_i hs
        rw [hs] at inner
        exact Nat.lt_succ_of_le (Nat.le_trans (afterValue_length_le h) (Nat.le_of_succ_le inner))
      · cases h
        exact Nat.lt_succ_of_le inner
    split at h
    · split at h
      · cases h
      · rename_i hs
        rw [hs] at inner
        exact Nat.lt_succ_of_le (Nat.le_trans (afterValue_length_le h) (Nat.le_of_succ_le inner))
      · cases hk : pastKey (skipBlanks tail) with
        | error e => rw [hk] at h; cases h
        | ok rest' =>
          rw [hk] at h
          cases h
          exact Nat.lt_succ_of_le (Nat.le_trans (pastKey_length_le hk) inner)
    · cases h

/-- What stands after the outermost of the opened lists and objects, from the place of a value in the innermost. -/
def pastValues (frames : List Frame) (bs : Bytes) : Except Error Bytes :=
  match _h : nextValue frames bs with
  | .error e => .error e
  | .ok ([], rest) => .ok rest
  | .ok (frame :: frames, rest) => pastValues (frame :: frames) rest
termination_by bs.length
decreasing_by exact nextValue_length_lt _h

theorem pastValues_length_lt {frames : List Frame} {bs rest : Bytes} (h : pastValues frames bs = .ok rest) :
    rest.length < bs.length := by
  fun_induction pastValues frames bs with
  | case1 => cases h
  | case2 _ _ _ hn => cases h; exact nextValue_length_lt hn
  | case3 _ _ _ _ _ hn ih => exact Nat.lt_trans (ih h) (nextValue_length_lt hn)

end Skip

def skipValue (bs : Bytes) : Except Error Bytes := Skip.pastValues [] bs

theorem skipValue_length_le {bs rest : Bytes} (h : skipValue bs = .ok rest) : rest.length ≤ bs.length :=
  Nat.le_of_lt (Skip.pastValues_length_lt h)

end LeaderLease.Json
