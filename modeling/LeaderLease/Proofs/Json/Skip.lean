import LeaderLease.Proofs.Json.Numeral
import LeaderLease.Proofs.Json.Object
import LeaderLease.Proofs.Json.Spelling
import Mathlib.Data.List.DropRight

/-!
# Any value is passed over

Whatever a value holds and however deep it is nested, what stands after it is found. The reader keeps a stack of the
lists and objects that are open, so what is said of a value inside them is that the reader goes on with the same stack.
-/

namespace LeaderLease.Json

open Utf8

theorem skipBlanks_skipBlanks (bs : Bytes) : skipBlanks (skipBlanks bs) = skipBlanks bs :=
  List.dropWhile_idempotent isBlank bs

theorem skipColon_blanks (b : Blanks) (rest : Bytes) : skipColon (encode b.chars ++ colon :: rest) = .ok rest := by
  rw [skipColon, b.skipBlanks_append]
  rfl

namespace Skip

/-- On to the end of the lists and objects that are open. -/
def onward : List Frame × Bytes → Except Error Bytes
  | ([], rest) => .ok rest
  | (frame :: frames, rest) => pastValues (frame :: frames) rest

/-- On to that end from the end of a value. -/
def resume (frames : List Frame) (bs : Bytes) : Except Error Bytes := afterValue frames bs >>= onward

theorem pastValues_eq (frames : List Frame) (bs : Bytes) : pastValues frames bs = nextValue frames bs >>= onward := by
  rw [pastValues]
  split
  · next heq => rw [heq]; rfl
  · next heq => rw [heq]; rfl
  · next heq => rw [heq]; rfl

theorem pastValues_skipBlanks (frames : List Frame) (bs : Bytes) :
    pastValues frames (skipBlanks bs) = pastValues frames bs := by
  rw [pastValues_eq, pastValues_eq, nextValue, nextValue, skipBlanks_skipBlanks]

theorem pastValues_blanks (frames : List Frame) (b : Blanks) (bs : Bytes) :
    pastValues frames (encode b.chars ++ bs) = pastValues frames bs := by
  rw [← pastValues_skipBlanks, b.skipBlanks_append, pastValues_skipBlanks]

theorem resume_blanks (frame : Frame) (frames : List Frame) (b : Blanks) (bs : Bytes) :
    resume (frame :: frames) (encode b.chars ++ bs) = resume (frame :: frames) bs := by
  unfold resume
  cases frame with
  | list => rw [afterValue, afterValue, b.skipBlanks_append]
  | object => rw [afterValue, afterValue, b.skipBlanks_append]

theorem resume_member (frames : List Frame) (rest : Bytes) :
    resume (.object :: frames) (comma :: rest) = pastKey rest >>= pastValues (.object :: frames) := by
  change (pastKey rest >>= fun tail => pure (.object :: frames, tail)) >>= onward = _
  cases pastKey rest <;> rfl

theorem pastKey_skipBlanks (bs : Bytes) : pastKey (skipBlanks bs) = pastKey bs := by
  rw [pastKey, pastKey, skipBlanks_skipBlanks]

theorem pastKey_quote (bs : Bytes) : pastKey (quote :: bs) = pastText bs >>= skipColon := rfl

theorem pastKey_key (beforeKey : Blanks) (key : Spelling) (afterKey : Blanks) (rest : Bytes) :
    pastKey (encode beforeKey.chars ++ (encode key.chars ++ (encode afterKey.chars ++ colon :: rest))) = .ok rest := by
  rw [← pastKey_skipBlanks, beforeKey.skipBlanks_append, pastKey_skipBlanks, key.encode_chars, pastKey_quote,
    key.pastText_afterQuote]
  exact skipColon_blanks afterKey rest

theorem pastValues_word (frames : List Frame) (w : Word) (rest : Bytes) :
    pastValues frames (encode w.chars ++ rest) = resume frames rest := by
  rw [pastValues_eq]
  cases w <;> rfl

theorem pastValues_number (frames : List Frame) (n : Numeral) {rest : Bytes} (hrest : EndsNumber rest) :
    pastValues frames (encode n.chars ++ rest) = resume frames rest := by
  have hpast := pastNumber_unsignedChars n hrest
  obtain ⟨b, bs, hbytes, hb⟩ := n.encode_unsignedChars_cons rest
  rw [pastValues_eq, n.encode_chars]
  rw [hbytes] at hpast ⊢
  cases n.isNegative with
  | true =>
      change (pastNumber (b :: bs) >>= afterValue frames) >>= onward = _
      rw [hpast]
      rfl
  | false =>
      change nextValue frames (b :: bs) >>= onward = _
      have hne {letter : UInt8} (hletter : isDigit letter = false) : b ≠ letter := by
        rintro rfl
        rw [hb] at hletter
        cases hletter
      rw [nextValue, skipBlanks_cons (Reader.isBlank_of_isDigit hb)]
      dsimp only
      rw [if_neg (hne rfl), if_neg (hne rfl), if_neg (hne rfl), if_neg (hne rfl), if_pos hb, hpast]
      rfl

theorem pastValues_text (frames : List Frame) (s : Spelling) (rest : Bytes) :
    pastValues frames (encode s.chars ++ rest) = resume frames rest := by
  rw [pastValues_eq, s.encode_chars]
  change (pastText (s.afterQuote rest) >>= afterValue frames) >>= onward = _
  rw [s.pastText_afterQuote]
  rfl

theorem nextValue_openBracket (frames : List Frame) (bs : Bytes) :
    nextValue frames (openBracket :: bs) = match skipBlanks bs with
      | [] => .error .endInList
      | closeBracket :: rest => afterValue frames rest
      | inner => .ok (.list :: frames, inner) := rfl

theorem nextValue_openBrace (frames : List Frame) (bs : Bytes) :
    nextValue frames (openBrace :: bs) = match skipBlanks bs with
      | [] => .error .endInObject
      | closeBrace :: rest => afterValue frames rest
      | inner => do return (.object :: frames, ← pastKey inner) := rfl

theorem pastValues_emptyList (frames : List Frame) (inner : Blanks) (rest : Bytes) :
    pastValues frames (openBracket :: (encode inner.chars ++ closeBracket :: rest)) = resume frames rest := by
  rw [pastValues_eq, nextValue_openBracket, inner.skipBlanks_append]
  rfl

theorem pastValues_emptyObject (frames : List Frame) (inner : Blanks) (rest : Bytes) :
    pastValues frames (openBrace :: (encode inner.chars ++ closeBrace :: rest)) = resume frames rest := by
  rw [pastValues_eq, nextValue_openBrace, inner.skipBlanks_append]
  rfl

theorem pastValues_list (frames : List Frame) {bs : Bytes} {b : UInt8} {more : Bytes} (hbs : skipBlanks bs = b :: more)
    (hb : b ≠ closeBracket) : pastValues frames (openBracket :: bs) = pastValues (.list :: frames) bs := by
  have hnext : nextValue frames (openBracket :: bs) = .ok (.list :: frames, skipBlanks bs) := by
    rw [nextValue_openBracket, hbs]
    split
    · next heq => cases heq
    · next heq => exact absurd (List.cons.inj heq).1 hb
    · rfl
  rw [pastValues_eq, hnext]
  exact pastValues_skipBlanks (.list :: frames) bs

theorem pastValues_object (frames : List Frame) {bs more : Bytes} (hbs : skipBlanks bs = quote :: more) :
    pastValues frames (openBrace :: bs) = pastKey bs >>= pastValues (.object :: frames) := by
  rw [pastValues_eq, nextValue_openBrace, ← pastKey_skipBlanks bs, hbs]
  change (pastKey (quote :: more) >>= fun tail => pure (.object :: frames, tail)) >>= onward = _
  cases pastKey (quote :: more) <;> rfl

theorem encode_value (v : Value) (rest : Bytes) :
    ∃ b bs, encode v.chars ++ rest = b :: bs ∧ isBlank b = false ∧ b ≠ closeBracket := by
  cases v with
  | word w => cases w <;> exact ⟨_, _, rfl, rfl, by decide⟩
  | number n =>
      obtain ⟨b, bs, hbytes, hb⟩ := n.encode_chars_cons rest
      refine ⟨b, bs, hbytes, ?_⟩
      obtain rfl | hdigit := hb
      · exact ⟨rfl, by decide⟩
      · refine ⟨Reader.isBlank_of_isDigit hdigit, ?_⟩
        rintro rfl
        exact absurd hdigit (by decide)
  | text s => exact ⟨quote, _, s.encode_chars rest, rfl, by decide⟩
  | emptyList inner => exact ⟨openBracket, _, rfl, rfl, by decide⟩
  | list items => exact ⟨openBracket, _, rfl, rfl, by decide⟩
  | emptyObject inner => exact ⟨openBrace, _, rfl, rfl, by decide⟩
  | object members => exact ⟨openBrace, _, rfl, rfl, by decide⟩

/-- A node is passed over: a value wherever it stands, and what stands in a list or an object up to its end. -/
def Passed : {role : Role} → Tree role → Prop
  | .value, v => ∀ frames rest, EndsNumber rest → pastValues frames (encode v.chars ++ rest) = resume frames rest
  | .items, items => ∀ frames rest,
      pastValues (.list :: frames) (encode items.chars ++ closeBracket :: rest) = resume frames rest
  | .members, members => ∀ frames rest,
      (pastKey (encode members.chars ++ closeBrace :: rest) >>= pastValues (.object :: frames)) = resume frames rest

theorem skipBlanks_items (items : Tree .items) (rest : Bytes) :
    ∃ b bs, skipBlanks (encode items.chars ++ rest) = b :: bs ∧ b ≠ closeBracket := by
  cases items with
  | lastItem before v after =>
      obtain ⟨b, bs, hbytes, hblank, hb⟩ := encode_value v (encode after.chars ++ rest)
      refine ⟨b, bs, ?_, hb⟩
      rw [Tree.chars, encode_append, encode_append, List.append_assoc, List.append_assoc, before.skipBlanks_append,
        hbytes, skipBlanks_cons hblank]
  | item before v after more =>
      obtain ⟨b, bs, hbytes, hblank, hb⟩ := encode_value v (encode (after.chars ++ ',' :: more.chars) ++ rest)
      refine ⟨b, bs, ?_, hb⟩
      rw [Tree.chars, encode_append, encode_append, List.append_assoc, List.append_assoc, before.skipBlanks_append,
        hbytes, skipBlanks_cons hblank]

theorem skipBlanks_members (members : Tree .members) (rest : Bytes) :
    ∃ bs, skipBlanks (encode members.chars ++ rest) = quote :: bs := by
  have hkey (beforeKey : Blanks) (key : Spelling) (left : List Char) :
      skipBlanks (encode (beforeKey.chars ++ (key.chars ++ left)) ++ rest) =
        quote :: key.afterQuote (encode left ++ rest) := by
    rw [encode_append, encode_append, List.append_assoc, List.append_assoc, beforeKey.skipBlanks_append,
      key.encode_chars, skipBlanks_cons rfl]
  cases members with
  | lastMember => exact ⟨_, hkey _ _ _⟩
  | member => exact ⟨_, hkey _ _ _⟩

theorem pastValues_item {v : Value} (hv : Passed v) (frame : Frame) (frames : List Frame) (before after : Blanks)
    {rest : Bytes} (hrest : EndsNumber rest) :
    pastValues (frame :: frames) (encode before.chars ++ (encode v.chars ++ (encode after.chars ++ rest))) =
      resume (frame :: frames) rest := by
  rw [pastValues_blanks, hv (frame :: frames) _ (after.endsNumber_append hrest), resume_blanks]

theorem pastKey_member {v : Value} (hv : Passed v) (frames : List Frame) (beforeKey : Blanks) (key : Spelling)
    (afterKey before after : Blanks) {rest : Bytes} (hrest : EndsNumber rest) :
    (pastKey (encode beforeKey.chars ++ (encode key.chars ++ (encode afterKey.chars ++ colon ::
      (encode before.chars ++ (encode v.chars ++ (encode after.chars ++ rest)))))) >>=
        pastValues (.object :: frames)) = resume (.object :: frames) rest := by
  rw [pastKey_key]
  exact pastValues_item hv .object frames before after hrest

theorem endsNumber_comma (rest : Bytes) : EndsNumber (comma :: rest) :=
  endsNumber_cons rfl (by decide) (by decide) (by decide) rest

theorem endsNumber_closeBracket (rest : Bytes) : EndsNumber (closeBracket :: rest) :=
  endsNumber_cons rfl (by decide) (by decide) (by decide) rest

theorem endsNumber_closeBrace (rest : Bytes) : EndsNumber (closeBrace :: rest) :=
  endsNumber_cons rfl (by decide) (by decide) (by decide) rest

theorem passed {role : Role} (t : Tree role) : Passed t := by
  -- The frames around the node stay open in the hypotheses: a list or an object adds one and drops it in the end.
  induction t with
  | word w => exact fun frames rest _ => pastValues_word frames w rest
  | number n => exact fun frames rest hrest => pastValues_number frames n hrest
  | text s => exact fun frames rest _ => pastValues_text frames s rest
  | emptyList inner =>
      intro frames rest _
      rw [Tree.chars, encode_cons, encode_append, List.append_assoc, List.append_assoc]
      exact pastValues_emptyList frames inner rest
  | list items ih =>
      intro frames rest _
      rw [Tree.chars, encode_cons, encode_append, List.append_assoc, List.append_assoc]
      obtain ⟨b, bs, hbytes, hb⟩ := skipBlanks_items items (closeBracket :: rest)
      exact (pastValues_list frames hbytes hb).trans (ih frames rest)
  | emptyObject inner =>
      intro frames rest _
      rw [Tree.chars, encode_cons, encode_append, List.append_assoc, List.append_assoc]
      exact pastValues_emptyObject frames inner rest
  | object members ih =>
      intro frames rest _
      rw [Tree.chars, encode_cons, encode_append, List.append_assoc, List.append_assoc]
      obtain ⟨bs, hbytes⟩ := skipBlanks_members members (closeBrace :: rest)
      exact (pastValues_object frames hbytes).trans (ih frames rest)
  | lastItem before v after ih =>
      intro frames rest
      rw [Tree.chars, encode_append, encode_append, List.append_assoc, List.append_assoc]
      exact pastValues_item ih .list frames before after (endsNumber_closeBracket rest)
  | item before v after more ihValue ihMore =>
      intro frames rest
      simp only [Tree.chars, encode_append, List.append_assoc]
      exact (pastValues_item ihValue .list frames before after (endsNumber_comma _)).trans (ihMore frames rest)
  | lastMember beforeKey key afterKey before v after ih =>
      intro frames rest
      simp only [Tree.chars, encode_append, encode_cons, List.append_assoc]
      exact pastKey_member ih frames beforeKey key afterKey before after (endsNumber_closeBrace rest)
  | member beforeKey key afterKey before v after more ihValue ihMore =>
      intro frames rest
      simp only [Tree.chars, encode_append, encode_cons, List.append_assoc]
      refine (pastKey_member ihValue frames beforeKey key afterKey before after (endsNumber_comma _)).trans ?_
      exact (resume_member frames _).trans (ihMore frames rest)

end Skip

/-- **Any value is passed over** up to its end. -/
theorem skipValue_chars (v : Value) (before : Blanks) {rest : Bytes} (hrest : EndsNumber rest) :
    skipValue (encode before.chars ++ (encode v.chars ++ rest)) = .ok rest := by
  rw [skipValue, Skip.pastValues_blanks, Skip.passed v [] rest hrest]
  rfl

end LeaderLease.Json
