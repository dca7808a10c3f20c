import Mathlib.Data.List.TakeWhile
import LeaderLease.Proofs.Text.Utf8
import LeaderLease.Request.Target

/-!
# How a target is read

A text that begins with a slash is read zone by zone: a path, perhaps a query, and perhaps a fragment. Whether it is a
target is decided one character at a time, by the zone that each stands in, and by the number of bytes. What becomes of
it is decided by what stands before the fragment, and by all of that.
-/

namespace LeaderLease.Target

theorem endsPath_cases (c : Char) : c = '?' ∨ c = '#' ∨ endsPath c = false := by
  by_cases hquery : c = '?'
  · exact .inl hquery
  · by_cases hfragment : c = '#'
    · exact .inr (.inl hfragment)
    · exact .inr (.inr (Bool.or_eq_false_iff.mpr ⟨beq_false_of_ne hquery, beq_false_of_ne hfragment⟩))

theorem endsPath_of_notMem {text : List Char} (hquery : '?' ∉ text) (hfragment : '#' ∉ text) :
    ∀ c ∈ text, endsPath c = false := by
  intro c hc
  obtain rfl | rfl | hplain := endsPath_cases c
  · exact absurd hc hquery
  · exact absurd hc hfragment
  · exact hplain

section

variable {c : Char} {text : List Char}

theorem takeWhile_cons_of_plain (hc : endsPath c = false) :
    (c :: text).takeWhile (!endsPath ·) = c :: text.takeWhile (!endsPath ·) := by
  rw [List.takeWhile_cons, hc]
  rfl

theorem dropWhile_cons_of_plain (hc : endsPath c = false) :
    (c :: text).dropWhile (!endsPath ·) = text.dropWhile (!endsPath ·) := by
  rw [List.dropWhile_cons, hc]
  rfl

end

theorem parseQuery_mark (text : List Char) :
    parseQuery ('?' :: text) = if (text.takeWhile (· != '#')).all isQueryChar then
      .ok (some (.ofList (text.takeWhile (· != '#')))) else .error .invalidCharacter := rfl

inductive Zone where
  | path
  | query
  | fragment
  deriving DecidableEq

namespace Zone

/-- The zone after a character. The mark that ends a zone still belongs to it. -/
def after : Zone → Char → Zone
  | path, c => if c = '?' then query else if c = '#' then fragment else path
  | query, c => if c = '#' then fragment else query
  | fragment, _ => fragment

def allows : Zone → Char → Bool
  | path, c => isPathChar c
  | query, c => isQueryChar c
  | fragment, _ => true

def afterAll (z : Zone) (text : List Char) : Zone := text.foldl after z

/-- Every character is allowed where it stands. -/
def reads : Zone → List Char → Bool
  | _, [] => true
  | z, c :: text => z.allows c && (z.after c).reads text

variable {c : Char}

theorem reads_append (z : Zone) (front back : List Char) :
    z.reads (front ++ back) = (z.reads front && (z.afterAll front).reads back) := by
  induction front generalizing z with
  | nil => rfl
  | cons c front ih =>
      change (z.allows c && (z.after c).reads (front ++ back)) = (z.allows c && (z.after c).reads front && _)
      rw [ih, Bool.and_assoc]
      rfl

theorem afterAll_append (z : Zone) (front back : List Char) :
    z.afterAll (front ++ back) = (z.afterAll front).afterAll back := List.foldl_append

theorem after_of_not_endsPath (hc : endsPath c = false) (z : Zone) : z.after c = z := by
  obtain ⟨hquery, hfragment⟩ := Bool.or_eq_false_iff.mp hc
  cases z with
  | path => exact (if_neg (ne_of_beq_false hquery)).trans (if_neg (ne_of_beq_false hfragment))
  | query => exact if_neg (ne_of_beq_false hfragment)
  | fragment => rfl

theorem reads_of_all {text : List Char} (hall : ∀ c ∈ text, isPathChar c = true ∧ isQueryChar c = true) (z : Zone) :
    z.reads text = true := by
  induction text generalizing z with
  | nil => rfl
  | cons c text ih =>
      have hc : z.allows c = true := by
        obtain ⟨hpath, hquery⟩ := hall c List.mem_cons_self
        cases z with
        | path => exact hpath
        | query => exact hquery
        | fragment => rfl
      exact Bool.and_eq_true_iff.mpr ⟨hc, ih (fun d hd => hall d (List.mem_cons_of_mem c hd)) _⟩

theorem reads_fragment (text : List Char) : fragment.reads text = true := by
  induction text with
  | nil => rfl
  | cons c text ih => exact ih

theorem reads_query (text : List Char) : query.reads text = (text.takeWhile (· != '#')).all isQueryChar := by
  induction text with
  | nil => rfl
  | cons c text ih =>
      by_cases hc : c = '#'
      · subst hc
        exact reads_fragment text
      · rw [List.takeWhile_cons, if_pos (bne_iff_ne.mpr hc), List.all_cons, ← ih]
        exact congrArg (fun z : Zone => isQueryChar c && z.reads text) (if_neg hc)

theorem reads_path (text : List Char) :
    path.reads text = true ↔ (text.takeWhile (!endsPath ·)).all isPathChar = true ∧
      ∃ query, parseQuery (text.dropWhile (!endsPath ·)) = .ok query := by
  induction text with
  | nil => exact ⟨fun _ => ⟨rfl, none, rfl⟩, fun _ => rfl⟩
  | cons c text ih =>
      obtain rfl | rfl | hc := endsPath_cases c
      · change query.reads text = true ↔ true = true ∧ ∃ query, parseQuery ('?' :: text) = .ok query
        rw [reads_query, parseQuery_mark]
        split
        next hall => exact ⟨fun _ => ⟨rfl, _, rfl⟩, fun _ => hall⟩
        next hall => exact ⟨fun h => absurd h hall, fun ⟨_, _, h⟩ => nomatch h⟩
      · exact ⟨fun _ => ⟨rfl, none, rfl⟩, fun _ => reads_fragment text⟩
      · change (isPathChar c && (path.after c).reads text) = true ↔ _
        rw [takeWhile_cons_of_plain hc, dropWhile_cons_of_plain hc, after_of_not_endsPath hc, List.all_cons,
          Bool.and_eq_true_iff, Bool.and_eq_true_iff, ih, and_assoc]

end Zone

/-! ### What is a target -/

theorem parse_slash (text : List Char) :
    parse (.ofList ('/' :: text)) =
      if byteLimit < (Utf8.encode ('/' :: text)).length then .error .tooLong
      else if (('/' :: text).takeWhile (!endsPath ·)).all isPathChar then
        (parseQuery (('/' :: text).dropWhile (!endsPath ·))).map
          fun query => ⟨.ofList (('/' :: text).takeWhile (!endsPath ·)), query⟩
      else .error .invalidCharacter := by
  unfold parse
  rw [String.toList_ofList]
  by_cases hlimit : byteLimit < (Utf8.encode ('/' :: text)).length
  · simp only [if_pos hlimit]
  · simp only [if_neg hlimit]
    split
    · cases parseQuery _ <;> rfl
    · rfl

theorem parse_slash_iff (text : List Char) :
    (∃ target, parse (.ofList ('/' :: text)) = .ok target) ↔
      (Utf8.encode ('/' :: text)).length ≤ byteLimit ∧ Zone.path.reads text = true := by
  change _ ↔ _ ∧ Zone.path.reads ('/' :: text) = true
  rw [Zone.reads_path, parse_slash]
  by_cases hlimit : byteLimit < (Utf8.encode ('/' :: text)).length
  · rw [if_pos hlimit]
    exact ⟨fun ⟨_, h⟩ => (nomatch h), fun h => absurd h.1 (Nat.not_le.mpr hlimit)⟩
  · rw [if_neg hlimit]
    split
    next hpath =>
      refine ⟨fun ⟨target, htarget⟩ => ⟨Nat.not_lt.mp hlimit, hpath, ?_⟩, fun ⟨_, _, query, hquery⟩ => ?_⟩
      · cases hquery : parseQuery (('/' :: text).dropWhile (!endsPath ·)) with
        | error e =>
            rw [hquery] at htarget
            cases htarget
        | ok query => exact ⟨query, rfl⟩
      · rw [hquery]
        exact ⟨_, rfl⟩
    next hpath => exact ⟨fun ⟨_, h⟩ => (nomatch h), fun h => absurd h.2.1 hpath⟩

theorem parse_front {front back : List Char} {target : Target}
    (htarget : parse (.ofList ('/' :: front ++ back)) = .ok target) :
    ∃ target, parse (.ofList ('/' :: front)) = .ok target := by
  rw [List.cons_append] at htarget
  obtain ⟨hlength, hreads⟩ := (parse_slash_iff _).mp ⟨target, htarget⟩
  rw [Zone.reads_append, Bool.and_eq_true_iff] at hreads
  rw [← List.cons_append, Utf8.encode_append, List.length_append] at hlength
  exact (parse_slash_iff front).mpr ⟨Nat.le_of_add_right_le hlength, hreads.1⟩

def shown (text : List Char) : List Char := text.takeWhile (· != '#')

def queryOf : List Char → Option String
  | '?' :: rest => some (.ofList (shown rest))
  | _ => none

/-- The target that a text is read as if it is one. -/
def ofChars (text : List Char) : Target :=
  ⟨.ofList (text.takeWhile (!endsPath ·)), queryOf (text.dropWhile (!endsPath ·))⟩

theorem parseQuery_eq {text : List Char} {query : Option String} (hquery : parseQuery text = .ok query) :
    query = queryOf text := by
  unfold queryOf
  split
  next rest =>
    rw [parseQuery_mark] at hquery
    split at hquery
    next => exact (Except.ok.inj hquery).symm
    next => cases hquery
  next hnone =>
    unfold parseQuery at hquery
    split at hquery
    next rest => exact absurd rfl (hnone rest)
    next => exact (Except.ok.inj hquery).symm

theorem parse_eq {text : List Char} {target : Target} (htarget : parse (.ofList ('/' :: text)) = .ok target) :
    target = ofChars ('/' :: text) := by
  rw [parse_slash] at htarget
  split at htarget
  next => cases htarget
  next =>
    split at htarget
    next =>
      cases hquery : parseQuery (('/' :: text).dropWhile (!endsPath ·)) with
      | error e =>
          rw [hquery] at htarget
          cases htarget
      | ok query =>
          rw [hquery] at htarget
          rw [ofChars, ← parseQuery_eq hquery]
          exact (Except.ok.inj htarget).symm
    next => cases htarget

theorem shown_of_plain {text : List Char} (hplain : '#' ∉ text) : shown text = text :=
  List.takeWhile_eq_self_iff.mpr fun _ hc => bne_iff_ne.mpr fun heq => hplain (heq ▸ hc)

theorem shown_cons {c : Char} (hc : c ≠ '#') (text : List Char) : shown (c :: text) = c :: shown text := by
  rw [shown, List.takeWhile_cons, if_pos (bne_iff_ne.mpr hc)]
  rfl

theorem ofChars_cons {c : Char} (hc : endsPath c = false) (text : List Char) :
    ofChars (c :: text) = ⟨.ofList (c :: (ofChars text).path.toList), (ofChars text).query⟩ := by
  unfold ofChars
  rw [takeWhile_cons_of_plain hc, dropWhile_cons_of_plain hc, String.toList_ofList]

theorem ofChars_of_plain {text : List Char} (hplain : ∀ c ∈ text, endsPath c = false) :
    ofChars text = ⟨.ofList text, none⟩ := by
  induction text with
  | nil => rfl
  | cons c text ih =>
      rw [ofChars_cons (hplain c List.mem_cons_self), ih fun d hd => hplain d (List.mem_cons_of_mem c hd),
        String.toList_ofList]

theorem eq_of_parse_plain {text : List Char} {target : Target} (hplain : ∀ c ∈ '/' :: text, endsPath c = false)
    (htarget : parse (.ofList ('/' :: text)) = .ok target) : target = ⟨.ofList ('/' :: text), none⟩ :=
  (parse_eq htarget).trans (ofChars_of_plain hplain)

theorem endsPath_inNamespace {namespaceName rest : List Char} (hnamespace : ∀ c ∈ namespaceName, endsPath c = false)
    (hrest : rest.all (!endsPath ·) = true) :
    ∀ c ∈ '/' :: ("namespaces/".toList ++ namespaceName ++ rest), endsPath c = false := by
  have hall : ∀ text : List Char, text.all (!endsPath ·) = true → ∀ c ∈ text, endsPath c = false := by
    intro text hall c hc
    simpa using List.all_eq_true.mp hall c hc
  intro c hc
  rw [← List.cons_append, ← List.cons_append, List.mem_append, List.mem_append] at hc
  obtain (hc | hc) | hc := hc
  · exact hall _ rfl c hc
  · exact hnamespace c hc
  · exact hall _ hrest c hc

theorem text_ofChars (text : List Char) : (ofChars text).text.toList = shown text := by
  induction text with
  | nil => rfl
  | cons c text ih =>
      obtain rfl | rfl | hc := endsPath_cases c
      · change ("" ++ "?" ++ String.ofList (shown text)).toList = _
        rw [String.toList_append, String.toList_ofList]
        rfl
      · rfl
      · have hfragment : c ≠ '#' := ne_of_beq_false (Bool.or_eq_false_iff.mp hc).2
        rw [ofChars_cons hc, shown_cons hfragment, ← ih]
        unfold Target.text
        cases (ofChars text).query with
        | none => exact String.toList_ofList
        | some query =>
            simp only [String.toList_append, String.toList_ofList, List.cons_append]

theorem ofChars_shown (text : List Char) : ofChars (shown text) = ofChars text := by
  induction text with
  | nil => rfl
  | cons c text ih =>
      obtain rfl | rfl | hc := endsPath_cases c
      · change (⟨"", some (.ofList (shown (shown text)))⟩ : Target) = ⟨"", some (.ofList (shown text))⟩
        rw [shown, shown, List.takeWhile_idem]
      · rfl
      · have hfragment : c ≠ '#' := ne_of_beq_false (Bool.or_eq_false_iff.mp hc).2
        rw [shown_cons hfragment, ofChars_cons hc, ofChars_cons hc, ih]

/-- Two texts are read alike just if they agree before the fragment. -/
theorem ofChars_eq_iff {front back : List Char} : ofChars front = ofChars back ↔ shown front = shown back := by
  constructor
  · intro heq
    rw [← text_ofChars front, heq, text_ofChars]
  · intro heq
    rw [← ofChars_shown front, heq, ofChars_shown]

end LeaderLease.Target
