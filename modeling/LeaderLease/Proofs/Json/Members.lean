import LeaderLease.Json.Shape
import LeaderLease.Proofs.Json.Skip

/-!
# The members of an object in any order

A structured value is read from an object one entry after the other. An entry under a known name fills its place in the
draft, once, and an entry under any other name changes nothing. So each place holds in the end what the entries under
its name were read as, wherever they stood.
-/

namespace LeaderLease.Json

open Utf8

namespace Reader

variable {α β : Type} {r : Reader α} {v : Value} {result : Except Error α}

/-- What a reader makes of a value with nothing around it. -/
def on (r : Reader α) (v : Value) : Except Error α := (r.run (encode v.chars)).map Prod.fst

/-- Wherever the value stands, this is what the reader makes of it. -/
def Gives (r : Reader α) (v : Value) (result : Except Error α) : Prop :=
  ∀ (before : Blanks) (rest : Bytes), EndsNumber rest →
    r.run (encode before.chars ++ (encode v.chars ++ rest)) = result.map (·, rest)

theorem Gives.on_eq (h : r.Gives v result) : r.on v = result := by
  have hrun := h .none [] nofun
  rw [List.append_nil] at hrun
  change (r.run (encode v.chars)).map Prod.fst = result
  change r.run (encode v.chars) = _ at hrun
  rw [hrun]
  cases result <;> rfl

theorem Gives.check (h : r.Gives v result) (f : α → Except Error β) : (r.check f).Gives v (result >>= f) := by
  intro before rest hrest
  change (r.run (encode before.chars ++ (encode v.chars ++ rest)) >>= fun found => do return (← f found.1, found.2)) = _
  rw [h before rest hrest]
  cases result with
  | error e => rfl
  | ok a =>
      change (do return (← f a, rest)) = (f a).map (·, rest)
      cases f a <;> rfl

theorem Gives.check_ok {a : α} (h : r.Gives v (.ok a)) {f : α → Except Error β} {b : Except Error β} (hf : f a = b) :
    (r.check f).Gives v b :=
  hf ▸ h.check f

theorem Gives.map (h : r.Gives v result) (f : α → β) : (r.map f).Gives v (result.map f) := by
  have hcheck := h.check fun a => .ok (f a)
  cases result <;> exact hcheck

theorem on_map (r : Reader α) (f : α → β) (v : Value) : (r.map f).on v = (r.on v).map f := by
  change ((r.run (encode v.chars) >>= fun found => do return (← Except.ok (f found.1), found.2))).map Prod.fst = _
  unfold on
  cases r.run (encode v.chars) <;> rfl

theorem on_map_ok {f : α → β} {b : β} (h : (r.map f).on v = .ok b) : ∃ a, r.on v = .ok a ∧ f a = b := by
  rw [on_map] at h
  cases hon : r.on v with
  | error e =>
      rw [hon] at h
      cases h
  | ok a =>
      rw [hon] at h
      exact ⟨a, rfl, Except.ok.inj h⟩

theorem textAs_gives (expected : Expected) {s : Spelling} {text : String} (h : s.text? = some text) :
    (textAs expected).Gives (.text s) (.ok text) := by
  intro before rest _
  rw [textAs_run, before.skipBlanks_append, Tree.chars, s.encode_chars, skipBlanks_cons rfl]
  exact s.readText_afterQuote h rest

theorem text_gives {v : Value} {text : String} (h : v.text? = some text) : Reader.text.Gives v (.ok text) := by
  cases v with
  | text s => exact textAs_gives .text h
  | _ => cases h

theorem skipBlanks_numeral (n : Numeral) (before : Blanks) (rest : Bytes) :
    skipBlanks (encode before.chars ++ (encode n.chars ++ rest)) = encode n.chars ++ rest := by
  obtain ⟨b, bs, hbytes, hblank, -⟩ := Skip.encode_value (.number n) rest
  change encode n.chars ++ rest = b :: bs at hbytes
  rw [before.skipBlanks_append, hbytes, skipBlanks_cons hblank]

theorem number_gives (expected : Expected) (n : Numeral) : (number expected).Gives (.number n) n.number := by
  intro before rest hrest
  have hread := n.readNumber_chars hrest
  obtain ⟨b, bs, hbytes, hb⟩ := n.encode_chars_cons rest
  have hbegins : beginsNumber b = true := by
    obtain rfl | hdigit := hb
    · rfl
    · rw [beginsNumber, hdigit, Bool.or_true]
  rw [number_run, Tree.chars, skipBlanks_numeral]
  rw [hbytes] at hread ⊢
  dsimp only
  rw [if_pos hbegins, hread]

theorem timestamp_gives {v : Value} {t : Timestamp} (h : v.text? = some (.ofList t.write)) :
    timestamp.Gives v (.ok t.asWritten) := by
  have hread : (Timestamp.read (String.ofList t.write).toList).mapError Error.noTimestamp = .ok t.asWritten := by
    rw [String.toList_ofList, Timestamp.read_write]
    rfl
  cases v with
  | text s => exact (textAs_gives .timestamp h).check_ok hread
  | _ => cases h

/-- The integer that a number is, if it is one and small enough. -/
def naturalBelow (limit : Nat) (expected : Expected) (x : Number) : Except Error Nat :=
  match x with
  | .natural k => if k < limit then .ok k else .error (.wrongValue (.number x) expected)
  | .negative _ => .error (.wrongValue (.number x) expected)
  | .real .. => .error (.wrongType (.number x) expected)

theorem naturalBelow_ok_iff {limit : Nat} {expected : Expected} {x : Number} {k : Nat} :
    naturalBelow limit expected x = .ok k ↔ x = .natural k ∧ k < limit := by
  unfold naturalBelow
  split
  next m =>
    constructor
    · intro h
      split at h
      next hm =>
        obtain rfl := Except.ok.inj h
        exact ⟨rfl, hm⟩
      next => cases h
    · rintro ⟨heq, hk⟩
      obtain rfl := Number.natural.inj heq
      exact if_pos hk
  next => exact ⟨nofun, fun h => nomatch h.1⟩
  next => exact ⟨nofun, fun h => nomatch h.1⟩

theorem integerBelow_gives (limit : Nat) (expected : Expected) (n : Numeral) :
    (integerBelow limit expected).Gives (.number n) (n.number >>= naturalBelow limit expected) :=
  (number_gives expected n).check (naturalBelow limit expected)

theorem number_naturalBelow_iff {limit : Nat} (hlimit : limit ≤ Numeral.significandLimit) {expected : Expected}
    {n : Numeral} {k : Nat} : (n.number >>= naturalBelow limit expected) = .ok k ↔ n.IsUnsigned k ∧ k < limit := by
  constructor
  · intro h
    cases hx : n.number with
    | error e =>
        rw [hx] at h
        cases h
    | ok x =>
        rw [hx] at h
        obtain ⟨rfl, hk⟩ := naturalBelow_ok_iff.mp h
        exact ⟨(Numeral.number_eq_natural_iff.mp hx).1, hk⟩
  · rintro ⟨hunsigned, hk⟩
    rw [Numeral.number_eq_natural_iff.mpr ⟨hunsigned, Nat.lt_of_lt_of_le hk hlimit⟩]
    exact naturalBelow_ok_iff.mpr ⟨rfl, hk⟩

theorem number_word_iff {limit : Nat} (hlimit : limit ≤ Numeral.significandLimit) {expected : Expected}
    {toNat : α → Nat} {ofNat : Nat → α} (hlt : ∀ u, toNat u < limit) (hleft : ∀ u, ofNat (toNat u) = u)
    (hright : ∀ k < limit, toNat (ofNat k) = k) {n : Numeral} {u : α} :
    (n.number >>= naturalBelow limit expected).map ofNat = .ok u ↔ n.IsUnsigned (toNat u) := by
  constructor
  · intro h
    cases hk : n.number >>= naturalBelow limit expected with
    | error e =>
        rw [hk] at h
        cases h
    | ok k =>
        rw [hk] at h
        obtain rfl := Except.ok.inj h
        obtain ⟨hunsigned, hbelow⟩ := (number_naturalBelow_iff hlimit).mp hk
        rwa [hright k hbelow]
  · intro h
    rw [(number_naturalBelow_iff hlimit).mpr ⟨h, hlt u⟩]
    exact congrArg Except.ok (hleft u)

theorem word32_gives (n : Numeral) :
    word32.Gives (.number n) ((n.number >>= naturalBelow (Nat.pow 2 32) .word32).map .ofNat) :=
  (integerBelow_gives (Nat.pow 2 32) .word32 n).map UInt32.ofNat

theorem word64_gives (n : Numeral) :
    word64.Gives (.number n) ((n.number >>= naturalBelow (Nat.pow 2 64) .word64).map .ofNat) :=
  (integerBelow_gives (Nat.pow 2 64) .word64 n).map UInt64.ofNat

theorem word32_on_iff {n : Numeral} {u : UInt32} : word32.on (.number n) = .ok u ↔ n.IsUnsigned u.toNat := by
  rw [(word32_gives n).on_eq]
  exact number_word_iff (by decide) UInt32.toNat_lt (fun _ => UInt32.ofNat_toNat) fun _ => UInt32.toNat_ofNat_of_lt'

theorem word64_on_iff {n : Numeral} {u : UInt64} : word64.on (.number n) = .ok u ↔ n.IsUnsigned u.toNat := by
  rw [(word64_gives n).on_eq]
  exact number_word_iff (by decide) UInt64.toNat_lt (fun _ => UInt64.ofNat_toNat) fun _ => UInt64.toNat_ofNat_of_lt'

theorem optional_null (r : Reader α) : r.optional.Gives .null (.ok none) := by
  intro before rest _
  rw [optional_run, before.skipBlanks_append]
  rfl

theorem optional_number {n : Numeral} (h : r.Gives (.number n) result) :
    r.optional.Gives (.number n) (result.map some) := by
  intro before rest hrest
  have hrun := h .none rest hrest
  change r.run (encode n.chars ++ rest) = _ at hrun
  rw [optional_run, Tree.chars, skipBlanks_numeral]
  obtain ⟨b, bs, hbytes, hb⟩ := n.encode_chars_cons rest
  rw [hbytes] at hrun ⊢
  split
  next heq =>
    obtain ⟨rfl, -⟩ := List.cons.inj heq
    exact absurd hb (by decide)
  next =>
    rw [hrun]
    cases result <;> rfl

end Reader

/-- An entry after the first quotation mark of its name. -/
def Entry.afterQuote (e : Entry) (rest : Bytes) : Bytes :=
  e.key.afterQuote (encode e.afterKey.chars ++ colon ::
    (encode e.before.chars ++ (encode e.value.chars ++ (encode e.after.chars ++ rest))))

theorem Entry.encode_chars (e : Entry) (rest : Bytes) :
    encode e.chars ++ rest = encode e.beforeKey.chars ++ quote :: e.afterQuote rest := by
  simp only [chars, encode_append, encode_cons, List.append_assoc]
  rw [e.key.encode_chars]
  rfl

namespace Shape

variable {σ α : Type} {shape : Shape σ α} {draft : σ} {e : Entry}

def find? (shape : Shape σ α) (name : String) : Option (Member σ) := shape.members.find? (·.key == name)

/-- What an entry does to a draft. -/
def enter (shape : Shape σ α) (draft : σ) (e : Entry) : Except Error σ :=
  match shape.find? e.name with
  | none => .ok draft
  | some m => if m.isFilled draft then .error (.repeatedMember e.name) else (m.value.on e.value).map (· draft)

/-- If the name is known, its reader makes the same of the value wherever it stands. -/
def Knows (shape : Shape σ α) (e : Entry) : Prop :=
  ∀ m, shape.find? e.name = some m → ∃ result, m.value.Gives e.value result

theorem readMember_entry (hknows : shape.Knows e) (draft : σ) {rest : Bytes} (hrest : EndsNumber rest) :
    shape.readMember draft (e.afterQuote rest) = (shape.enter draft e).map (·, encode e.after.chars ++ rest) := by
  have hends := e.after.endsNumber_append hrest
  unfold readMember
  rw [Entry.afterQuote, e.key.readText_afterQuote e.spellsName]
  change shape.readKeyed e.name draft _ = _
  rw [readKeyed, enter, ← find?]
  cases hfind : shape.find? e.name with
  | none =>
      dsimp only
      rw [skipColon_blanks]
      change (skipValue _ >>= _) = _
      rw [skipValue_chars e.value e.before hends]
      rfl
  | some m =>
      obtain ⟨result, hgives⟩ := hknows m hfind
      dsimp only
      split
      next => rfl
      next =>
        rw [skipColon_blanks, hgives.on_eq]
        change (m.value.run _ >>= _) = _
        rw [hgives e.before _ hends]
        cases result <;> rfl

/-- Some entries after the first quotation mark, and the end of their object. -/
def entriesAfterQuote : Entry → List Entry → Bytes → Bytes
  | e, [], rest => e.afterQuote (closeBrace :: rest)
  | e, next :: more, rest =>
      e.afterQuote (comma :: (encode next.beforeKey.chars ++ quote :: entriesAfterQuote next more rest))

theorem encode_entries (e : Entry) (more : List Entry) (rest : Bytes) :
    encode (List.intercalate [','] ((e :: more).map Entry.chars)) ++ closeBrace :: rest =
      encode e.beforeKey.chars ++ quote :: entriesAfterQuote e more rest := by
  induction more generalizing e with
  | nil =>
      have hone : List.intercalate [','] ([e].map Entry.chars) = e.chars := by simp [List.intercalate]
      rw [hone, e.encode_chars]
      rfl
  | cons next more ih =>
      have hcons : List.intercalate [','] ((e :: next :: more).map Entry.chars) =
          e.chars ++ ',' :: List.intercalate [','] ((next :: more).map Entry.chars) := by
        simp [List.intercalate]
      have hcomma : String.utf8EncodeChar ',' = [comma] := rfl
      rw [hcons, encode_append, List.append_assoc, encode_cons, List.append_assoc, ih, hcomma, e.encode_chars]
      rfl

theorem afterMember_closeBrace (after : Blanks) (rest : Bytes) :
    afterMember (encode after.chars ++ closeBrace :: rest) = .ok (none, rest) := by
  rw [afterMember, after.skipBlanks_append]
  rfl

theorem afterMember_comma (after beforeKey : Blanks) (rest : Bytes) :
    afterMember (encode after.chars ++ comma :: (encode beforeKey.chars ++ quote :: rest)) = .ok (some rest, rest) := by
  have hnext : skipBlanks (encode beforeKey.chars ++ quote :: rest) = quote :: rest :=
    (beforeKey.skipBlanks_append _).trans rfl
  unfold afterMember
  rw [after.skipBlanks_append, skipBlanks_cons rfl]
  split
  next heq => cases heq
  next heq => exact absurd (List.cons.inj heq).1 (by decide)
  next heq =>
    obtain ⟨-, rfl⟩ := List.cons.inj heq
    rw [hnext]
    rfl
  next hother => exact absurd rfl (hother _)

theorem readMembers_entries (e : Entry) (more : List Entry) (hknows : ∀ x ∈ e :: more, shape.Knows x) (draft : σ)
    (rest : Bytes) :
    shape.readMembers draft (entriesAfterQuote e more rest) =
      ((e :: more).foldlM shape.enter draft).map (·, rest) := by
  induction more generalizing e draft with
  | nil =>
      have hmember := readMember_entry (hknows e List.mem_cons_self) draft (Skip.endsNumber_closeBrace rest)
      rw [readMembers_eq, entriesAfterQuote, hmember, List.foldlM_cons]
      cases shape.enter draft e with
      | error e => rfl
      | ok next =>
          change (afterMember (encode e.after.chars ++ closeBrace :: rest) >>= _) = _
          rw [afterMember_closeBrace]
          rfl
  | cons next more ih =>
      have hmember := readMember_entry (hknows e List.mem_cons_self) draft (Skip.endsNumber_comma
        (encode next.beforeKey.chars ++ quote :: entriesAfterQuote next more rest))
      rw [readMembers_eq, entriesAfterQuote, hmember, List.foldlM_cons]
      cases shape.enter draft e with
      | error e => rfl
      | ok changed =>
          change (afterMember (encode e.after.chars ++ comma ::
            (encode next.beforeKey.chars ++ quote :: entriesAfterQuote next more rest)) >>= _) = _
          rw [afterMember_comma]
          exact ih next (fun x hx => hknows x (List.mem_cons_of_mem e hx)) changed

/-- **An object** is read as what its entries make of an empty draft, one after the other. -/
theorem parse_bytes {o : ObjectText} (hknows : ∀ e ∈ o.entries, shape.Knows e) :
    shape.parse o.bytes = o.entries.foldlM shape.enter shape.start >>= shape.finish := by
  obtain ⟨before, inner, entries, after⟩ := o
  have hblank : skipBlanks (encode after.chars) = [] := by
    have hskip := after.skipBlanks_append []
    rwa [List.append_nil] at hskip
  have hbytes : ObjectText.bytes ⟨before, inner, entries, after⟩ =
      encode before.chars ++ openBrace :: (encode inner.chars ++
        (encode (List.intercalate [','] (entries.map Entry.chars)) ++ closeBrace :: encode after.chars)) := by
    simp only [ObjectText.bytes, ObjectText.chars, encode_append, encode_cons]
    rfl
  have hread : shape.readObject (encode inner.chars ++
      (encode (List.intercalate [','] (entries.map Entry.chars)) ++ closeBrace :: encode after.chars)) =
        (entries.foldlM shape.enter shape.start >>= shape.finish).map (·, encode after.chars) := by
    cases entries with
    | nil =>
        rw [readObject, inner.skipBlanks_append]
        change (do return (← shape.finish shape.start, encode after.chars)) = (shape.finish shape.start).map _
        cases shape.finish shape.start <;> rfl
    | cons e more =>
        rw [encode_entries, readObject, inner.skipBlanks_append, e.beforeKey.skipBlanks_append, skipBlanks_cons rfl]
        change (shape.readMembers shape.start (entriesAfterQuote e more (encode after.chars)) >>= fun found => do
          return (← shape.finish found.1, found.2)) = _
        rw [readMembers_entries e more hknows]
        cases (e :: more).foldlM shape.enter shape.start with
        | error e => rfl
        | ok final =>
            change (do return (← shape.finish final, encode after.chars)) = (shape.finish final).map _
            cases shape.finish final <;> rfl
  unfold parse whole read
  rw [hbytes, before.skipBlanks_append, skipBlanks_cons rfl]
  change (shape.readObject _ >>= _) = _
  rw [hread]
  cases entries.foldlM shape.enter shape.start >>= shape.finish with
  | error e => rfl
  | ok a =>
      change (if skipBlanks (encode after.chars) = [] then _ else _) = _
      rw [if_pos hblank]
      rfl

end Shape

end LeaderLease.Json
