import LeaderLease.Json.Shape
import LeaderLease.Json.Variant
import LeaderLease.Json.Write
import LeaderLease.Proofs.Json.Integer
import LeaderLease.Proofs.Json.Text
import LeaderLease.Proofs.Time.RoundTrip

/-!
# Objects come back as they were written

A reader reads what was written for a value when it stops exactly at the end of it. An object is read member by
member, each filling its place in the draft, and the draft after the last member is the one that the value was
written from.
-/

namespace LeaderLease.Json

open Utf8

theorem skipBlanks_cons {b : UInt8} (hb : isBlank b = false) (bs : Bytes) : skipBlanks (b :: bs) = b :: bs := by
  rw [skipBlanks, List.dropWhile_cons_of_neg (by simp [hb])]

namespace Reader

variable {α β : Type}

/-- The reader reads this notation of the value, whatever stands after it. -/
def Reads (r : Reader α) (written : List Char) (a : α) : Prop :=
  ∀ rest, EndsNumber rest → r.run (encode written ++ rest) = .ok (a, rest)

theorem Reads.check {r : Reader α} {written : List Char} {a : α} (hr : r.Reads written a) {f : α → Except Error β}
    {b : β} (hf : f a = .ok b) : (r.check f).Reads written b := by
  intro rest hrest
  change (r.run (encode written ++ rest) >>= _) = _
  rw [hr rest hrest]
  change (f a >>= _) = _
  rw [hf]
  rfl

theorem Reads.map {r : Reader α} {written : List Char} {a : α} (hr : r.Reads written a) (f : α → β) :
    (r.map f).Reads written (f a) :=
  hr.check rfl

theorem textAs_run (expected : Expected) (bs : Bytes) :
    (textAs expected).run bs = match skipBlanks bs with
      | quote :: rest => readText rest
      | other => .error (mistyped expected other) := rfl

theorem textAs_reads (expected : Expected) (s : String) : (textAs expected).Reads (writeText s) s := by
  intro rest _
  rw [textAs_run, encode_writeText, skipBlanks_cons rfl]
  exact readText_afterQuote s rest

theorem text_reads (s : String) : text.Reads (writeText s) s := textAs_reads .text s

theorem number_run (expected : Expected) (bs : Bytes) :
    (number expected).run bs = match skipBlanks bs with
      | [] => .error .endInValue
      | b :: rest => if beginsNumber b then readNumber (b :: rest) else .error (mistyped expected (b :: rest)) := rfl

theorem isBlank_of_isDigit {b : UInt8} (hb : isDigit b = true) : isBlank b = false := by
  rw [Bool.eq_false_iff]
  intro hblank
  simp only [isBlank, Bool.or_eq_true, beq_iff_eq] at hblank
  rcases hblank with ((rfl | rfl) | rfl) | rfl <;> exact absurd hb (by decide)

theorem number_run_of_readUnsigned (expected : Expected) {bs : Bytes} {found : Number × Bytes}
    (hread : Numeral.readUnsigned false bs = .ok found) : (number expected).run bs = .ok found := by
  obtain ⟨b, more, rfl, hb⟩ := isDigit_of_readUnsigned hread
  have hminus : b ≠ minus := by
    rintro rfl
    exact absurd hb (by decide)
  have hbegins : beginsNumber b = true := by
    rw [beginsNumber, hb, Bool.or_true]
  rw [number_run, skipBlanks_cons (isBlank_of_isDigit hb)]
  dsimp only
  rw [if_pos hbegins]
  unfold readNumber
  split
  · next heq => exact absurd (List.cons.inj heq).1 hminus
  · exact hread

theorem number_reads (expected : Expected) {n : Nat} (hn : n < Nat.pow 2 64) :
    (number expected).Reads (Decimal.digits n) (.natural n) :=
  fun _ hrest => number_run_of_readUnsigned expected (readUnsigned_digits hn hrest)

theorem optional_run (r : Reader α) (bs : Bytes) :
    r.optional.run bs = match skipBlanks bs with
      | letterN :: rest => do return (none, ← readWord restOfNull rest)
      | other => do
        let (a, rest) ← r.run other
        return (some a, rest) := rfl

theorem optional_run_of_isDigit {r : Reader α} {b : UInt8} (hb : isDigit b = true) {bs rest : Bytes} {a : α}
    (hread : r.run (b :: bs) = .ok (a, rest)) : r.optional.run (b :: bs) = .ok (some a, rest) := by
  have hnull : b ≠ letterN := by
    rintro rfl
    exact absurd hb (by decide)
  rw [optional_run, skipBlanks_cons (isBlank_of_isDigit hb)]
  split
  · next heq => exact absurd (List.cons.inj heq).1 hnull
  · rw [hread]
    rfl

theorem word32_reads (n : UInt32) : word32.Reads (Decimal.digits n.toNat) n := by
  have hn : n.toNat < Nat.pow 2 32 := n.toNat_lt
  have hread : (integerBelow (Nat.pow 2 32) .word32).Reads (Decimal.digits n.toNat) n.toNat :=
    (number_reads .word32 (Nat.lt_trans hn (by decide))).check (if_pos hn)
  have hword := hread.map UInt32.ofNat
  rwa [UInt32.ofNat_toNat] at hword

theorem word64_reads (n : UInt64) : word64.Reads (Decimal.digits n.toNat) n := by
  have hn : n.toNat < Nat.pow 2 64 := n.toNat_lt
  have hread : (integerBelow (Nat.pow 2 64) .word64).Reads (Decimal.digits n.toNat) n.toNat :=
    (number_reads .word64 hn).check (if_pos hn)
  have hword := hread.map UInt64.ofNat
  rwa [UInt64.ofNat_toNat] at hword

theorem timestamp_reads (t : Timestamp) : timestamp.Reads (writeText (.ofList t.write)) t.asWritten := by
  have hread : (Timestamp.read (String.ofList t.write).toList).mapError Error.noTimestamp = .ok t.asWritten := by
    rw [String.toList_ofList, Timestamp.read_write]
    rfl
  exact (textAs_reads .timestamp _).check hread

end Reader

theorem Variants.reader_reads {α : Type} (v : Variants α) {name : String} {a : α} (hname : v.find name = .ok a) :
    v.reader.Reads (writeText name) a := by
  intro rest _
  rw [encode_writeText]
  change (readText (afterQuote name rest) >>= _) = _
  rw [readText_afterQuote]
  change (v.find name >>= _) = _
  rw [hname]
  rfl

/-- The notation of some members, from the first key after its quotation mark, and the end of their object. -/
def membersAfterQuote : String × List Char → List (String × List Char) → Bytes → Bytes
  | m, [], rest => afterQuote m.1 (colon :: (encode m.2 ++ closeBrace :: rest))
  | m, next :: more, rest =>
      afterQuote m.1 (colon :: (encode m.2 ++ comma :: quote :: membersAfterQuote next more rest))

theorem encode_writeMember (m : String × List Char) (rest : Bytes) :
    encode (writeMember m.1 m.2) ++ rest = quote :: afterQuote m.1 (colon :: (encode m.2 ++ rest)) := by
  rw [writeMember, encode_append, List.append_assoc, encode_writeText, encode_cons]
  rfl

theorem encode_members (m : String × List Char) (more : List (String × List Char)) (rest : Bytes) :
    encode (List.intercalate [','] ((m :: more).map fun m => writeMember m.1 m.2)) ++ closeBrace :: rest =
      quote :: membersAfterQuote m more rest := by
  induction more generalizing m with
  | nil =>
      have hone : List.intercalate [','] ([m].map fun m => writeMember m.1 m.2) = writeMember m.1 m.2 := by
        simp [List.intercalate]
      rw [hone, encode_writeMember]
      rfl
  | cons next more ih =>
      have hcons : List.intercalate [','] ((m :: next :: more).map fun m => writeMember m.1 m.2) =
          writeMember m.1 m.2 ++ ',' :: List.intercalate [','] ((next :: more).map fun m => writeMember m.1 m.2) := by
        simp [List.intercalate]
      have hcomma : String.utf8EncodeChar ',' = [comma] := rfl
      rw [hcons, encode_append, List.append_assoc, encode_cons, List.append_assoc, ih, hcomma, encode_writeMember]
      rfl

theorem encode_writeObject (m : String × List Char) (more : List (String × List Char)) (rest : Bytes) :
    encode (writeObject (m :: more)) ++ rest = openBrace :: quote :: membersAfterQuote m more rest := by
  have hend : String.utf8EncodeChar '}' = [closeBrace] := rfl
  rw [← encode_members, writeObject, encode_append, encode_cons, encode_cons, encode_nil, hend]
  simp only [List.append_assoc, List.cons_append, List.nil_append]
  rfl

namespace Shape

variable {σ α : Type} {shape : Shape σ α}

/-- From one draft to another, these members are read in this order, none of them a second time. -/
inductive Fills (shape : Shape σ α) : σ → List (String × List Char) → σ → Prop where
  | nil {draft : σ} : Fills shape draft [] draft
  | cons {draft final : σ} {m : Member σ} {key : String} {written : List Char} {fill : σ → σ}
      {more : List (String × List Char)} (hfind : shape.members.find? (·.key == key) = some m)
      (hunfilled : m.isFilled draft = false) (hreads : m.value.Reads written fill)
      (hmore : Fills shape (fill draft) more final) : Fills shape draft ((key, written) :: more) final

theorem Fills.member {β : Type} {draft final : σ} {key : String} {isFilled : σ → Bool} {r : Reader β}
    {place : β → σ → σ} {written : List Char} {b : β} {more : List (String × List Char)}
    (hfind : shape.members.find? (·.key == key) = some ⟨key, isFilled, r.map place⟩)
    (hunfilled : isFilled draft = false) (hreads : r.Reads written b)
    (hmore : shape.Fills (place b draft) more final) : shape.Fills draft ((key, written) :: more) final :=
  .cons hfind hunfilled (hreads.map place) hmore

theorem skipColon_colon (bs : Bytes) : skipColon (colon :: bs) = .ok bs := rfl

theorem readMember_of_reads {draft : σ} {m : Member σ} {key : String} {written : List Char} {fill : σ → σ}
    (hfind : shape.members.find? (·.key == key) = some m) (hunfilled : m.isFilled draft = false)
    (hreads : m.value.Reads written fill) {rest : Bytes} (hrest : EndsNumber rest) :
    shape.readMember draft (afterQuote key (colon :: (encode written ++ rest))) = .ok (fill draft, rest) := by
  unfold readMember
  rw [readText_afterQuote]
  change shape.readKeyed key draft (colon :: (encode written ++ rest)) = _
  unfold readKeyed
  rw [hfind]
  dsimp only
  rw [if_neg (by simp [hunfilled]), skipColon_colon]
  change (m.value.run (encode written ++ rest) >>= _) = _
  rw [hreads rest hrest]
  rfl

theorem readMembers_eq (shape : Shape σ α) (draft : σ) (bs : Bytes) :
    shape.readMembers draft bs = shape.readMember draft bs >>= fun found =>
      afterMember found.2 >>= fun after => match after with
        | (none, rest) => .ok (found.1, rest)
        | (some rest, _) => shape.readMembers found.1 rest := by
  rw [readMembers]
  split
  · next heq => rw [heq]; rfl
  · next heq =>
    rw [heq]
    change _ = (afterMember _ >>= _)
    split
    · next hafter => rw [hafter]; rfl
    · next hafter => rw [hafter]; rfl
    · next hafter => rw [hafter]; rfl

theorem readMembers_last {draft final : σ} {bs rest : Bytes}
    (h : shape.readMember draft bs = .ok (final, closeBrace :: rest)) :
    shape.readMembers draft bs = .ok (final, rest) := by
  rw [readMembers_eq, h]
  rfl

theorem readMembers_more {draft next : σ} {bs rest : Bytes}
    (h : shape.readMember draft bs = .ok (next, comma :: quote :: rest)) :
    shape.readMembers draft bs = shape.readMembers next rest := by
  rw [readMembers_eq, h]
  rfl

theorem readMembers_of_fills {draft final : σ} {m : String × List Char} {more : List (String × List Char)}
    (hfills : shape.Fills draft (m :: more) final) (rest : Bytes) :
    shape.readMembers draft (membersAfterQuote m more rest) = .ok (final, rest) := by
  induction more generalizing draft m with
  | nil =>
      cases hfills with
      | cons hfind hunfilled hreads hmore =>
          cases hmore
          exact readMembers_last
            (readMember_of_reads hfind hunfilled hreads (endsNumber_cons rfl (by decide) (by decide) (by decide) _))
  | cons next more ih =>
      cases hfills with
      | cons hfind hunfilled hreads hmore =>
          have hends : EndsNumber (comma :: quote :: membersAfterQuote next more rest) :=
            endsNumber_cons rfl (by decide) (by decide) (by decide) (quote :: membersAfterQuote next more rest)
          have hmember := readMember_of_reads hfind hunfilled hreads hends
          exact (readMembers_more hmember).trans (ih hmore)

/-- **Round trip.** A text that holds the members of a value, each once, is read as what the last draft comes to. -/
theorem parse_writeObject {final : σ} {m : String × List Char} {more : List (String × List Char)}
    (hfills : shape.Fills shape.start (m :: more) final) {a : α} (hfinish : shape.finish final = .ok a) :
    shape.parse (encode (writeObject (m :: more))) = .ok a := by
  have hread : shape.read (encode (writeObject (m :: more))) = .ok (a, []) := by
    have hbytes := encode_writeObject m more []
    rw [List.append_nil] at hbytes
    unfold read
    rw [hbytes, skipBlanks_cons rfl]
    change (shape.readMembers shape.start (membersAfterQuote m more []) >>= _) = _
    rw [readMembers_of_fills hfills]
    change (shape.finish final >>= _) = _
    rw [hfinish]
    rfl
  unfold parse whole
  rw [hread]
  rfl

end Shape

end LeaderLease.Json
