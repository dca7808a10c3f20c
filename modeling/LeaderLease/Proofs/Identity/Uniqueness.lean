import LeaderLease.Proofs.Election.Outcome
import LeaderLease.StandIn.Rehearsal

/-!
# No two contenders share an identity

The text of an identifier has a fixed length and gives the identifier away. A generated identity ends in such a text,
so it gives the identifier away as well, whatever the name of the host that stands in front.
-/

namespace LeaderLease

namespace Uuid

variable {u v : Uuid}

theorem digit_ne_hyphen (u : Uuid) (i : Nat) : u.digit i ≠ '-' := Nat.digitChar_ne '-' rfl

theorem digitChar_injective : ∀ x y : Fin 16, Nat.digitChar x = Nat.digitChar y → x = y := by decide

theorem length_digits (u : Uuid) (first count : Nat) : (u.digits first count).length = count := by
  rw [digits, List.length_map, List.length_range']

theorem digits_append (u : Uuid) (first count more : Nat) :
    u.digits first count ++ u.digits (first + count) more = u.digits first (count + more) := by
  have hrange : List.range' first count ++ List.range' (first + count) more = List.range' first (count + more) := by
    simp
  rw [digits, digits, ← List.map_append, hrange, digits]

theorem filter_digits (u : Uuid) (first count : Nat) :
    (u.digits first count).filter (· ≠ '-') = u.digits first count := by
  rw [List.filter_eq_self]
  intro c hc
  obtain ⟨i, -, rfl⟩ := List.mem_map.mp hc
  exact decide_eq_true (u.digit_ne_hyphen i)

theorem length_text (u : Uuid) : u.text.length = 36 := by
  simp only [text, List.length_append, List.length_cons, length_digits]

theorem filter_text (u : Uuid) : u.text.filter (· ≠ '-') = u.digits 0 32 := by
  have hhyphen : ∀ cs : List Char, ('-' :: cs).filter (· ≠ '-') = cs.filter (· ≠ '-') :=
    fun cs => List.filter_cons_of_neg (by decide)
  unfold text
  simp only [List.filter_append, hhyphen, filter_digits]
  rw [u.digits_append 0 8, u.digits_append 0 12, u.digits_append 0 16, u.digits_append 0 20]

theorem extract_eq_of_digit_eq {i : Nat} (h : u.digit i = v.digit i) :
    u.bits.extractLsb' (4 * (31 - i)) 4 = v.bits.extractLsb' (4 * (31 - i)) 4 :=
  congrArg BitVec.ofFin (digitChar_injective _ _ h)

theorem text_injective : Function.Injective text := by
  intro u v htext
  have hdigits : u.digits 0 32 = v.digits 0 32 := by rw [← filter_text, ← filter_text, htext]
  have hdigit : ∀ i < 32, u.digit i = v.digit i := fun i hi =>
    List.map_inj_left.mp hdigits i (List.mem_range'_1.mpr ⟨Nat.zero_le i, by omega⟩)
  have hbits : u.bits = v.bits := by
    apply BitVec.eq_of_getLsbD_eq
    intro bit hbit
    have hextract := extract_eq_of_digit_eq (hdigit (31 - bit / 4) (by omega))
    have hlocal := congrArg (·.getLsbD (bit % 4)) hextract
    have hplace : 4 * (31 - (31 - bit / 4)) + bit % 4 = bit := by omega
    simpa only [BitVec.getLsbD_extractLsb', hplace, Nat.mod_lt bit (Nat.succ_pos 3), decide_true, Bool.true_and]
      using hlocal
  exact congrArg Uuid.mk hbits

end Uuid

namespace IdentityResolver

variable {ω : Type}

/-- The identity of a contender whose host has answered to the question for its name. -/
def identityFor (answer : Except String String) (unique : Uuid) : String :=
  match answer with
  | .ok hostname => if hostname ≠ "" then onHost hostname unique else .ofList unique.text
  | .error _ => .ofList unique.text

/-- The warning that a host without a name gives rise to. -/
def hostWarning (answer : Except String String) (unique : Uuid) : List LogEvent :=
  match answer with
  | .ok hostname => if hostname ≠ "" then [] else [.hostnameEmpty (.ofList unique.text)]
  | .error reason => [.hostnameUnavailable (.ofList unique.text) reason]

theorem resolve_empty (r : IdentityResolver ω) (w : ω) :
    let drawn := r.draw w
    let asked := r.hostname drawn.world
    r.resolve "" w = ⟨identityFor asked.value drawn.value, asked.world,
      drawn.log ++ asked.log ++ hostWarning asked.value drawn.value⟩ := by
  intro drawn asked
  unfold resolve identityFor hostWarning
  rw [if_neg (not_not_intro rfl), Act.bind_apply, Act.bind_apply]
  cases hanswer : (r.hostname (r.draw w).world).value with
  | error reason =>
      simp only [Act.bind_apply, Act.emit_apply, Act.pure_apply, List.append_assoc, List.append_nil, asked, drawn]
  | ok hostname =>
      by_cases hempty : hostname = ""
      · simp only [hempty, ne_eq, not_true_eq_false, if_false, Act.bind_apply, Act.emit_apply,
          Act.pure_apply, List.append_assoc, List.append_nil, asked, drawn]
      · simp only [hempty, ne_eq, not_false_eq_true, if_true, Act.pure_apply, List.append_assoc, asked, drawn]

theorem resolve_explicit (r : IdentityResolver ω) {explicit : String} (hexplicit : explicit ≠ "") :
    r.resolve explicit = pure explicit := if_pos hexplicit

theorem text_isSuffix (answer : Except String String) (unique : Uuid) :
    unique.text <:+ (identityFor answer unique).toList := by
  have hbare : unique.text <:+ (String.ofList unique.text).toList := ⟨[], String.toList_ofList.symm⟩
  unfold identityFor
  cases answer with
  | error reason => exact hbare
  | ok hostname =>
      dsimp only
      split
      · rw [onHost, String.toList_append]
        exact List.suffix_append_of_suffix hbare
      · exact hbare

/-- Two identities that end in the texts of different identifiers differ. -/
theorem identityFor_injective {first second : Except String String} {u v : Uuid}
    (h : identityFor first u = identityFor second v) : u = v := by
  have hlength : u.text.length = v.text.length := by rw [Uuid.length_text, Uuid.length_text]
  have hsecond : v.text <:+ (identityFor first u).toList := h ▸ text_isSuffix second v
  have hsuffix := List.suffix_of_suffix_length_le (text_isSuffix first u) hsecond (Nat.le_of_eq hlength)
  exact Uuid.text_injective (hsuffix.eq_of_length hlength)

theorem identityFor_ne_empty (answer : Except String String) (unique : Uuid) : identityFor answer unique ≠ "" := by
  intro hempty
  have hlength := (text_isSuffix answer unique).length_le
  rw [hempty, Uuid.length_text] at hlength
  exact absurd hlength (by decide)

/-- A warning is due to a host that has an empty name or does not tell its name. -/
def warningLevels : Except String String → List LogLevel
  | .ok hostname => if hostname = "" then [.warn] else []
  | .error _ => [.warn]

theorem hostWarning_levels (answer : Except String String) (unique : Uuid) :
    (hostWarning answer unique).map LogEvent.level = warningLevels answer := by
  unfold hostWarning warningLevels
  cases answer with
  | error reason => rfl
  | ok hostname =>
      by_cases hempty : hostname = ""
      · simp [hempty, LogEvent.level]
      · simp [hempty]

end IdentityResolver

open IdentityResolver in
/-- **No collisions.** Contenders may live in worlds of their own, on hosts of any name or none. If no two of them draw
the same identifier, then no two of them come to the same identity. Each identity ends in the identifier that was drawn
for it, and there is a warning just if the host has no name. What a contender is told to be called, it is called, and
neither the host nor the source of identifiers hears of it. -/
theorem generated_identities_never_collide {ι : Type} {ω : ι → Type} (r : ∀ i, IdentityResolver (ω i))
    (w : ∀ i, ω i) (hdrawn : Function.Injective fun i => ((r i).draw (w i)).value) :
    (Function.Injective fun i => ((r i).resolve "" (w i)).value) ∧
    ∀ i,
      let drawn := (r i).draw (w i)
      let asked := (r i).hostname drawn.world
      let ended := (r i).resolve "" (w i)
      ended.value ≠ "" ∧ drawn.value.text <:+ ended.value.toList ∧ drawn.value.text.length = 36 ∧
      (∃ warnings, ended.log = drawn.log ++ asked.log ++ warnings ∧
        warnings.map LogEvent.level = warningLevels asked.value) ∧
      ((Spied.resolver (r i)).resolve "" ⟨w i, []⟩).world.calls = [.draw, .hostname] ∧
      ∀ explicit, explicit ≠ "" →
        (r i).resolve explicit (w i) = ⟨explicit, w i, []⟩ ∧
          ((Spied.resolver (r i)).resolve explicit ⟨w i, []⟩).world.calls = [] := by
  have hidentity : ∀ i, ((r i).resolve "" (w i)).value =
      identityFor ((r i).hostname ((r i).draw (w i)).world).value ((r i).draw (w i)).value := by
    intro i
    rw [resolve_empty]
  refine ⟨?_, fun i => ?_⟩
  · intro i j hsame
    dsimp only at hsame
    rw [hidentity, hidentity] at hsame
    exact hdrawn (identityFor_injective hsame)
  · intro drawn asked ended
    have hvalue : ended.value = identityFor asked.value drawn.value := hidentity i
    refine ⟨?_, ?_, drawn.value.length_text, ?_, ?_, ?_⟩
    · rw [hvalue]
      exact identityFor_ne_empty _ _
    · rw [hvalue]
      exact text_isSuffix _ _
    · refine ⟨hostWarning asked.value drawn.value, ?_, hostWarning_levels _ _⟩
      exact congrArg Ended.log ((r i).resolve_empty (w i))
    · rw [Spied.resolve_apply]
      rfl
    · intro explicit hexplicit
      rw [Spied.resolve_apply, resolve_explicit _ hexplicit, identityCalls, if_neg hexplicit]
      exact ⟨rfl, rfl⟩

/-- Three contenders that draw from one source. The second is on a host that is called like the first contender, and
the host of the third does not tell its name. -/
def neighbours (i : Fin 3) : IdentityResolver UuidSource where
  hostname := fixedHostname (match i with
    | 0 => some "node-1"
    | 1 => some (IdentityResolver.onHost "node-1" (UuidSource.nth 0))
    | 2 => none)
  draw := UuidSource.draw

theorem generated_identities_never_collide_neighbours :
    let w (i : Fin 3) : UuidSource := ⟨List.replicate i (UuidSource.nth 0)⟩
    (Function.Injective fun i => ((neighbours i).draw (w i)).value) ∧
      (Function.Injective fun i => ((neighbours i).resolve "" (w i)).value) ∧
      ((neighbours 2).resolve "" (w 2)).log.map LogEvent.level = [.warn] := by
  intro w
  have hdrawn : Function.Injective fun i => ((neighbours i).draw (w i)).value := by
    unfold Function.Injective
    decide
  obtain ⟨hdistinct, hevery⟩ := generated_identities_never_collide neighbours w hdrawn
  obtain ⟨-, -, -, ⟨warnings, hlog, hlevels⟩, -⟩ := hevery 2
  exact ⟨hdrawn, hdistinct, (congrArg (List.map LogEvent.level) hlog).trans hlevels⟩

end LeaderLease
