import LeaderLease.Timing.Json
import LeaderLease.Proofs.Duration.Reading
import LeaderLease.Proofs.Json.Slots
import LeaderLease.Proofs.Timing.Edits

/-!
# Specs that anyone has written

A spec is read from any object whose known members are of the right kinds. What is read is told by the texts and the
numbers that the object gives. It does not matter in which order they stand, what stands between them, and whether a
duration that is not given is `null` or missing.
-/

namespace LeaderLease

open Json

namespace TimingPart

def key : TimingPart → String
  | leaseDuration => "leaseDuration"
  | renewDeadline => "renewDeadline"
  | retryPeriod => "retryPeriod"

/-- What a draft has for this duration, where `null` counts as something. -/
def drafted : TimingPart → TimingSpec.Draft → Option (Option Duration)
  | leaseDuration => TimingSpec.Draft.leaseDuration
  | renewDeadline => TimingSpec.Draft.renewDeadline
  | retryPeriod => TimingSpec.Draft.retryPeriod

theorem stored_toSpec (part : TimingPart) (d : TimingSpec.Draft) :
    part.stored d.toSpec = (part.drafted d).getD none := by
  cases part <;> rfl

end TimingPart

namespace TimingSpec

def keys : List String := ["namespace", "name", "leaseDuration", "renewDeadline", "retryPeriod"]

theorem key_mem_keys (part : TimingPart) : part.key ∈ keys := by
  cases part <;> decide

/-- The known members are of their kinds: names are texts, and durations are numbers or `null`. -/
structure HasKinds (o : ObjectText) : Prop where
  texts : ∀ key ∈ ["namespace", "name"], ∀ v ∈ o.under key, ∃ t, v.text? = some t
  durations : ∀ part : TimingPart, ∀ v ∈ o.under part.key, v = .null ∨ ∃ n, v = .number n

theorem hasKinds_iff {o : ObjectText} :
    HasKinds o ↔ (∀ key ∈ ["namespace", "name"], ∀ v ∈ o.under key, v.text?.isSome) ∧
      ∀ part ∈ [TimingPart.leaseDuration, .renewDeadline, .retryPeriod], ∀ v ∈ o.under part.key,
        v.isNull = true ∨ v.numeral?.isSome := by
  constructor
  · intro h
    refine ⟨fun key hkey v hv => Option.isSome_iff_exists.mpr (h.texts key hkey v hv), fun part _ v hv => ?_⟩
    obtain rfl | ⟨n, rfl⟩ := h.durations part v hv
    · exact .inl rfl
    · exact .inr rfl
  · rintro ⟨htexts, hdurations⟩
    refine ⟨fun key hkey v hv => Option.isSome_iff_exists.mp (htexts key hkey v hv), fun part v hv => ?_⟩
    obtain hnull | hnumber := hdurations part (by cases part <;> decide) v hv
    · exact .inl (Value.eq_null hnull)
    · obtain ⟨n, hn⟩ := Option.isSome_iff_exists.mp hnumber
      exact .inr ⟨n, Value.eq_number hn⟩

instance (o : ObjectText) : Decidable (HasKinds o) := decidable_of_iff _ hasKinds_iff.symm

theorem slot_namespace : shape.IsSlot "namespace" Draft.namespaceName Reader.text where
  starts := rfl
  fills := ⟨_, rfl, fun _ _ => rfl⟩
  keeps m hmem hname := by
    simp only [shape, List.mem_cons, List.not_mem_nil, or_false] at hmem
    obtain rfl | rfl | rfl | rfl | rfl := hmem
    case inl => exact absurd rfl hname
    all_goals exact Member.keeps_map fun _ _ => rfl

theorem slot_name : shape.IsSlot "name" Draft.name Reader.text where
  starts := rfl
  fills := ⟨_, rfl, fun _ _ => rfl⟩
  keeps m hmem hname := by
    simp only [shape, List.mem_cons, List.not_mem_nil, or_false] at hmem
    obtain rfl | rfl | rfl | rfl | rfl := hmem
    case inr.inl => exact absurd rfl hname
    all_goals exact Member.keeps_map fun _ _ => rfl

theorem slot_duration (part : TimingPart) : shape.IsSlot part.key part.drafted Reader.duration.optional where
  starts := by cases part <;> rfl
  fills := by cases part <;> exact ⟨_, rfl, fun _ _ => rfl⟩
  keeps m hmem hname := by
    simp only [shape, List.mem_cons, List.not_mem_nil, or_false] at hmem
    cases part <;> obtain rfl | rfl | rfl | rfl | rfl := hmem <;>
      first
      | exact absurd rfl hname
      | exact Member.keeps_map fun _ _ => rfl

theorem member_cases {m : Member Draft} (hmem : m ∈ shape.members) :
    (∃ key ∈ ["namespace", "name"], ∃ isFilled place, m = ⟨key, isFilled, Reader.text.map place⟩) ∨
    ∃ (part : TimingPart) (isFilled : Draft → Bool) (place : Option Duration → Draft → Draft),
      m = ⟨part.key, isFilled, Reader.duration.optional.map place⟩ := by
  simp only [shape, List.mem_cons, List.not_mem_nil, or_false] at hmem
  obtain rfl | rfl | rfl | rfl | rfl := hmem
  · exact .inl ⟨"namespace", by decide, _, _, rfl⟩
  · exact .inl ⟨"name", by decide, _, _, rfl⟩
  · exact .inr ⟨.leaseDuration, _, _, rfl⟩
  · exact .inr ⟨.renewDeadline, _, _, rfl⟩
  · exact .inr ⟨.retryPeriod, _, _, rfl⟩

theorem hasSlots : shape.HasSlots := by
  intro name hname
  obtain ⟨m, hfind⟩ := Option.isSome_iff_exists.mp hname
  obtain ⟨hmem, rfl⟩ := Shape.find?_some hfind
  obtain ⟨key, hkey, isFilled, place, rfl⟩ | ⟨part, isFilled, place, rfl⟩ := member_cases hmem
  · simp only [List.mem_cons, List.not_mem_nil, or_false] at hkey
    obtain rfl | rfl := hkey
    · exact ⟨_, _, _, slot_namespace⟩
    · exact ⟨_, _, _, slot_name⟩
  · exact ⟨_, _, _, slot_duration part⟩

variable {o : ObjectText}

theorem optional_duration_gives {v : Value} (hv : v = .null ∨ ∃ n, v = .number n) :
    Reader.duration.optional.Gives v (v.numeral?.elim (.ok none) fun n => n.duration.map some) := by
  obtain rfl | ⟨n, rfl⟩ := hv
  · exact Reader.optional_null Reader.duration
  · exact Reader.optional_number (Reader.duration_gives n)

theorem HasKinds.gives (hkinds : HasKinds o) {e : Entry} (he : e ∈ o.entries) {m : Member Draft}
    (hfind : shape.find? e.name = some m) :
    ∃ result, m.value.Gives e.value result ∧
      ((∀ part : TimingPart, ∀ n ∈ o.numerals part.key, n.IsSeconds) → ∃ fill, result = .ok fill) := by
  obtain ⟨hmem, hkey⟩ := Shape.find?_some hfind
  have hunder := o.mem_under he
  obtain ⟨key, hname, isFilled, place, rfl⟩ | ⟨part, isFilled, place, rfl⟩ := member_cases hmem
  · change key = e.name at hkey
    obtain ⟨t, ht⟩ := hkinds.texts key hname e.value (hkey ▸ hunder)
    exact ⟨_, (Reader.text_gives ht).map place, fun _ => ⟨_, rfl⟩⟩
  · change part.key = e.name at hkey
    rw [← hkey] at hunder
    have hgives := optional_duration_gives (hkinds.durations part e.value hunder)
    refine ⟨_, hgives.map place, fun hseconds => ?_⟩
    cases hnumeral : e.value.numeral? with
    | none => exact ⟨_, rfl⟩
    | some n =>
        obtain ⟨d, hd⟩ := Numeral.duration_ok_iff.mpr (hseconds part n (ObjectText.mem_numerals hunder hnumeral))
        refine ⟨place (some d), ?_⟩
        rw [Option.elim_some, hd]
        rfl

theorem HasKinds.parse_text (hkinds : HasKinds o) :
    parse o.text = (o.entries.foldlM shape.enter shape.start).map Draft.toSpec := by
  have hbytes : Utf8.encode o.text.toList = o.bytes := by
    rw [ObjectText.text, String.toList_ofList]
    rfl
  have hknows : ∀ e ∈ o.entries, shape.Knows e := fun e he m hfind => by
    obtain ⟨result, hgives, -⟩ := hkinds.gives he hfind
    exact ⟨result, hgives⟩
  rw [parse, hbytes, Shape.parse_bytes hknows]
  cases o.entries.foldlM shape.enter shape.start <;> rfl

theorem map_on_text {vs : List Value} (hvs : ∀ v ∈ vs, ∃ t, v.text? = some t) :
    vs.map Reader.text.on = (vs.filterMap Value.text?).map .ok := by
  induction vs with
  | nil => rfl
  | cons v more ih =>
      obtain ⟨t, ht⟩ := hvs v List.mem_cons_self
      have hmore := ih fun x hx => hvs x (List.mem_cons_of_mem v hx)
      rw [List.map_cons, hmore, (Reader.text_gives ht).on_eq, List.filterMap_cons_some ht, List.map_cons]

section Ended

variable {final : Draft} (hfinal : o.entries.foldlM shape.enter shape.start = .ok final) (hkinds : HasKinds o)
include hfinal hkinds

theorem held_texts {key : String} (hkey : key ∈ ["namespace", "name"]) {held : Draft → Option String}
    (hslot : shape.IsSlot key held Reader.text) : (held final).toList = o.texts key := by
  have hended := hslot.ended hfinal
  change _ = (o.under key).map Reader.text.on at hended
  rw [map_on_text (hkinds.texts key hkey)] at hended
  exact List.map_injective_iff.mpr (fun _ _ => Except.ok.inj) hended

theorem stored_numerals (part : TimingPart) :
    (part.stored final.toSpec).toList.map Except.ok = (o.numerals part.key).map Numeral.duration := by
  have hended := (slot_duration part).ended hfinal
  have hduration := hkinds.durations part
  change _ = (o.under part.key).map Reader.duration.optional.on at hended
  rw [part.stored_toSpec, ObjectText.numerals]
  cases hdrafted : part.drafted final with
  | none =>
      rw [hdrafted, Option.toList_none, List.map_nil] at hended
      rw [List.map_eq_nil_iff.mp hended.symm]
      rfl
  | some stored =>
      rw [hdrafted, Option.toList_some, List.map_singleton] at hended
      obtain ⟨v, hv, hon⟩ := List.map_eq_singleton_iff.mp hended.symm
      rw [hv] at hduration ⊢
      rw [(optional_duration_gives (hduration v List.mem_cons_self)).on_eq] at hon
      cases hnumeral : v.numeral? with
      | none =>
          rw [hnumeral] at hon
          obtain rfl := Except.ok.inj hon
          rw [List.filterMap_cons_none hnumeral]
          rfl
      | some n =>
          rw [hnumeral, Option.elim_some] at hon
          rw [List.filterMap_cons_some hnumeral]
          cases hn : n.duration with
          | error e =>
              rw [hn] at hon
              cases hon
          | ok d =>
              rw [hn] at hon
              obtain rfl := Except.ok.inj hon
              exact congrArg (· :: []) hn.symm

end Ended

/-- No known name occurs twice. -/
def HasNoRepeats (o : ObjectText) : Prop := ∀ key ∈ keys, (o.under key).length ≤ 1

instance (o : ObjectText) : Decidable (HasNoRepeats o) :=
  inferInstanceAs (Decidable (∀ key ∈ keys, (o.under key).length ≤ 1))

theorem HasNoRepeats.eq_of_mem (honce : HasNoRepeats o) {part : TimingPart} {m n : Numeral}
    (hm : m ∈ o.numerals part.key) (hn : n ∈ o.numerals part.key) : m = n := by
  have hlength : (o.numerals part.key).length ≤ 1 :=
    Nat.le_trans (List.length_filterMap_le _ _) (honce part.key (key_mem_keys part))
  obtain ⟨x, hx⟩ := List.length_eq_one_iff.mp (Nat.le_antisymm hlength (List.length_pos_of_mem hm))
  rw [hx] at hm hn
  exact (List.mem_singleton.mp hm).trans (List.mem_singleton.mp hn).symm

theorem find?_isSome_iff {key : String} : (shape.find? key).isSome ↔ key ∈ keys := by
  unfold Shape.find?
  rw [List.find?_isSome]
  constructor
  · rintro ⟨m, hm, hkey⟩
    obtain rfl := beq_iff_eq.mp hkey
    exact List.mem_map_of_mem hm
  · intro hkey
    obtain ⟨m, hm, rfl⟩ := List.mem_map.mp (show key ∈ shape.members.map (·.key) from hkey)
    exact ⟨m, hm, beq_self_eq_true m.key⟩

theorem HasKinds.parse_ok (hkinds : HasKinds o) (honce : HasNoRepeats o)
    (hseconds : ∀ part : TimingPart, ∀ n ∈ o.numerals part.key, n.IsSeconds) :
    ∃ final, o.entries.foldlM shape.enter shape.start = .ok final ∧ parse o.text = .ok final.toSpec := by
  obtain ⟨final, hfinal⟩ : ∃ final, o.entries.foldlM shape.enter shape.start = .ok final := by
    apply Shape.enters hasSlots
    · intro e he m hfind
      obtain ⟨result, hgives, hok⟩ := hkinds.gives he hfind
      obtain ⟨fill, rfl⟩ := hok hseconds
      exact ⟨fill, hgives.on_eq⟩
    · exact fun key hkey => honce key (find?_isSome_iff.mp hkey)
  refine ⟨final, hfinal, ?_⟩
  rw [hkinds.parse_text, hfinal]
  rfl

theorem HasKinds.exists_draft (hkinds : HasKinds o) {s : TimingSpec} (h : parse o.text = .ok s) :
    ∃ final, o.entries.foldlM shape.enter shape.start = .ok final ∧ final.toSpec = s := by
  rw [hkinds.parse_text] at h
  cases hfinal : o.entries.foldlM shape.enter shape.start with
  | error e =>
      rw [hfinal] at h
      cases h
  | ok final =>
      rw [hfinal] at h
      exact ⟨final, rfl, Except.ok.inj h⟩

/-- The spec is the one that the object describes. -/
structure IsDescribedBy (s : TimingSpec) (o : ObjectText) : Prop where
  namespaceName : s.namespaceName = (o.texts "namespace").headD ""
  name : s.name = (o.texts "name").headD ""
  absent : ∀ part : TimingPart, o.numerals part.key = [] → part.stored s = none
  given : ∀ part : TimingPart, ∀ n ∈ o.numerals part.key, ∃ d, n.duration = .ok d ∧ part.stored s = some d

theorem HasKinds.isDescribedBy (hkinds : HasKinds o) {s : TimingSpec} (h : parse o.text = .ok s) :
    s.IsDescribedBy o := by
  obtain ⟨final, hfinal, rfl⟩ := hkinds.exists_draft h
  have hnumerals := stored_numerals hfinal hkinds
  refine ⟨?_, ?_, ?_, ?_⟩
  · rw [← held_texts hfinal hkinds (by decide) slot_namespace]
    change final.namespaceName.getD "" = _
    cases final.namespaceName <;> rfl
  · rw [← held_texts hfinal hkinds (by decide) slot_name]
    change final.name.getD "" = _
    cases final.name <;> rfl
  · intro part hnone
    have hstored := hnumerals part
    rw [hnone, List.map_nil, List.map_eq_nil_iff] at hstored
    exact Option.toList_eq_nil_iff.mp hstored
  · intro part n hn
    have hmem : n.duration ∈ (part.stored final.toSpec).toList.map Except.ok := by
      rw [hnumerals part]
      exact List.mem_map_of_mem hn
    obtain ⟨d, hd, hduration⟩ := List.mem_map.mp hmem
    exact ⟨d, hduration.symm, Option.mem_toList.mp hd⟩

theorem IsDescribedBy.isSeconds {s : TimingSpec} (h : s.IsDescribedBy o) (part : TimingPart) :
    ∀ n ∈ o.numerals part.key, n.IsSeconds := by
  intro n hn
  obtain ⟨d, hd, -⟩ := h.given part n hn
  exact Numeral.duration_ok_iff.mp ⟨d, hd⟩

theorem not_parse_of_repeated (hkinds : HasKinds o) {key : String} (hkey : key ∈ keys)
    (htwice : 2 ≤ (o.under key).length) : ∃ e, parse o.text = .error e := by
  cases hparse : parse o.text with
  | error e => exact ⟨e, rfl⟩
  | ok s =>
      obtain ⟨final, hfinal, -⟩ := hkinds.exists_draft hparse
      obtain ⟨β, held, r, hslot⟩ := hasSlots key (find?_isSome_iff.mpr hkey)
      have hended := congrArg List.length (hslot.ended hfinal)
      rw [List.length_map, List.length_map] at hended
      change _ = (o.under key).length at hended
      have hone : (held final).toList.length ≤ 1 := by
        cases held final <;> simp
      omega

/-- **Plain decimals.** A duration that is written in plain notation is read to the nanosecond, and refused below
zero. -/
theorem decimal_durations_are_exact (o : ObjectText) (hkinds : HasKinds o) (honce : HasNoRepeats o)
    (part : TimingPart) {n : Numeral} (hn : n ∈ o.numerals part.key) {whole places fraction : Nat}
    (hplain : n.IsPlain whole places fraction) (hwhole : whole < 2 ^ 20) (hplaces : places ≤ 9)
    (hothers : ∀ other : TimingPart, other ≠ part → ∀ m ∈ o.numerals other.key, m.IsSeconds) :
    if n.isNegative = true ∧ ¬(whole = 0 ∧ fraction = 0) then ∃ e, parse o.text = .error e
    else ∃ s d, parse o.text = .ok s ∧ part.stored s = some d ∧
      d.wholeSeconds = whole ∧ d.subsecondNanos = fraction * 10 ^ (9 - places) := by
  obtain ⟨d, hseconds, hnanos, hduration⟩ := hplain.duration_eq hwhole hplaces
  split
  next hnegative =>
    rw [if_pos hnegative] at hduration
    cases hparse : parse o.text with
    | error e => exact ⟨e, rfl⟩
    | ok s =>
        obtain ⟨d', hd', -⟩ := (hkinds.isDescribedBy hparse).given part n hn
        rw [hduration] at hd'
        cases hd'
  next hnegative =>
    rw [if_neg hnegative] at hduration
    have hall : ∀ other : TimingPart, ∀ m ∈ o.numerals other.key, m.IsSeconds := by
      intro other m hm
      by_cases hother : other = part
      · subst hother
        obtain rfl := honce.eq_of_mem hm hn
        exact Numeral.duration_ok_iff.mp ⟨d, hduration⟩
      · exact hothers other hother m hm
    obtain ⟨final, -, hparse⟩ := hkinds.parse_ok honce hall
    obtain ⟨d', hd', hstored⟩ := (hkinds.isDescribedBy hparse).given part n hn
    obtain rfl := Except.ok.inj (hduration.symm.trans hd')
    exact ⟨final.toSpec, d, hparse, hstored, hseconds, hnanos⟩

def accented : Spelling where
  glyphs := [.ofChar 't', .coded (.ofNat 0xE9)]

def twoAndAHalf : Numeral where
  isNegative := false
  whole := ['2']
  isWhole := isWhole_digits 2
  fraction := some ⟨['5', '0', '0'], List.all_eq_true.mp rfl, by decide⟩
  exponent := none

/-- Half of a pair of surrogates, which spells no text. -/
def loneSurrogate : Spelling where
  glyphs := [.coded (.ofNat 0xD800)]

def tooLarge : Numeral where
  isNegative := true
  whole := ['1']
  isWhole := isWhole_digits 1
  fraction := none
  exponent := some ⟨true, some .plus, ⟨['4', '0', '0'], List.all_eq_true.mp rfl, by decide⟩⟩

def crowdedSpec : ObjectText where
  before := .none
  inner := .space
  entries := [
    .named "shards" (.list (.item .none (.object (.lastMember .none loneSurrogate .none .space Value.null .none)) .none
      (.lastItem .space (.number tooLarge) .none))),
    .named "renewDeadline" (.number twoAndAHalf),
    .named "leaseDuration" Value.null,
    .named "namespace" (.text accented)]
  after := .space

example : crowdedSpec.text = "\x7b \"shards\":[\x7b\"\\ud800\": null\x7d, -1E+400],\"renewDeadline\":2.500," ++
    "\"leaseDuration\":null,\"namespace\":\"t\\u00e9\"\x7d " := by
  decide +kernel

theorem crowdedSpec_hasKinds : HasKinds crowdedSpec := by
  decide +kernel

theorem crowdedSpec_hasNoRepeats : HasNoRepeats crowdedSpec := by
  decide +kernel

theorem decimal_durations_are_exact_crowdedSpec :
    HasKinds crowdedSpec ∧ HasNoRepeats crowdedSpec ∧ twoAndAHalf ∈ crowdedSpec.numerals "renewDeadline" ∧
      twoAndAHalf.IsPlain 2 3 500 ∧
      (∀ other : TimingPart, other ≠ .renewDeadline → ∀ m ∈ crowdedSpec.numerals other.key, m.IsSeconds) ∧
      ∃ s d, parse crowdedSpec.text = .ok s ∧ s.storedRenewDeadline = some d ∧ d.wholeSeconds = 2 ∧
        d.subsecondNanos = 500000000 := by
  have hmem : twoAndAHalf ∈ crowdedSpec.numerals TimingPart.renewDeadline.key := List.mem_cons_self
  have hplain : twoAndAHalf.IsPlain 2 3 500 := ⟨rfl, rfl, rfl, rfl⟩
  have hothers : ∀ other : TimingPart, other ≠ .renewDeadline →
      ∀ m ∈ crowdedSpec.numerals other.key, m.IsSeconds := by
    intro other hother m hm
    cases other with
    | leaseDuration => exact absurd hm List.not_mem_nil
    | renewDeadline => exact absurd rfl hother
    | retryPeriod => exact absurd hm List.not_mem_nil
  exact ⟨crowdedSpec_hasKinds, crowdedSpec_hasNoRepeats, hmem, hplain, hothers,
    decimal_durations_are_exact crowdedSpec crowdedSpec_hasKinds crowdedSpec_hasNoRepeats .renewDeadline hmem hplain
      (by decide) (by decide) hothers⟩

end TimingSpec

end LeaderLease
