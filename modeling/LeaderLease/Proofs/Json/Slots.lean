import LeaderLease.Proofs.Json.Members

/-!
# What the places of a draft hold

A place that one member fills holds what the values under the name of that member were read as: nothing if there are
none, and there is never more than one. If every member has such a place, an object whose values can all be read and
that has no member twice is read.
-/

namespace LeaderLease.Json

namespace ObjectText

variable {o : ObjectText} {name : String} {v : Value}

theorem mem_under (o : ObjectText) {e : Entry} (he : e ∈ o.entries) : e.value ∈ o.under e.name :=
  List.mem_map_of_mem (List.mem_filter.mpr ⟨he, beq_self_eq_true e.name⟩)

theorem mem_numerals {n : Numeral} (hv : v ∈ o.under name) (hn : v.numeral? = some n) : n ∈ o.numerals name :=
  List.mem_filterMap.mpr ⟨v, hv, hn⟩

end ObjectText

/-- Filling the place of this member does not change what another place holds. -/
def Member.Keeps {σ β : Type} (m : Member σ) (held : σ → Option β) : Prop :=
  ∀ v fill d, m.value.on v = .ok fill → held (fill d) = held d

theorem Member.keeps_map {σ β γ : Type} {held : σ → Option β} {key : String} {isFilled : σ → Bool} {r : Reader γ}
    {place : γ → σ → σ} (hplace : ∀ b d, held (place b d) = held d) :
    Member.Keeps ⟨key, isFilled, r.map place⟩ held := by
  intro v fill d hfill
  obtain ⟨b, -, rfl⟩ := Reader.on_map_ok hfill
  exact hplace b d

namespace Shape

section Entering

variable {σ α : Type} {shape : Shape σ α} {draft next : σ} {e : Entry}

theorem enter_cases (h : shape.enter draft e = .ok next) :
    (shape.find? e.name = none ∧ next = draft) ∨
    ∃ m fill, shape.find? e.name = some m ∧ m.isFilled draft = false ∧ m.value.on e.value = .ok fill ∧
      next = fill draft := by
  unfold enter at h
  cases hfind : shape.find? e.name with
  | none =>
      rw [hfind] at h
      exact .inl ⟨rfl, (Except.ok.inj h).symm⟩
  | some m =>
      rw [hfind] at h
      dsimp only at h
      split at h
      next => cases h
      next hunfilled =>
        cases hon : m.value.on e.value with
        | error err =>
            rw [hon] at h
            cases h
        | ok fill =>
            rw [hon] at h
            exact .inr ⟨m, fill, rfl, Bool.eq_false_iff.mpr hunfilled, hon, (Except.ok.inj h).symm⟩

theorem enter_of_none (hfind : shape.find? e.name = none) (draft : σ) : shape.enter draft e = .ok draft := by
  rw [enter, hfind]

theorem enter_of_some {m : Member σ} (hfind : shape.find? e.name = some m) (hunfilled : m.isFilled draft = false)
    {fill : σ → σ} (hfill : m.value.on e.value = .ok fill) : shape.enter draft e = .ok (fill draft) := by
  rw [enter, hfind]
  dsimp only
  rw [if_neg (by simp [hunfilled]), hfill]
  rfl

end Entering

section Under

variable (name : String)

theorem valuesUnder_append (before after : List Entry) :
    valuesUnder name (before ++ after) = valuesUnder name before ++ valuesUnder name after := by
  simp [valuesUnder]

theorem valuesUnder_of_eq {name : String} {e : Entry} (h : e.name = name) : valuesUnder name [e] = [e.value] := by
  simp [valuesUnder, h]

theorem valuesUnder_of_ne {name : String} {e : Entry} (h : e.name ≠ name) : valuesUnder name [e] = [] := by
  simp [valuesUnder, h]

end Under

variable {σ α β : Type} {shape : Shape σ α} {name : String} {held : σ → Option β} {r : Reader β}

/-- A place in the draft that belongs to the member of this name, and that no other member changes. -/
structure IsSlot (shape : Shape σ α) (name : String) (held : σ → Option β) (r : Reader β) : Prop where
  starts : held shape.start = none
  fills : ∃ place : β → σ → σ, shape.find? name = some ⟨name, fun d => (held d).isSome, r.map place⟩ ∧
    ∀ b d, held (place b d) = some b
  keeps : ∀ m ∈ shape.members, m.key ≠ name → m.Keeps held

theorem find?_some {m : Member σ} (hfind : shape.find? name = some m) : m ∈ shape.members ∧ m.key = name := by
  unfold find? at hfind
  exact ⟨List.mem_of_find?_eq_some hfind, by simpa using List.find?_some hfind⟩

theorem IsSlot.filled (hslot : shape.IsSlot name held r) {m : Member σ} (hfind : shape.find? name = some m)
    {draft : σ} (hunfilled : m.isFilled draft = false) {v : Value} {fill : σ → σ} (hfill : m.value.on v = .ok fill) :
    held draft = none ∧ ∃ b, r.on v = .ok b ∧ held (fill draft) = some b := by
  obtain ⟨place, hmember, hplace⟩ := hslot.fills
  obtain rfl := Option.some.inj (hfind.symm.trans hmember)
  refine ⟨Option.isNone_iff_eq_none.mp (Option.isSome_eq_false_iff.mp hunfilled), ?_⟩
  obtain ⟨b, hb, rfl⟩ := Reader.on_map_ok hfill
  exact ⟨b, hb, hplace b draft⟩

theorem IsSlot.enter (hslot : shape.IsSlot name held r) {draft next : σ} {e : Entry}
    (h : shape.enter draft e = .ok next) :
    (held next).toList.map Except.ok = (held draft).toList.map Except.ok ++ (valuesUnder name [e]).map r.on := by
  obtain ⟨hfind, rfl⟩ | ⟨m, fill, hfind, hunfilled, hfill, rfl⟩ := enter_cases h
  · have hname : e.name ≠ name := by
      rintro rfl
      obtain ⟨place, hmember, -⟩ := hslot.fills
      rw [hfind] at hmember
      cases hmember
    rw [valuesUnder_of_ne hname, List.map_nil, List.append_nil]
  · by_cases hname : e.name = name
    · rw [hname] at hfind
      obtain ⟨hempty, b, hb, hheld⟩ := hslot.filled hfind hunfilled hfill
      rw [valuesUnder_of_eq hname, hempty, hheld, List.map_singleton, hb]
      rfl
    · obtain ⟨hmem, hkey⟩ := find?_some hfind
      rw [valuesUnder_of_ne hname, List.map_nil, List.append_nil,
        hslot.keeps m hmem (hkey ▸ hname) e.value fill draft hfill]

/-- A run over entries: the place holds what it held, and what the values under the name were read as. -/
theorem IsSlot.run (hslot : shape.IsSlot name held r) {draft final : σ} {entries : List Entry}
    (h : entries.foldlM shape.enter draft = .ok final) :
    (held final).toList.map Except.ok =
      (held draft).toList.map Except.ok ++ (valuesUnder name entries).map r.on := by
  induction entries generalizing draft with
  | nil =>
      cases h
      exact (List.append_nil _).symm
  | cons e more ih =>
      rw [List.foldlM_cons] at h
      cases hstep : shape.enter draft e with
      | error err =>
          rw [hstep] at h
          cases h
      | ok next =>
          rw [hstep] at h
          rw [ih h, hslot.enter hstep, List.append_assoc, ← List.map_append, ← valuesUnder_append]
          rfl

theorem IsSlot.ended (hslot : shape.IsSlot name held r) {final : σ} {entries : List Entry}
    (h : entries.foldlM shape.enter shape.start = .ok final) :
    (held final).toList.map Except.ok = (valuesUnder name entries).map r.on := by
  rw [hslot.run h, hslot.starts]
  rfl

theorem IsSlot.held_iff (hslot : shape.IsSlot name held r) {final : σ} {entries : List Entry}
    (h : entries.foldlM shape.enter shape.start = .ok final) {b : β} :
    held final = some b ↔ ∃ v, valuesUnder name entries = [v] ∧ r.on v = .ok b := by
  have hended := hslot.ended h
  constructor
  · intro hheld
    rw [hheld] at hended
    exact List.map_eq_singleton_iff.mp hended.symm
  · rintro ⟨v, hv, hon⟩
    rw [hv, List.map_singleton, hon] at hended
    have hlist : (held final).toList = [b] := List.map_injective_iff.mpr (fun _ _ => Except.ok.inj) hended
    exact Option.mem_toList.mp (hlist ▸ List.mem_cons_self)

theorem IsSlot.unfilled (hslot : shape.IsSlot name held r) {m : Member σ} (hfind : shape.find? name = some m)
    {draft : σ} {entries : List Entry} (h : entries.foldlM shape.enter shape.start = .ok draft)
    (hnone : valuesUnder name entries = []) : m.isFilled draft = false := by
  have hheld := hslot.ended h
  rw [hnone, List.map_nil, List.map_eq_nil_iff, Option.toList_eq_nil_iff] at hheld
  obtain ⟨place, hmember, -⟩ := hslot.fills
  obtain rfl := Option.some.inj (hfind.symm.trans hmember)
  change (held draft).isSome = false
  rw [hheld]
  rfl

/-- Each member has a place of its own. -/
def HasSlots (shape : Shape σ α) : Prop :=
  ∀ name, (shape.find? name).isSome → ∃ (β : Type) (held : σ → Option β) (r : Reader β), shape.IsSlot name held r

theorem enters (hslots : shape.HasSlots) {entries : List Entry}
    (hreadable : ∀ e ∈ entries, ∀ m, shape.find? e.name = some m → ∃ fill, m.value.on e.value = .ok fill)
    (honce : ∀ name, (shape.find? name).isSome → (valuesUnder name entries).length ≤ 1) :
    ∃ final, entries.foldlM shape.enter shape.start = .ok final := by
  -- By the last entry: its place is still free because none before it has its name.
  induction entries using List.reverseRecOn with
  | nil => exact ⟨shape.start, rfl⟩
  | append_singleton pre e ih =>
      obtain ⟨draft, hdraft⟩ := ih (fun x hx => hreadable x (List.mem_append_left [e] hx)) fun name hname => by
        have hlength := honce name hname
        rw [valuesUnder_append, List.length_append] at hlength
        omega
      obtain ⟨final, hfinal⟩ : ∃ final, shape.enter draft e = .ok final := by
        cases hfind : shape.find? e.name with
        | none => exact ⟨draft, enter_of_none hfind draft⟩
        | some m =>
            obtain ⟨β, held, r, hslot⟩ := hslots e.name (by rw [hfind]; rfl)
            obtain ⟨fill, hfill⟩ := hreadable e (List.mem_append_right pre List.mem_cons_self) m hfind
            have hlength := honce e.name (by rw [hfind]; rfl)
            rw [valuesUnder_append, valuesUnder_of_eq rfl, List.length_append] at hlength
            have hnone : valuesUnder e.name pre = [] :=
              List.length_eq_zero_iff.mp (Nat.le_zero.mp (Nat.le_of_succ_le_succ hlength))
            exact ⟨fill draft, enter_of_some hfind (hslot.unfilled hfind hdraft hnone) hfill⟩
      refine ⟨final, ?_⟩
      rw [List.foldlM_append, hdraft]
      change (shape.enter draft e >>= pure) = _
      rw [hfinal]
      rfl

end Shape

end LeaderLease.Json
