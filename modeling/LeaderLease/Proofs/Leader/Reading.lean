import LeaderLease.Proofs.Json.Slots
import LeaderLease.Proofs.Leader.RoundTrip

namespace LeaderLease

open Json

inductive RecordPart : Type → Type where
  | holderIdentity : RecordPart String
  | leaseDurationSeconds : RecordPart UInt64
  | acquireTime : RecordPart Timestamp
  | renewTime : RecordPart Timestamp
  | leaderTransitions : RecordPart UInt32

namespace RecordPart

variable {β : Type}

def key : RecordPart β → String
  | holderIdentity => "holderIdentity"
  | leaseDurationSeconds => "leaseDurationSeconds"
  | acquireTime => "acquireTime"
  | renewTime => "renewTime"
  | leaderTransitions => "leaderTransitions"

def ofRecord : RecordPart β → LeaderRecord → β
  | holderIdentity => LeaderRecord.holderIdentity
  | leaseDurationSeconds => LeaderRecord.leaseDurationSeconds
  | acquireTime => LeaderRecord.acquireTime
  | renewTime => LeaderRecord.renewTime
  | leaderTransitions => LeaderRecord.leaderTransitions

def drafted : RecordPart β → LeaderRecord.Draft → Option β
  | holderIdentity => LeaderRecord.Draft.holderIdentity
  | leaseDurationSeconds => LeaderRecord.Draft.leaseDurationSeconds
  | acquireTime => LeaderRecord.Draft.acquireTime
  | renewTime => LeaderRecord.Draft.renewTime
  | leaderTransitions => LeaderRecord.Draft.leaderTransitions

def reader : RecordPart β → Reader β
  | holderIdentity => .text
  | leaseDurationSeconds => .word64
  | acquireTime | renewTime => .timestamp
  | leaderTransitions => .word32

/-- The value is of the kind that this part has: a text, a number, or a time as it is always written. -/
def IsKind : RecordPart β → Value → Prop
  | holderIdentity, v => ∃ t, v.text? = some t
  | leaseDurationSeconds, v | leaderTransitions, v => ∃ n, v = .number n
  | acquireTime, v | renewTime, v => ∃ t : Timestamp, v.text? = some (.ofList t.write)

/-- The value spells this part. An integer is spelled by its digits alone, and a time as it is always written. -/
def Spells : RecordPart β → Value → β → Prop
  | holderIdentity, v, t => v.text? = some t
  | leaseDurationSeconds, v, u => ∃ n, v = .number n ∧ n.IsUnsigned u.toNat
  | acquireTime, v, t | renewTime, v, t => v.text? = some (.ofList t.write)
  | leaderTransitions, v, u => ∃ n, v = .number n ∧ n.IsUnsigned u.toNat

/-- What is spelled can be told from its spelling. -/
def IsProper : RecordPart β → β → Prop
  | acquireTime, t | renewTime, t => t.IsProper
  | holderIdentity, _ | leaseDurationSeconds, _ | leaderTransitions, _ => True

theorem Spells.isKind {part : RecordPart β} {v : Value} {b : β} (h : part.Spells v b) : part.IsKind v := by
  cases part with
  | holderIdentity | acquireTime | renewTime => exact ⟨b, h⟩
  | leaseDurationSeconds | leaderTransitions =>
      obtain ⟨n, hn, -⟩ := h
      exact ⟨n, hn⟩

theorem gives {part : RecordPart β} {v : Value} (h : part.IsKind v) : ∃ result, part.reader.Gives v result := by
  cases part with
  | holderIdentity =>
      obtain ⟨t, ht⟩ := h
      exact ⟨_, Reader.text_gives ht⟩
  | leaseDurationSeconds =>
      obtain ⟨n, rfl⟩ := h
      exact ⟨_, Reader.word64_gives n⟩
  | acquireTime | renewTime =>
      obtain ⟨t, ht⟩ := h
      exact ⟨_, Reader.timestamp_gives ht⟩
  | leaderTransitions =>
      obtain ⟨n, rfl⟩ := h
      exact ⟨_, Reader.word32_gives n⟩

theorem on_iff {part : RecordPart β} {v : Value} (h : part.IsKind v) {b : β} :
    part.reader.on v = .ok b ↔ part.Spells v b ∧ part.IsProper b := by
  cases part with
  | holderIdentity =>
      obtain ⟨t, ht⟩ := h
      change Reader.text.on v = .ok b ↔ v.text? = some b ∧ True
      rw [(Reader.text_gives ht).on_eq, ht, Except.ok.injEq, Option.some.injEq]
      exact (and_iff_left trivial).symm
  | leaseDurationSeconds =>
      obtain ⟨n, rfl⟩ := h
      refine Reader.word64_on_iff.trans ⟨fun hn => ⟨⟨n, rfl, hn⟩, trivial⟩, ?_⟩
      rintro ⟨⟨m, ⟨⟩, hm⟩, -⟩
      exact hm
  | acquireTime | renewTime =>
      obtain ⟨t, ht⟩ := h
      change Reader.timestamp.on v = .ok b ↔ v.text? = some (.ofList b.write) ∧ b.IsProper
      constructor
      · intro hb
        rw [(Reader.timestamp_gives ht).on_eq] at hb
        obtain rfl := Except.ok.inj hb
        rw [Timestamp.write_asWritten]
        exact ⟨ht, t.isProper_asWritten⟩
      · rintro ⟨hb, hproper⟩
        rw [(Reader.timestamp_gives hb).on_eq, Timestamp.asWritten_of_isProper hproper]
  | leaderTransitions =>
      obtain ⟨n, rfl⟩ := h
      refine Reader.word32_on_iff.trans ⟨fun hn => ⟨⟨n, rfl, hn⟩, trivial⟩, ?_⟩
      rintro ⟨⟨m, ⟨⟩, hm⟩, -⟩
      exact hm

theorem slot (part : RecordPart β) : LeaderRecord.shape.IsSlot part.key part.drafted part.reader where
  starts := by cases part <;> rfl
  fills := by cases part <;> exact ⟨_, rfl, fun _ _ => rfl⟩
  keeps m hmem hname := by
    simp only [LeaderRecord.shape, List.mem_cons, List.not_mem_nil, or_false] at hmem
    cases part <;> obtain rfl | rfl | rfl | rfl | rfl := hmem <;>
      first
      | exact absurd rfl hname
      | exact Member.keeps_map fun _ _ => rfl

theorem exists_of_find {name : String} {m : Member LeaderRecord.Draft}
    (hfind : LeaderRecord.shape.find? name = some m) :
    ∃ (β : Type) (part : RecordPart β) (isFilled : LeaderRecord.Draft → Bool)
      (place : β → LeaderRecord.Draft → LeaderRecord.Draft),
      name = part.key ∧ m = ⟨part.key, isFilled, part.reader.map place⟩ := by
  obtain ⟨hmem, rfl⟩ := Shape.find?_some hfind
  simp only [LeaderRecord.shape, List.mem_cons, List.not_mem_nil, or_false] at hmem
  obtain rfl | rfl | rfl | rfl | rfl := hmem
  · exact ⟨_, holderIdentity, _, _, rfl, rfl⟩
  · exact ⟨_, leaseDurationSeconds, _, _, rfl, rfl⟩
  · exact ⟨_, acquireTime, _, _, rfl, rfl⟩
  · exact ⟨_, renewTime, _, _, rfl, rfl⟩
  · exact ⟨_, leaderTransitions, _, _, rfl, rfl⟩

end RecordPart

namespace LeaderRecord

variable {o : ObjectText} {r : LeaderRecord}

def HasKinds (o : ObjectText) : Prop :=
  ∀ (β : Type) (part : RecordPart β), ∀ v ∈ o.under part.key, part.IsKind v

/-- The object spells the parts of the record, each once. -/
def IsSpelledBy (r : LeaderRecord) (o : ObjectText) : Prop :=
  ∀ (β : Type) (part : RecordPart β), ∃ v, o.under part.key = [v] ∧ part.Spells v (part.ofRecord r)

/-- An object that spells a record spells the proper record with the same written form. -/
theorem IsSpelledBy.asWritten (h : r.IsSpelledBy o) : r.asWritten.IsSpelledBy o := by
  intro β part
  obtain ⟨v, hunder, hspells⟩ := h β part
  refine ⟨v, hunder, ?_⟩
  cases part with
  | holderIdentity | leaseDurationSeconds | leaderTransitions => exact hspells
  | acquireTime | renewTime => exact hspells.trans (by rw [← Timestamp.write_asWritten]; rfl)

theorem isProper_iff : r.IsProper ↔ ∀ (β : Type) (part : RecordPart β), part.IsProper (part.ofRecord r) := by
  constructor
  · intro h β part
    cases part with
    | acquireTime => exact h.acquireTime
    | renewTime => exact h.renewTime
    | holderIdentity | leaseDurationSeconds | leaderTransitions => trivial
  · intro h
    exact ⟨h _ .acquireTime, h _ .renewTime⟩

theorem IsSpelledBy.hasKinds (h : r.IsSpelledBy o) : HasKinds o := by
  intro β part v hv
  obtain ⟨spelled, hunder, hspells⟩ := h β part
  rw [hunder, List.mem_singleton] at hv
  exact hv ▸ hspells.isKind

theorem finish_iff {d : Draft} :
    shape.finish d = .ok r ↔ ∀ (β : Type) (part : RecordPart β), part.drafted d = some (part.ofRecord r) := by
  constructor
  · intro h
    obtain ⟨_ | holder, seconds, acquired, renewed, transitions⟩ := d
    · cases h
    obtain _ | seconds := seconds
    · cases h
    obtain _ | acquired := acquired
    · cases h
    obtain _ | renewed := renewed
    · cases h
    obtain _ | transitions := transitions
    · cases h
    obtain rfl := Except.ok.inj h
    intro β part
    cases part <;> rfl
  · intro h
    obtain ⟨holder, seconds, acquired, renewed, transitions⟩ := d
    obtain rfl : holder = _ := h _ .holderIdentity
    obtain rfl : seconds = _ := h _ .leaseDurationSeconds
    obtain rfl : acquired = _ := h _ .acquireTime
    obtain rfl : renewed = _ := h _ .renewTime
    obtain rfl : transitions = _ := h _ .leaderTransitions
    rfl

theorem hasSlots : shape.HasSlots := by
  intro name hname
  obtain ⟨m, hfind⟩ := Option.isSome_iff_exists.mp hname
  obtain ⟨β, part, isFilled, place, rfl, -⟩ := RecordPart.exists_of_find hfind
  exact ⟨β, part.drafted, part.reader, part.slot⟩

theorem HasKinds.decode_eq (hkinds : HasKinds o) :
    decode o.bytes = o.entries.foldlM shape.enter shape.start >>= shape.finish := by
  apply Shape.parse_bytes
  intro e he m hfind
  obtain ⟨β, part, isFilled, place, hkey, rfl⟩ := RecordPart.exists_of_find hfind
  obtain ⟨result, hgives⟩ := RecordPart.gives (hkinds β part e.value (hkey ▸ o.mem_under he))
  exact ⟨_, hgives.map place⟩

theorem IsSpelledBy.enters (h : r.IsSpelledBy o) (hproper : r.IsProper) :
    ∃ final, o.entries.foldlM shape.enter shape.start = .ok final := by
  apply Shape.enters hasSlots
  · intro e he m hfind
    obtain ⟨β, part, isFilled, place, hkey, rfl⟩ := RecordPart.exists_of_find hfind
    obtain ⟨v, hunder, hspells⟩ := h β part
    have hv : e.value ∈ o.under part.key := hkey ▸ o.mem_under he
    rw [hunder, List.mem_singleton] at hv
    have hon := (RecordPart.on_iff hspells.isKind).mpr ⟨hspells, isProper_iff.mp hproper β part⟩
    refine ⟨place (part.ofRecord r), ?_⟩
    change (part.reader.map place).on e.value = _
    rw [Reader.on_map, hv, hon]
    rfl
  · intro name hname
    obtain ⟨m, hfind⟩ := Option.isSome_iff_exists.mp hname
    obtain ⟨β, part, isFilled, place, rfl, -⟩ := RecordPart.exists_of_find hfind
    obtain ⟨v, hunder, -⟩ := h β part
    change (o.under part.key).length ≤ 1
    rw [hunder, List.length_singleton]

/-- **Strict, whatever the layout.** An object whose known members are of their kinds is read as a record just if it
spells the parts of that record, each once, and these can be told from their spelling. -/
theorem decode_iff (hkinds : HasKinds o) : decode o.bytes = .ok r ↔ r.IsSpelledBy o ∧ r.IsProper := by
  rw [hkinds.decode_eq]
  constructor
  · intro h
    cases hfinal : o.entries.foldlM shape.enter shape.start with
    | error e =>
        rw [hfinal] at h
        cases h
    | ok final =>
        rw [hfinal] at h
        have hpart : ∀ (β : Type) (part : RecordPart β), ∃ v, o.under part.key = [v] ∧
            part.Spells v (part.ofRecord r) ∧ part.IsProper (part.ofRecord r) := by
          intro β part
          obtain ⟨v, hunder, hon⟩ := (part.slot.held_iff hfinal).mp (finish_iff.mp h β part)
          change o.under part.key = [v] at hunder
          have hkind : part.IsKind v := hkinds β part v (by rw [hunder]; exact List.mem_singleton_self v)
          exact ⟨v, hunder, (RecordPart.on_iff hkind).mp hon⟩
        refine ⟨fun β part => ?_, isProper_iff.mpr fun β part => ?_⟩
        · obtain ⟨v, hunder, hspells, -⟩ := hpart β part
          exact ⟨v, hunder, hspells⟩
        · obtain ⟨v, -, -, hproper⟩ := hpart β part
          exact hproper
  · rintro ⟨h, hproper⟩
    obtain ⟨final, hfinal⟩ := h.enters hproper
    rw [hfinal]
    refine finish_iff.mpr fun β part => (part.slot.held_iff hfinal).mpr ?_
    obtain ⟨v, hunder, hspells⟩ := h β part
    exact ⟨v, hunder, (RecordPart.on_iff hspells.isKind).mpr ⟨hspells, isProper_iff.mp hproper β part⟩⟩

theorem IsSpelledBy.decode_eq (h : r.IsSpelledBy o) : decode o.bytes = .ok r.asWritten :=
  (decode_iff h.hasKinds).mpr ⟨h.asWritten, r.isProper_asWritten⟩

end LeaderRecord

end LeaderLease
