import LeaderLease.Namespace
import LeaderLease.Proofs.Act.Basic
import LeaderLease.Proofs.Text.Pieces
import LeaderLease.Proofs.Text.Trimming

/-!
# A namespace in a file

The namespace in a file is the core of its text. There is none if the bytes of the file are no text, or if the text is
blank, and the log says which.
-/

namespace LeaderLease

variable {ω : Type}

namespace NamespaceFile

theorem text_eq_ok_iff {read : Except String Bytes} {content : List Char} :
    text read = .ok content ↔ read = .ok (Utf8.encode content) := by
  cases read with
  | error reason => exact ⟨nofun, nofun⟩
  | ok bytes =>
      rw [Except.ok.injEq, ← Utf8.decode?_eq_some_iff]
      dsimp only [text, bind, Except.bind]
      cases Utf8.decode? bytes with
      | none => exact ⟨nofun, nofun⟩
      | some decoded =>
          change Except.ok decoded = .ok content ↔ _
          rw [Except.ok.injEq, Option.some.injEq]

variable {file : NamespaceFile ω} {w : ω}

theorem lookup_of_error {reason : String} (hread : text (file.contents w).value = .error reason) :
    file.lookup w = ⟨none, (file.contents w).world,
      (file.contents w).log ++ [.ambientUnavailable file.path reason]⟩ := by
  unfold lookup
  rw [Act.bind_apply, hread]
  rfl

theorem lookup_of_blank {content : List Char} (hread : text (file.contents w).value = .ok content)
    (hblank : trim content = []) :
    file.lookup w = ⟨none, (file.contents w).world, (file.contents w).log ++ [.ambientBlank file.path]⟩ := by
  unfold lookup
  rw [Act.bind_apply, hread]
  dsimp only
  rw [if_pos hblank]
  rfl

theorem lookup_of_core {content : List Char} (hread : text (file.contents w).value = .ok content)
    (hcore : trim content ≠ []) :
    file.lookup w = ⟨some (.ofList (trim content)), (file.contents w).world, (file.contents w).log⟩ := by
  unfold lookup
  rw [Act.bind_apply, hread]
  dsimp only
  rw [if_neg hcore, Act.pure_apply, List.append_nil]

/-- The ways in which a lookup can end. -/
inductive Lookup (file : NamespaceFile ω) (w : ω) : Prop
  | noText (reason : String) (hread : ∀ content, (file.contents w).value ≠ .ok (Utf8.encode content))
      (hlookup : file.lookup w = ⟨none, (file.contents w).world,
        (file.contents w).log ++ [.ambientUnavailable file.path reason]⟩)
  | blank (content : List Char) (hread : (file.contents w).value = .ok (Utf8.encode content))
      (hblank : trim content = [])
      (hlookup : file.lookup w = ⟨none, (file.contents w).world,
        (file.contents w).log ++ [.ambientBlank file.path]⟩)
  | core (content : List Char) (hread : (file.contents w).value = .ok (Utf8.encode content))
      (hcore : IsCore (trim content) content)
      (hlookup : file.lookup w = ⟨some (.ofList (trim content)), (file.contents w).world, (file.contents w).log⟩)

theorem lookup_cases (file : NamespaceFile ω) (w : ω) : file.Lookup w := by
  cases hread : text (file.contents w).value with
  | error reason =>
      refine .noText reason (fun content hcontent => ?_) (lookup_of_error hread)
      rw [text_eq_ok_iff.mpr hcontent] at hread
      cases hread
  | ok content =>
      by_cases hblank : trim content = []
      · exact .blank content (text_eq_ok_iff.mp hread) hblank (lookup_of_blank hread hblank)
      · exact .core content (text_eq_ok_iff.mp hread) (isCore_trim hblank) (lookup_of_core hread hblank)

theorem lookup_eq_some_iff {found : String} :
    (file.lookup w).value = some found ↔
      ∃ content, (file.contents w).value = .ok (Utf8.encode content) ∧ IsCore found.toList content := by
  constructor
  · intro hfound
    cases file.lookup_cases w with
    | noText reason hread hlookup =>
        rw [hlookup] at hfound
        cases hfound
    | blank content hread hblank hlookup =>
        rw [hlookup] at hfound
        cases hfound
    | core content hread hcore hlookup =>
        rw [hlookup] at hfound
        obtain rfl := Option.some.inj hfound
        exact ⟨content, hread, by rwa [String.toList_ofList]⟩
  · rintro ⟨content, hread, hcore⟩
    obtain ⟨htrim, hnonempty⟩ := isCore_iff.mp hcore
    rw [lookup_of_core (text_eq_ok_iff.mpr hread) (htrim ▸ hnonempty), htrim, String.ofList_toList]

theorem lookup_finds_iff :
    (∃ found, (file.lookup w).value = some found) ↔
      ∃ content, (file.contents w).value = .ok (Utf8.encode content) ∧ ∃ c ∈ content, c ∉ whiteSpace := by
  constructor
  · rintro ⟨found, hfound⟩
    obtain ⟨content, hread, hcore⟩ := lookup_eq_some_iff.mp hfound
    refine ⟨content, hread, ?_⟩
    by_contra hnone
    have hblank : ∀ c ∈ content, c ∈ whiteSpace := fun c hc => by_contra fun hvisible => hnone ⟨c, hc, hvisible⟩
    obtain ⟨htrim, hnonempty⟩ := isCore_iff.mp hcore
    exact hnonempty (htrim.symm.trans (trim_eq_nil_iff.mpr hblank))
  · rintro ⟨content, hread, c, hc, hvisible⟩
    have hnonempty : trim content ≠ [] := fun hblank => hvisible (trim_eq_nil_iff.mp hblank c hc)
    rw [lookup_of_core (text_eq_ok_iff.mpr hread) hnonempty]
    exact ⟨_, rfl⟩

end NamespaceFile

theorem IsCore.self {core text : List Char} (h : IsCore core text) : IsCore core core :=
  ⟨h.nonempty, h.head, h.last, [], [], (List.append_nil _).symm, nofun, nofun⟩

open NamespaceFile in
/-- **Up to white space.** A lookup finds a namespace just if the file holds a text that is not blank. What it finds is
the core of that text, and would be found again in a file that holds nothing else. If it finds none, the last line of
the log is about a blank file if the file holds a text, and otherwise about a missing one. -/
theorem namespace_file_is_read_to_its_core (file : NamespaceFile ω) (w : ω) :
    let read := file.contents w
    let ended := file.lookup w
    (∀ found, ended.value = some found ↔
      ∃ content, read.value = .ok (Utf8.encode content) ∧ IsCore found.toList content) ∧
    (∀ core other content, IsCore core content → IsCore other content → core = other) ∧
    ((∃ found, ended.value = some found) ↔
      ∃ content, read.value = .ok (Utf8.encode content) ∧ ∃ c ∈ content, c ∉ whiteSpace) ∧
    (∀ found, ended.value = some found → ended.log = read.log ∧
      ∀ (again : NamespaceFile ω) (v : ω), (again.contents v).value = .ok (Utf8.encode found.toList) →
        (again.lookup v).value = some found) ∧
    (ended.value = none → ∃ e, ended.log = read.log ++ [e] ∧
      (e.message? = some "Ambient namespace file is blank" ↔
        ∃ content, read.value = .ok (Utf8.encode content)) ∧
      (e.message? = some "No ambient namespace available" ↔
        ¬ ∃ content, read.value = .ok (Utf8.encode content))) := by
  intro read ended
  refine ⟨fun found => lookup_eq_some_iff, ?_, lookup_finds_iff, ?_, ?_⟩
  · intro core other content hcore hother
    exact (isCore_iff.mp hcore).1.symm.trans (isCore_iff.mp hother).1
  · intro found hfound
    obtain ⟨content, hread, hcore⟩ := lookup_eq_some_iff.mp hfound
    refine ⟨?_, fun again v hagain => lookup_eq_some_iff.mpr ⟨_, hagain, hcore.self⟩⟩
    obtain ⟨htrim, hnonempty⟩ := isCore_iff.mp hcore
    exact congrArg Ended.log (lookup_of_core (text_eq_ok_iff.mpr hread) (htrim ▸ hnonempty))
  · intro hnone
    cases file.lookup_cases w with
    | noText reason hread hlookup =>
        have hnotText : ¬ ∃ content, read.value = .ok (Utf8.encode content) := fun ⟨content, h⟩ => hread content h
        refine ⟨_, congrArg Ended.log hlookup, ?_, ?_⟩
        · exact iff_of_false (by simp [LogEvent.message?]) hnotText
        · exact iff_of_true rfl hnotText
    | blank content hread hblank hlookup =>
        have htext : ∃ content, read.value = .ok (Utf8.encode content) := ⟨content, hread⟩
        refine ⟨_, congrArg Ended.log hlookup, ?_, ?_⟩
        · exact iff_of_true rfl htext
        · exact iff_of_false (by simp [LogEvent.message?]) (not_not_intro htext)
    | core content hread hcore hlookup => exact nomatch (congrArg Ended.value hlookup).symm.trans hnone

end LeaderLease
