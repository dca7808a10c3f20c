import LeaderLease.Timing.Json
import LeaderLease.Proofs.Duration.Json

namespace LeaderLease.TimingSpec

open Json

theorem fills_stored {key : String} {isFilled : Draft → Bool} (fill : Option (Option Duration) → Draft → Draft)
    {stored : Option Duration} {draft final : Draft} {more : List (String × List Char)}
    (hfind : shape.members.find? (·.key == key) =
      some ⟨key, isFilled, Reader.duration.optional.map fun stored => fill (some stored)⟩)
    (hunfilled : isFilled draft = false) (hempty : fill none draft = draft)
    (hshort : ∀ d ∈ stored, d.nanos < 2 ^ 20 * Duration.nanosPerSecond)
    (hmore : shape.Fills (fill (stored.map some) draft) more final) :
    shape.Fills draft (writeStored key stored ++ more) final := by
  cases stored with
  | none =>
      rw [Option.map_none, hempty] at hmore
      exact hmore
  | some d => exact .member hfind hunfilled (Duration.optional_duration_reads (hshort d rfl)) hmore

theorem finish_stored (s : TimingSpec) :
    shape.finish ⟨some s.namespaceName, some s.name, s.storedLeaseDuration.map some, s.storedRenewDeadline.map some,
      s.storedRetryPeriod.map some⟩ = .ok s := by
  obtain ⟨namespaceName, name, leaseDuration, renewDeadline, retryPeriod⟩ := s
  cases leaseDuration <;> cases renewDeadline <;> cases retryPeriod <;> rfl

/-- **Round trip.** A spec whose stored durations are below `2 ^ 20` seconds is read from what was written for it. -/
theorem parse_toJson (s : TimingSpec)
    (hshort : ∀ stored ∈ [s.storedLeaseDuration, s.storedRenewDeadline, s.storedRetryPeriod],
      ∀ d ∈ stored, d.nanos < 2 ^ 20 * Duration.nanosPerSecond) :
    parse s.toJson = .ok s := by
  simp only [List.forall_mem_cons, List.not_mem_nil, false_imp_iff, implies_true, and_true] at hshort
  obtain ⟨hlease, hrenew, hretry⟩ := hshort
  have hwrite : s.write = writeObject (("namespace", writeText s.namespaceName) :: ("name", writeText s.name) ::
      (writeStored "leaseDuration" s.storedLeaseDuration ++
        (writeStored "renewDeadline" s.storedRenewDeadline ++
          (writeStored "retryPeriod" s.storedRetryPeriod ++ [])))) := by
    unfold write
    simp only [List.append_assoc, List.append_nil]
    rfl
  unfold parse toJson
  rw [String.toList_ofList, hwrite]
  refine Shape.parse_writeObject ?_ (finish_stored s)
  refine .member rfl rfl (Reader.text_reads s.namespaceName) ?_
  refine .member rfl rfl (Reader.text_reads s.name) ?_
  refine fills_stored (fun stored d => { d with leaseDuration := stored }) rfl rfl rfl hlease ?_
  refine fills_stored (fun stored d => { d with renewDeadline := stored }) rfl rfl rfl hrenew ?_
  refine fills_stored (fun stored d => { d with retryPeriod := stored }) rfl rfl rfl hretry ?_
  exact .nil

/-- A spec with characters to escape, a stored zero and the longest duration of less than `2 ^ 20` seconds. -/
def unevenSpec : TimingSpec where
  namespaceName := "team \"a\"\n"
  name := "λ"
  storedLeaseDuration := some ⟨2 ^ 20 * Duration.nanosPerSecond - 1, by decide⟩
  storedRenewDeadline := some .zero
  storedRetryPeriod := none

theorem parse_toJson_unevenSpec :
    (∀ stored ∈ [unevenSpec.storedLeaseDuration, unevenSpec.storedRenewDeadline, unevenSpec.storedRetryPeriod],
      ∀ d ∈ stored, d.nanos < 2 ^ 20 * Duration.nanosPerSecond) ∧ parse unevenSpec.toJson = .ok unevenSpec := by
  have hshort : ∀ stored ∈ [unevenSpec.storedLeaseDuration, unevenSpec.storedRenewDeadline,
      unevenSpec.storedRetryPeriod], ∀ d ∈ stored, d.nanos < 2 ^ 20 * Duration.nanosPerSecond := by
    intro stored hstored d hd
    simp only [List.mem_cons, List.not_mem_nil, or_false] at hstored
    rcases hstored with rfl | rfl | rfl <;> cases hd <;> decide
  exact ⟨hshort, parse_toJson unevenSpec hshort⟩

end LeaderLease.TimingSpec
