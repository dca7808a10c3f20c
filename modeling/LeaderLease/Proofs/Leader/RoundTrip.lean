import LeaderLease.Leader.Event
import LeaderLease.Leader.Record
import LeaderLease.Proofs.Json.Object

/-!
# Records and events come back as they were written

Each member is written once and under its own name, so it fills its own place in the draft, and no place is left empty.
What comes back is the record itself, but for a leap second that does not end a minute: two records that differ in
nothing else have one text.
-/

namespace LeaderLease

open Json

namespace LeaderRecord

structure IsProper (r : LeaderRecord) : Prop where
  acquireTime : r.acquireTime.IsProper
  renewTime : r.renewTime.IsProper

/-- The proper record with the same written form. -/
def asWritten (r : LeaderRecord) : LeaderRecord :=
  { r with acquireTime := r.acquireTime.asWritten, renewTime := r.renewTime.asWritten }

theorem isProper_asWritten (r : LeaderRecord) : r.asWritten.IsProper where
  acquireTime := r.acquireTime.isProper_asWritten
  renewTime := r.renewTime.isProper_asWritten

theorem IsProper.asWritten_eq {r : LeaderRecord} (h : r.IsProper) : r.asWritten = r := by
  rw [asWritten, Timestamp.asWritten_of_isProper h.acquireTime, Timestamp.asWritten_of_isProper h.renewTime]

theorem asWritten_eq_self_iff {r : LeaderRecord} : r.asWritten = r ↔ r.IsProper :=
  ⟨fun h => h ▸ r.isProper_asWritten, IsProper.asWritten_eq⟩

theorem encode_asWritten (r : LeaderRecord) : r.asWritten.encode = r.encode := by
  unfold encode write asWritten
  dsimp only
  rw [Timestamp.write_asWritten, Timestamp.write_asWritten]

/-- **Round trip.** The record that is read from a body is the one that was written to it. -/
theorem decode_encode (r : LeaderRecord) : decode r.encode = .ok r.asWritten := by
  have hfinish : shape.finish ⟨some r.holderIdentity, some r.leaseDurationSeconds, some r.acquireTime.asWritten,
      some r.renewTime.asWritten, some r.leaderTransitions⟩ = .ok r.asWritten := rfl
  refine Shape.parse_writeObject ?_ hfinish
  refine .member rfl rfl (Reader.text_reads r.holderIdentity) ?_
  refine .member rfl rfl (Reader.word64_reads r.leaseDurationSeconds) ?_
  refine .member rfl rfl (Reader.timestamp_reads r.acquireTime) ?_
  refine .member rfl rfl (Reader.timestamp_reads r.renewTime) ?_
  refine .member rfl rfl (Reader.word32_reads r.leaderTransitions) ?_
  exact .nil

theorem encode_eq_iff {r s : LeaderRecord} : r.encode = s.encode ↔ r.asWritten = s.asWritten := by
  constructor
  · intro h
    have hdecode := decode_encode r
    rw [h, decode_encode] at hdecode
    exact (Except.ok.inj hdecode).symm
  · intro h
    rw [← encode_asWritten r, h, encode_asWritten]

end LeaderRecord

namespace LeaderEvent

/-- The event with the same written form whose time is proper. -/
def asWritten (e : LeaderEvent) : LeaderEvent := { e with timestamp := e.timestamp.asWritten }

theorem find_name (t : EventType) : EventType.variants.find t.name = .ok t := by
  cases t <;> rfl

/-- **Round trip.** The event that is read from a body is the one that was written to it. -/
theorem decode_encode (e : LeaderEvent) : decode e.encode = .ok e.asWritten := by
  have hfinish : shape.finish ⟨some e.component, some e.namespaceName, some e.involvedObject, some e.type,
      some e.reason, some e.message, some e.timestamp.asWritten⟩ = .ok e.asWritten := rfl
  refine Shape.parse_writeObject ?_ hfinish
  refine .member rfl rfl (Reader.text_reads e.component) ?_
  refine .member rfl rfl (Reader.text_reads e.namespaceName) ?_
  refine .member rfl rfl (Reader.text_reads e.involvedObject) ?_
  refine .member rfl rfl (EventType.variants.reader_reads (find_name e.type)) ?_
  refine .member rfl rfl (Reader.text_reads e.reason) ?_
  refine .member rfl rfl (Reader.text_reads e.message) ?_
  refine .member rfl rfl (Reader.timestamp_reads e.timestamp) ?_
  exact .nil

end LeaderEvent

end LeaderLease
