import Courier.Proofs.Record.Cuts
import Courier.Proofs.Record.Rewriting
import Courier.Proofs.Store

/-!
# Compaction

A log that can be loaded can be compacted, whatever bytes it consists of: every message that is
loaded was read from a record, so it can be written again, and its new record is not longer than the
one that it was read from. Records that are hidden, and bytes that were passed over, are not
written again. What is loaded does not change, and to compact the log once more changes nothing.

## Main definitions

* `Record.totalSize`: the number of bytes of the records of some messages.

## Main results

* `Record.Carries.rewritable`, `Record.Carries.totalSize_le`: what a stream carries can be written
  again, and has room in the stream.
* `MessageLog.exists_compact`: what is in a log that was compacted.
* `MessageLog.compact_of_load`: what is seen of compaction.
-/

namespace Courier

open StreamReader

/-! ### The records of the messages of a stream -/

namespace Record

/-- The number of bytes of the records of some messages. -/
def totalSize : List Message → Nat
  | [] => 0
  | m :: messages => headerSize + m.recordBodySize + totalSize messages

@[simp] theorem totalSize_cons (m : Message) (messages : List Message) :
    totalSize (m :: messages) = headerSize + m.recordBodySize + totalSize messages := rfl

theorem totalSize_filter_le (p : Message → Bool) (messages : List Message) :
    totalSize (messages.filter p) ≤ totalSize messages := by
  induction messages with
  | nil => exact Nat.le_refl _
  | cons m messages ih =>
      rw [List.filter_cons]
      split
      · rw [totalSize_cons, totalSize_cons]
        exact Nat.add_le_add_left ih _
      · rw [totalSize_cons]
        exact Nat.le_add_left_of_le ih

namespace Carries

variable {bytes : List UInt8} {messages : List Message}

/-- **What a stream carries can be written again.** -/
theorem rewritable (h : Carries bytes messages) : ∀ m ∈ messages, m.Rewritable := by
  induction h with
  | short => exact List.forall_mem_nil _
  | unfinished => exact List.forall_mem_nil _
  | record _ _ readable _ ih =>
      exact List.forall_mem_cons.mpr ⟨(rewritable_of_read readable).1, ih⟩
  | damaged _ _ _ _ ih => exact ih
  | garbage _ _ _ ih => exact ih

/-- **What a stream carries has room in the stream** when it is written again. -/
theorem totalSize_le (h : Carries bytes messages) : totalSize messages ≤ bytes.length := by
  induction h with
  | short => exact Nat.zero_le _
  | unfinished => exact Nat.zero_le _
  | record _ complete readable _ ih =>
      have hrecord := (recordSize_le_of_read readable).1
      rw [List.length_take_of_le complete] at hrecord
      rw [List.length_drop] at ih
      rw [totalSize_cons]
      omega
  | @damaged bytes header _ _ _ complete _ _ ih =>
      -- Part of the record is read once more, but never its first byte.
      have hpassed := (suffix_getD_fromMagic? ((bytes.take header.recordSize).drop 1)).length_le
      rw [List.length_drop, List.length_take_of_le complete] at hpassed
      rw [List.length_append, List.length_drop] at ih
      omega
  | @garbage bytes _ _ _ _ _ ih =>
      have hpassed := (suffix_getD_fromMagic? (bytes.drop 1)).length_le
      rw [List.length_drop] at hpassed
      omega

end Carries

end Record

theorem Recorded.length_eq {messages : List Message} {bytes : List UInt8}
    (h : Recorded messages bytes) : bytes.length = Record.totalSize messages := by
  induction h with
  | nil => rfl
  | @cons m messages record bytes readable written _ ih =>
      obtain ⟨hsize, -⟩ := Record.toRecordAs_eq_ok_iff.mp written
      rw [List.length_append, ih, Record.totalSize_cons,
        Record.length_record readable.properties_made m.properties.canonicalOrder_perm written,
        RecordHeader.recordSize, Record.toNat_bodyLength hsize]

/-! ### Logs -/

namespace MessageLog

open Record

variable {s : MessageLog} {loaded : List Message}

/-- What is loaded are the messages that the log carries and does not hide. -/
theorem carries_of_load (h : s.load = .ok loaded) :
    ∃ messages, Carries s.log messages ∧ loaded = s.unhidden messages := by
  rw [load] at h
  cases hmessages : ofMessages s.log with
  | error e =>
      rw [hmessages] at h
      cases h
  | ok messages =>
      rw [hmessages] at h
      cases h
      exact ⟨messages, ofMessages_eq_ok_iff.mp hmessages, rfl⟩

theorem rewritable_of_load (h : s.load = .ok loaded) : ∀ m ∈ loaded, m.Rewritable := by
  obtain ⟨messages, hcarries, rfl⟩ := carries_of_load h
  exact fun m hm => hcarries.rewritable m (mem_unhidden.mp hm).1

theorem totalSize_le_of_load (h : s.load = .ok loaded) : totalSize loaded ≤ s.log.length := by
  obtain ⟨messages, hcarries, rfl⟩ := carries_of_load h
  exact Nat.le_trans (totalSize_filter_le ..) hcarries.totalSize_le

/-- **A log that can be loaded can be compacted.** It then holds what was loaded, and hides
nothing. -/
theorem exists_compact (h : s.load = .ok loaded) :
    ∃ s', s.compact = .ok s' ∧ s'.Holds loaded ∧ s'.removed = [] := by
  have hwritten : ∀ m ∈ loaded, m.Readable ∧ ∃ record, m.toRecord = .ok record := by
    intro m hm
    have hrewritable := rewritable_of_load h m hm
    obtain ⟨record, hrecord, -⟩ := hrewritable.rewrite m.properties.canonicalOrder_perm
    exact ⟨hrewritable.readable, record, hrecord⟩
  obtain ⟨s', hs', hholds, hremoved⟩ := Holds.empty.appendAll hwritten
  refine ⟨s', ?_, hholds, hremoved⟩
  rw [compact, h]
  exact hs'

/-- Compaction keeps the messages that are not hidden. -/
theorem Holds.compact {messages : List Message} (h : s.Holds messages) :
    ∃ s', s.compact = .ok s' ∧ s'.Holds ((s.unhidden messages).map Message.asRead) ∧
      s'.removed = [] :=
  exists_compact h.load_eq

/-- What is seen of a log that was compacted. -/
structure Compacted (before after : MessageLog) (loaded : List Message) : Prop where
  load_eq : after.load = .ok loaded
  records_eq : after.records = loaded.length
  length_le : after.log.length ≤ before.log.length
  removed_eq : after.removed = []

/-- **Compaction is not seen in what is loaded.** -/
theorem compact_of_load (h : s.load = .ok loaded) :
    ∃ s', s.compact = .ok s' ∧ Compacted s s' loaded ∧
      ∃ s'', s'.compact = .ok s'' ∧ s''.load = s'.load ∧ s''.records = s'.records ∧
        s''.log.length = s'.log.length := by
  obtain ⟨s', hs', hholds, hremoved⟩ := exists_compact h
  have hunhidden : s'.unhidden loaded = loaded := by
    rw [unhidden, hremoved]
    exact List.filter_eq_self.mpr fun _ _ => rfl
  have hasRead : loaded.map Message.asRead = loaded :=
    (List.map_congr_left fun m hm => (rewritable_of_load h m hm).asRead_eq).trans (List.map_id _)
  have hload : s'.load = .ok loaded := by rw [hholds.load_eq, hunhidden, hasRead]
  have hlength : s'.log.length = totalSize loaded := hholds.recorded.length_eq
  have hsame : s'.compact = .ok s' := by rw [compact, hload, ← hs', compact, h]
  refine ⟨s', hs', ⟨hload, hholds.records_eq, ?_, hremoved⟩, s', hsame, rfl, rfl, rfl⟩
  rw [hlength]
  exact totalSize_le_of_load h

/-- A second parcel. -/
def gift : Message :=
  { parcel with id := ⟨2⟩ }

/-- A parcel is stored twice, and the gift that is stored behind it is removed. -/
theorem compact_of_load_gift :
    ∃ s, ([parcel, parcel, gift].foldlM append {}).map (·.remove gift.id) = .ok s ∧
      s.load = .ok [parcel.asRead, parcel.asRead] ∧
      ∃ s', s.compact = .ok s' ∧ Compacted s s' [parcel.asRead, parcel.asRead] ∧
        ∃ s'', s'.compact = .ok s'' ∧ s''.load = s'.load ∧ s''.records = s'.records ∧
          s''.log.length = s'.log.length := by
  have hgift : ∃ record, gift.toRecord = .ok record :=
    ⟨_, toRecordAs_eq_ok_iff.mpr ⟨by decide, rfl⟩⟩
  have hwritten : ∀ m ∈ [parcel, parcel, gift], m.Readable ∧ ∃ record, m.toRecord = .ok record := by
    simp only [List.forall_mem_cons]
    exact ⟨⟨⟨by decide, .new⟩, _, toRecord_parcel⟩, ⟨⟨by decide, .new⟩, _, toRecord_parcel⟩,
      ⟨⟨by decide, .new⟩, hgift⟩, List.forall_mem_nil _⟩
  obtain ⟨s, hs, hholds, hremoved⟩ := Holds.empty.appendAll hwritten
  have hunhidden : (s.remove gift.id).unhidden [parcel, parcel, gift] = [parcel, parcel] := by
    have hgone : (s.remove gift.id).removed = [gift.id] := by simp [remove, hremoved]
    rw [unhidden, hgone]
    decide
  have hload := (hholds.remove gift.id).load_eq
  rw [List.nil_append, hunhidden] at hload
  refine ⟨s.remove gift.id, ?_, hload, compact_of_load hload⟩
  rw [hs]
  rfl

end MessageLog

end Courier
