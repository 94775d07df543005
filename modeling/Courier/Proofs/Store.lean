import Courier.Store
import Courier.Proofs.Record.Contents

/-!
# What a Log Holds

A log in memory is a sequence of records, with notes of the identifiers that were removed. It is
seen here as the list of the messages whose records are in it; the notes hide some of them.

## Main results

* `MessageLog.Holds`: the messages whose records are in a log.
* `MessageStore.Backed`: a store that is a log and may refuse messages besides.
* `MessageLog.Holds.load_eq`: what a log loads.
* `MessageLog.Holds.append`, `MessageLog.Holds.remove`: what the operations on a log do to them.
-/

namespace Courier

namespace Message

/-- A message that was read back can be written and read back again. -/
theorem Readable.asRead {m : Message} {record : List UInt8} (h : m.Readable)
    (hw : m.toRecord = .ok record) : m.asRead.Readable := by
  refine ⟨h.priority_le, ?_⟩
  obtain ⟨hsize, -⟩ := Record.toRecordAs_eq_ok_iff.mp hw
  have hfits : Wire.FitsPrefix m.properties.encodeSize := by
    rw [Message.recordBodySize, Record.maxBodySize] at hsize
    rw [Wire.FitsPrefix]
    omega
  exact h.properties_made.asRead hfits

end Message

namespace MessageLog

/-- The messages whose records are in a log, removed or not. -/
structure Holds (s : MessageLog) (messages : List Message) : Prop where
  recorded : Recorded messages s.log
  records_eq : s.records = messages.length

/-- The messages that a log does not hide. -/
def unhidden (s : MessageLog) (messages : List Message) : List Message :=
  messages.filter fun m => !s.removed.contains m.id

namespace Holds

variable {s : MessageLog} {messages : List Message}

theorem empty : Holds {} [] := ⟨.nil, rfl⟩

/-- A log loads the messages of its records, less the removed ones. -/
theorem load_eq (h : s.Holds messages) :
    s.load = .ok ((s.unhidden messages).map Message.asRead) := by
  rw [load, StreamReader.ofMessages_recorded h.recorded]
  exact congrArg Except.ok List.filter_map

theorem append (h : s.Holds messages) {m : Message} {record : List UInt8} (hm : m.Readable)
    (hw : m.toRecord = .ok record) :
    ∃ s', s.append m = .ok s' ∧ s'.Holds (messages ++ [m]) ∧ s'.removed = s.removed := by
  refine ⟨{ s with log := s.log ++ record, records := s.records + 1 }, ?_, ⟨?_, ?_⟩, rfl⟩
  · rw [MessageLog.append, hw]
    rfl
  · exact h.recorded.append hm hw
  · simp [h.records_eq]

theorem remove (h : s.Holds messages) (id : MessageId) : (s.remove id).Holds messages := by
  rw [MessageLog.remove]
  split
  · exact h
  · exact ⟨h.recorded, h.records_eq⟩

/-- Messages that can be written are appended one after another. -/
theorem appendAll (h : s.Holds messages) {added : List Message}
    (hadded : ∀ m ∈ added, m.Readable ∧ ∃ record, m.toRecord = .ok record) :
    ∃ s', added.foldlM MessageLog.append s = .ok s' ∧ s'.Holds (messages ++ added) ∧
      s'.removed = s.removed := by
  induction added generalizing s messages with
  | nil => exact ⟨s, rfl, by rwa [List.append_nil], rfl⟩
  | cons m added ih =>
      obtain ⟨hm, record, hw⟩ := hadded m (.head _)
      obtain ⟨s₁, happend, hholds, hremoved⟩ := h.append hm hw
      obtain ⟨s', hrest, hall, hsame⟩ := ih hholds fun m hm => hadded m (.tail _ hm)
      refine ⟨s', ?_, ?_, hsame.trans hremoved⟩
      · rw [List.foldlM_cons, happend]
        exact hrest
      · rwa [List.append_assoc] at hall

end Holds

theorem mem_removed_remove (s : MessageLog) (id other : MessageId) :
    other ∈ (s.remove id).removed ↔ other = id ∨ other ∈ s.removed := by
  rw [remove]
  split
  · next h =>
      rw [List.contains_iff_mem] at h
      refine ⟨.inr, ?_⟩
      rintro (rfl | hother)
      · exact h
      · exact hother
  · rw [List.mem_cons]

theorem mem_unhidden {s : MessageLog} {messages : List Message} {m : Message} :
    m ∈ s.unhidden messages ↔ m ∈ messages ∧ m.id ∉ s.removed := by
  simp [unhidden]

end MessageLog

/-- A store that is a log in memory, except that it may refuse any message for reasons of its
own. -/
structure MessageStore.Backed {σ : Type} [MessageStore σ] (log : σ → MessageLog) : Prop where
  append : ∀ s m,
    (∃ reason, (MessageStore.append s m).1 = .error reason ∧
      log (MessageStore.append s m).2 = log s) ∨
    ((MessageStore.append s m).1 = .ok () ∧
      (log s).append m = .ok (log (MessageStore.append s m).2))
  remove : ∀ s id, (MessageStore.remove s id).1 = .ok () ∧
    log (MessageStore.remove s id).2 = (log s).remove id
  load : ∀ s, MessageStore.load s = (log s).load.mapError WireError.message

theorem MessageLog.backed : MessageStore.Backed (σ := MessageLog) id where
  append s m := by
    simp only [MessageStore.append, id]
    cases s.append m with
    | ok s' => exact .inr ⟨rfl, rfl⟩
    | error e => exact .inl ⟨_, rfl, rfl⟩
  remove _ _ := ⟨rfl, rfl⟩
  load _ := rfl

end Courier
