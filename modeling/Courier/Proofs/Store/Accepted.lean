import Courier.Proofs.Record.Cuts
import Courier.Proofs.Store.History

/-!
# What a Log Accepts and Gives Back

A log accepts every message that is not too large. What it gives back are the messages of the
records that can be read. The two differ in the priority: a message whose priority was set above
the greatest one is written and cannot be read. They differ in the times, too, of which records
tell whole milliseconds only.

The record of such a message is passed over up to the next magic bytes, and these may stand in its
own body. What follows there is read like a record: it may be taken for a message, and it may keep
the other messages of the log from being read.

## Main results

* `Record.Carries.priority_le`, `Record.Carries.timesWhole`: no stream carries a message whose
  priority is too great or whose times are not whole milliseconds.
* `MessageLog.log_of_foldlM_append`: the records in a log.
* `MessageLog.load_of_appended`: when a log gives back what it accepted.
* `MessageLog.load_of_appended_fails`: messages that are accepted and not given back.
-/

namespace Courier

open StreamReader

namespace Message

/-- The record of the message has magic bytes only at its front. -/
def MagicOnce (m : Message) : Prop :=
  ∀ record, m.toRecord = .ok record → fromMagic? (record.drop 1) = none

/-- Messages with the same content have the same priority and the same times. -/
theorem settings_eq_of_sameContent {l m : Message} (h : l.sameContent m) :
    l.priority = m.priority ∧ l.timestamp = m.timestamp ∧ l.expiration = m.expiration := by
  rw [sameContent, Bool.and_eq_true, decide_eq_true_iff] at h
  have hpriority := congrArg priority h.1
  have htimestamp := congrArg timestamp h.1
  have hexpiration := congrArg expiration h.1
  exact ⟨hpriority, htimestamp, hexpiration⟩

end Message

namespace Record

/-- **No stream carries a message whose priority is too great.** -/
theorem Carries.priority_le {bytes : List UInt8} {messages : List Message}
    (h : Carries bytes messages) {m : Message} (hm : m ∈ messages) : m.priority ≤ maxPriority :=
  (h.rewritable m hm).readable.priority_le

/-- **No stream carries a message whose times are not whole milliseconds.** -/
theorem Carries.timesWhole {bytes : List UInt8} {messages : List Message}
    (h : Carries bytes messages) {m : Message} (hm : m ∈ messages) : m.TimesWhole :=
  (h.rewritable m hm).timesWhole

/-- The record of a message with a priority that is too great is passed over, up to magic bytes
within it. -/
theorem carries_iff_of_priority {m : Message} {record bytes : List UInt8} {messages : List Message}
    (hmade : m.properties.Made) (hwritten : m.toRecord = .ok record)
    (hpriority : maxPriority < m.priority) :
    Carries (record ++ bytes) messages ↔
      Carries ((fromMagic? (record.drop 1)).getD [] ++ bytes) messages := by
  have horder := m.properties.canonicalOrder_perm
  have hlength := length_record hmade horder hwritten
  have hread := read_append_of_priority hmade horder hwritten hpriority []
  rw [List.append_nil] at hread
  have htake : (record ++ bytes).take _ = record := List.take_left' hlength
  have hdrop : (record ++ bytes).drop _ = bytes := List.drop_left' hlength
  rw [carries_iff_of_unreadable (peek_append hwritten bytes)
    (by rw [List.length_append]; omega) (by rw [htake]; exact hread), htake, hdrop]

end Record

namespace MessageLog

open Record

/-- The log of accepted messages consists of their records. -/
theorem log_of_foldlM_append {s s' : MessageLog} {messages : List Message}
    (h : messages.foldlM append s = .ok s') :
    ∃ records, List.Forall₂ (fun m record => m.toRecord = .ok record) messages records ∧
      s'.log = s.log ++ records.flatten ∧ s'.removed = s.removed := by
  induction messages generalizing s with
  | nil =>
      cases h
      exact ⟨[], .nil, (List.append_nil _).symm, rfl⟩
  | cons m messages ih =>
      rw [List.foldlM_cons, append] at h
      cases hwritten : m.toRecord with
      | error e =>
          rw [hwritten] at h
          cases h
      | ok record =>
          rw [hwritten] at h
          obtain ⟨records, hrecords, hlog, hremoved⟩ := ih h
          refine ⟨record :: records, .cons hwritten hrecords, ?_, hremoved⟩
          rw [hlog, List.flatten_cons, List.append_assoc]

/-- What can be written is accepted. -/
theorem foldlM_append_of_written (s : MessageLog) {messages : List Message}
    {records : List (List UInt8)}
    (h : List.Forall₂ (fun m record => m.toRecord = .ok record) messages records) :
    messages.foldlM append s = .ok
      { s with log := s.log ++ records.flatten, records := s.records + records.length } := by
  induction h generalizing s with
  | nil => simp [pure, Except.pure]
  | @cons m record messages records hwritten _ ih =>
      rw [List.foldlM_cons, append, hwritten]
      refine (ih _).trans ?_
      simp [Nat.add_comm, Nat.add_left_comm]

/-- Messages are in range if messages with the same content are. -/
theorem inRange_of_sameContent {loaded messages : List Message}
    (h : List.Forall₂ (fun l m => l.sameContent m) loaded messages)
    (hloaded : ∀ l ∈ loaded, l.priority ≤ maxPriority ∧ l.TimesWhole) :
    ∀ m ∈ messages, m.priority ≤ maxPriority ∧ m.TimesWhole := by
  induction h with
  | nil => exact hloaded
  | @cons l m loaded messages hsame _ ih =>
      rw [List.forall_mem_cons] at hloaded ⊢
      obtain ⟨⟨hle, hwhole⟩, hrest⟩ := hloaded
      obtain ⟨hpriority, htimestamp, hexpiration⟩ := Message.settings_eq_of_sameContent hsame
      exact ⟨⟨hpriority ▸ hle, htimestamp ▸ hwhole.timestamp, hexpiration ▸ hwhole.expiration⟩,
        ih hrest⟩

theorem load_eq_ok_iff {s : MessageLog} {messages : List Message} (h : s.removed = []) :
    s.load = .ok messages ↔ Carries s.log messages := by
  rw [← ofMessages_eq_ok_iff, load, h]
  cases ofMessages s.log with
  | ok found => simp [Except.map]
  | error e => simp [Except.map]

theorem load_eq_error_of_not_carries {s : MessageLog} (h : s.removed = [])
    (hcarries : ∀ messages, ¬Carries s.log messages) : ∃ e, s.load = .error e := by
  cases hload : s.load with
  | ok messages => exact absurd ((load_eq_ok_iff h).mp hload) (hcarries messages)
  | error e => exact ⟨e, rfl⟩

/-- Records whose messages are in range, or have no magic bytes in their bodies, carry the
messages that are in range. -/
theorem carries_of_written {messages : List Message} {records : List (List UInt8)}
    (hmade : ∀ m ∈ messages, m.properties.Made)
    (hwritten : List.Forall₂ (fun m record => m.toRecord = .ok record) messages records)
    (honce : ∀ m ∈ messages, maxPriority < m.priority → m.MagicOnce) :
    Carries records.flatten
      ((messages.filter fun m => m.priority ≤ maxPriority).map Message.asRead) := by
  induction hwritten with
  | nil => exact .short (by decide)
  | @cons m record messages records hrecord _ ih =>
      have hrest := ih (fun n hn => hmade n (.tail _ hn)) fun n hn => honce n (.tail _ hn)
      rw [List.flatten_cons]
      by_cases hle : m.priority ≤ maxPriority
      · have hin : decide (m.priority ≤ maxPriority) = true := decide_eq_true hle
        rw [List.filter_cons, if_pos hin]
        exact (Block.intact ⟨hle, hmade m (.head _)⟩ m.properties.canonicalOrder_perm
          hrecord).carries hrest
      · have hlt := UInt8.not_le.mp hle
        have hout : ¬decide (m.priority ≤ maxPriority) = true := fun hin =>
          hle (of_decide_eq_true hin)
        rw [List.filter_cons, if_neg hout, carries_iff_of_priority (hmade m (.head _)) hrecord hlt,
          honce m (.head _) hlt _ hrecord]
        exact hrest

/-- **What a log gives back of what it accepted.** It gives back all of the messages, with the same
content and in the same order, exactly if no priority is too great and all times are whole
milliseconds. If some priorities are too great, and the records of these messages have magic bytes
only at their fronts, it gives back the other messages, their times in whole milliseconds. -/
theorem load_of_appended {messages : List Message} {s : MessageLog}
    (hmade : ∀ m ∈ messages, m.properties.Made)
    (haccepted : messages.foldlM append {} = .ok s) :
    ((∃ loaded, s.load = .ok loaded ∧ List.Forall₂ (fun l m => l.sameContent m) loaded messages) ↔
      ∀ m ∈ messages, m.priority ≤ maxPriority ∧ m.TimesWhole) ∧
    ((∀ m ∈ messages, maxPriority < m.priority → m.MagicOnce) →
      s.load = .ok ((messages.filter fun m => m.priority ≤ maxPriority).map Message.asRead)) := by
  obtain ⟨records, hwritten, hlog, hremoved⟩ := log_of_foldlM_append haccepted
  rw [List.nil_append] at hlog
  have hothers : (∀ m ∈ messages, maxPriority < m.priority → m.MagicOnce) →
      s.load = .ok ((messages.filter fun m => m.priority ≤ maxPriority).map Message.asRead) := by
    intro honce
    rw [load_eq_ok_iff hremoved, hlog]
    exact carries_of_written hmade hwritten honce
  refine ⟨⟨?_, fun hall => ?_⟩, hothers⟩
  · rintro ⟨loaded, hload, hsame⟩
    have hcarries := (load_eq_ok_iff hremoved).mp hload
    exact inRange_of_sameContent hsame fun l hl =>
      ⟨hcarries.priority_le hl, hcarries.timesWhole hl⟩
  · have hload := hothers fun m hm hlt => absurd (hall m hm).1 (UInt8.not_le.mpr hlt)
    rw [List.filter_eq_self.mpr fun m hm => decide_eq_true (hall m hm).1] at hload
    exact ⟨_, hload, forall₂_asRead fun m hm => (hall m hm).2⟩

/-- A parcel whose priority is too great. -/
def urgent : Message :=
  { parcel with id := ⟨2⟩, priority := 10 }

theorem toRecord_urgent : ∃ record, urgent.toRecord = .ok record ∧
    fromMagic? (record.drop 1) = none :=
  ⟨_, toRecordAs_eq_ok_iff.mpr ⟨by decide, rfl⟩, by decide +kernel⟩

/-- A parcel and one whose priority is too great are accepted; the parcel is given back. -/
theorem load_of_appended_urgent :
    (∀ m ∈ [parcel, urgent], m.properties.Made) ∧
      (∀ m ∈ [parcel, urgent], maxPriority < m.priority → m.MagicOnce) ∧
      ∃ s, [parcel, urgent].foldlM append {} = .ok s ∧ s.load = .ok [parcel.asRead] := by
  obtain ⟨record, hrecord, hmagic⟩ := toRecord_urgent
  have hmade : ∀ m ∈ [parcel, urgent], m.properties.Made := by
    simpa using ⟨Properties.Made.new, Properties.Made.new⟩
  have honce : ∀ m ∈ [parcel, urgent], maxPriority < m.priority → m.MagicOnce := by
    intro m hm hlt
    rcases List.mem_pair.mp hm with rfl | rfl
    · exact absurd hlt (by decide)
    · intro written hwritten
      rw [hrecord] at hwritten
      cases hwritten
      exact hmagic
  have haccepted := foldlM_append_of_written {}
    (.cons toRecord_parcel (.cons hrecord .nil) : List.Forall₂ _ [parcel, urgent] _)
  exact ⟨hmade, honce, _, haccepted, (load_of_appended hmade haccepted).2 honce⟩

/-- A parcel whose priority is too great and whose body looks like the header of a record in
another version. -/
def stowaway : Message :=
  { parcel with id := ⟨3⟩, priority := 10, body := magic ++ [2] ++ List.replicate 15 0 }

set_option maxRecDepth 8192 in
theorem toRecord_stowaway : ∃ record, stowaway.toRecord = .ok record ∧
    fromMagic? (record.drop 1) = some stowaway.body :=
  ⟨_, toRecordAs_eq_ok_iff.mpr ⟨by decide, rfl⟩, by decide +kernel⟩

/-- An accepted parcel whose priority is too great is not given back, and one with such a body
keeps another parcel from being given back. -/
theorem load_of_appended_fails :
    (∃ s, [urgent].foldlM append {} = .ok s ∧ s.load = .ok []) ∧
      ∃ s, [stowaway, parcel].foldlM append {} = .ok s ∧ ∃ e, s.load = .error e := by
  constructor
  · obtain ⟨record, hrecord, hmagic⟩ := toRecord_urgent
    refine ⟨_, foldlM_append_of_written {} (.cons hrecord .nil), (load_eq_ok_iff rfl).mpr ?_⟩
    rw [List.nil_append, List.flatten_cons, carries_iff_of_priority .new hrecord (by decide),
      hmagic]
    exact .short (by decide)
  · obtain ⟨record, hrecord, hmagic⟩ := toRecord_stowaway
    refine ⟨_, foldlM_append_of_written {} (.cons hrecord (.cons toRecord_parcel .nil)),
      load_eq_error_of_not_carries rfl fun messages => ?_⟩
    rw [List.nil_append, List.flatten_cons, carries_iff_of_priority .new hrecord (by decide),
      hmagic]
    have hpeek : RecordHeader.peek stowaway.body = .error (.unsupportedVersion 2 version) := by
      decide +kernel
    refine not_carries_of_foreign (e := .unsupportedVersion 2 version) ?_ (by decide)
    rw [Option.getD_some, RecordHeader.peek_append (by decide), hpeek]

end MessageLog

end Courier
