import Courier.Proofs.Record
import Courier.Proofs.Record.Sizes

/-!
# Writing Again What Was Read

A message that is read from some bytes can be written, in whatever form it stood there. Bytes may be
read in which a key comes twice, a truth value is not plain, or the reserved bytes of the header
are not zero; none of this is left when the message is written again. The new record has at most as
many bytes as the old one, and the same message is read from it.

## Main definitions

* `Message.Rewritable`: a message can be written, and is read back as it is.

## Main results

* `Record.rewritable_of_read`: a message that was read can be written again.
* `Record.rewrite_of_read`: what becomes of its record.
-/

namespace Courier

open Reader

/-- What was read can be made by the operations on containers. -/
theorem Properties.made_of_decode {q : Properties} {bytes rest : List UInt8}
    (h : decode bytes = (.ok q, rest)) : q.Made := by
  have hread := Made.new.read bytes
  rw [replaceFrom, h] at hread
  simpa using hread

theorem Properties.asRead_of_decode {q : Properties} {bytes rest : List UInt8}
    (h : decode bytes = (.ok q, rest)) : q.asRead = q := by
  obtain ⟨_, -, s, -, -, rfl⟩ := finds_decode h
  exact s.asRead_container

namespace Message

open Record

/-- The message can be written, and is read back as it is. -/
structure Rewritable (m : Message) : Prop where
  readable : m.Readable
  asRead_eq : m.asRead = m
  size_le : m.recordBodySize ≤ maxBodySize

theorem Rewritable.timesWhole {m : Message} (h : m.Rewritable) : m.TimesWhole :=
  h.asRead_eq ▸ m.timesWhole_asRead

theorem Rewritable.rewrite {m : Message} (h : m.Rewritable)
    {order : List (String × PropertyValue)} (horder : order.Perm m.properties.toList) :
    ∃ record, m.toRecordAs order = .ok record ∧
      record.length = headerSize + m.recordBodySize ∧
      ∀ rest, read (record ++ rest) = .ok m := by
  obtain ⟨record, hrecord⟩ : ∃ record, m.toRecordAs order = .ok record :=
    ⟨_, toRecordAs_eq_ok_iff.mpr ⟨h.size_le, rfl⟩⟩
  refine ⟨record, hrecord, ?_, fun rest => ?_⟩
  · rw [length_record h.readable.properties_made horder hrecord, RecordHeader.recordSize,
      toNat_bodyLength h.size_le]
  · rw [read_append h.readable horder hrecord rest, h.asRead_eq]

end Message

namespace Record

theorem readable_of_getBody {flags : UInt8} {bytes rest : List UInt8} {m : Message}
    (h : getBody flags bytes = (.ok m, rest)) : m.Readable := by
  obtain ⟨hpriority, -, _, _, hproperties⟩ := Message.fields_of_getBody h
  exact ⟨hpriority, Properties.made_of_decode hproperties⟩

theorem asRead_of_getBody {flags : UInt8} {bytes rest : List UInt8} {m : Message}
    (h : getBody flags bytes = (.ok m, rest)) : m.asRead = m := by
  obtain ⟨-, hwhole, _, _, hproperties⟩ := Message.fields_of_getBody h
  exact hwhole.asRead_eq (Properties.asRead_of_decode hproperties)

/-- A message that was read can be written again, and is then not larger than it was. -/
theorem rewritable_of_read {bytes : List UInt8} {m : Message} (h : read bytes = .ok m) :
    m.Rewritable ∧
      ∃ header, Sealed bytes header ∧ headerSize + m.recordBodySize ≤ header.recordSize := by
  obtain ⟨header, hsealed, hbody⟩ := sealed_of_read h
  have hstands := RecordHeader.peek_eq_some_iff.mp hsealed.peeked
  have hsize := recordBodySize_le_of_body hbody
  refine ⟨⟨readable_of_getBody hbody, asRead_of_getBody hbody, ?_⟩, header, hsealed, ?_⟩
  · exact Nat.le_trans hsize hstands.bodyLength_le
  · exact Nat.add_le_add_left hsize headerSize

/-- **What was read can be written again**, with its properties in any order. The record is not
longer than the one that was read, and the same message is read from it. -/
theorem rewrite_of_read {bytes : List UInt8} {m : Message} (h : read bytes = .ok m)
    {order : List (String × PropertyValue)} (horder : order.Perm m.properties.toList) :
    ∃ header record, RecordHeader.peek bytes = .ok (some header) ∧
      header.recordSize ≤ bytes.length ∧ m.toRecordAs order = .ok record ∧
      record.length ≤ header.recordSize ∧ ∀ rest, read (record ++ rest) = .ok m := by
  obtain ⟨hrewritable, header, hsealed, hsize⟩ := rewritable_of_read h
  obtain ⟨record, hrecord, hlength, hread⟩ := hrewritable.rewrite horder
  exact ⟨header, record, hsealed.peeked, hsealed.complete, hrecord, hlength ▸ hsize, hread⟩

/-- A body in which a key comes twice and a truth value is not plain. -/
def unkemptBody : List UInt8 :=
  Wire.bigEndian 16 7 ++ Wire.putText "a" ++ [4] ++ Wire.bigEndian 8 0 ++ Properties.restated ++
    Wire.putBytes [9]

/-- The record of that body, with reserved bytes that are not zero. -/
def unkempt : List UInt8 :=
  withChecksum (magic ++ [version, durableFlag, 0xbe, 0xef, 0, 0, 0, 71]) unkemptBody

/-- The message in it. -/
def kempt : Message where
  id := ⟨7⟩
  address := ⟨"a", by decide⟩
  body := [9]
  durable := true
  timestamp := .epoch
  properties := .ofList [("p", .boolean true), ("q", .int 5)]

theorem read_unkempt : read unkempt = .ok kempt := by
  have hpeek : RecordHeader.peek (unkempt ++ []) = .ok (some (.standing (unkempt ++ []))) :=
    RecordHeader.peek_eq_some_iff.mpr ⟨by decide +kernel, rfl, rfl, by decide +kernel, rfl⟩
  obtain ⟨hsealed, hbody⟩ := sealed_withChecksum rfl hpeek (by decide +kernel)
  have hflags : (RecordHeader.standing (unkempt ++ [])).flags = durableFlag := by decide +kernel
  have hfields : getBody durableFlag unkemptBody = (.ok kempt, []) := by decide +kernel
  have hread := hsealed.read_eq
  rwa [hbody, hflags, hfields, List.append_nil] at hread

/-- The record becomes shorter by the entry that is not kept. -/
theorem rewrite_of_read_unkempt :
    read unkempt = .ok kempt ∧ kempt.properties.toList.reverse.Perm kempt.properties.toList ∧
      ∃ header record, RecordHeader.peek unkempt = .ok (some header) ∧
        header.recordSize ≤ unkempt.length ∧
        kempt.toRecordAs kempt.properties.toList.reverse = .ok record ∧
        record.length ≤ header.recordSize ∧ ∀ rest, read (record ++ rest) = .ok kempt := by
  have horder : kempt.properties.toList.reverse.Perm kempt.properties.toList :=
    List.reverse_perm _
  exact ⟨read_unkempt, horder, rewrite_of_read read_unkempt horder⟩

end Record

end Courier
