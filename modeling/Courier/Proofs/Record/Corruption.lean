import Courier.Proofs.Record
import Courier.Proofs.Record.Checksum

/-!
# Records with a Changed Byte

A record in which a single byte was changed is not read, unless the byte belongs to the length of
the body. Changed magic bytes and versions are told as such. Every other byte is covered by the
checksum, or is part of it: the checksum that is computed is then no longer the stated one.

## Main results

* `Record.Sealed.read_set_checksum`: a byte that is covered by the checksum, or part of it.
* `Record.read_toRecordAs_set`: what was written for a message.
-/

namespace Courier

namespace RecordHeader

open Wire

/-- A byte behind the version, and not in the length of the body, leaves a header behind. -/
theorem Stands.set {bytes : List UInt8} {header : RecordHeader} (h : Stands bytes header)
    {offset : Nat} (hversion : 4 < offset) (hlength : offset < 8 ∨ 12 ≤ offset) (b : UInt8) :
    (standing (bytes.set offset b)).bodyLength = header.bodyLength ∧
      Stands (bytes.set offset b) (standing (bytes.set offset b)) := by
  have hbody : (standing (bytes.set offset b)).bodyLength = header.bodyLength := by
    rw [h.header_eq]
    exact congrArg UInt32.ofNat (numberAt_set_of_outside hlength b)
  refine ⟨hbody, ?_, ?_, ?_, ?_, rfl⟩
  · rw [List.length_set]
    exact h.headerSize_le
  · rw [List.take_set_of_le (by omega), h.magic_eq]
  · rw [numberAt_set_of_outside (.inr hversion), h.version_eq]
  · rw [hbody]
    exact h.bodyLength_le

end RecordHeader

namespace Record

open RecordHeader

section Changed

variable {bytes : List UInt8} {header header' : RecordHeader} {offset : Nat} {b : UInt8}

/-- A byte of the checksum itself changes what is stated. -/
theorem checksum_standing_set (hoffset : 12 ≤ offset ∧ offset < 16)
    (hlength : offset < bytes.length) (hb : bytes[offset] ≠ b) :
    (standing (bytes.set offset b)).checksum ≠ (standing bytes).checksum := by
  intro h
  have hnumber : ∀ bytes : List UInt8,
      (standing bytes).checksum.toNat = Wire.numberAt bytes 12 4 := fun bytes =>
    UInt32.toNat_ofNat_of_lt' (Wire.numberAt_lt bytes 12 4)
  have hsame := congrArg UInt32.toNat h
  rw [hnumber, hnumber] at hsame
  exact Wire.numberAt_set_of_inside hoffset hlength hb hsame

/-- A byte of the checksum itself is not covered. -/
theorem covered_set_of_checksum (hsame : header'.bodyLength = header.bodyLength)
    (hoffset : 12 ≤ offset ∧ offset < 16) :
    covered (bytes.set offset b) header' = covered bytes header := by
  rw [covered, covered, bodyAt, bodyAt, hsame, List.take_set_of_le hoffset.1,
    List.drop_set_of_lt (by rw [headerSize]; exact hoffset.2)]

/-- The bytes in front of the checksum are covered. -/
theorem ofBytes_covered_set_front (hsame : header'.bodyLength = header.bodyLength)
    (hoffset : offset < 12) (hlength : offset < bytes.length) (hb : bytes[offset] ≠ b) :
    Checksum.ofBytes (covered (bytes.set offset b) header') ≠
      Checksum.ofBytes (covered bytes header) := by
  have hfront : offset < (bytes.take 12).length := by
    rw [List.length_take]
    omega
  have hcovered : covered (bytes.set offset b) header' =
      [] ++ (bytes.take 12).set offset b ++ bodyAt bytes header := by
    rw [covered, bodyAt, bodyAt, hsame, List.take_set,
      List.drop_set_of_lt (by rw [headerSize]; omega)]
    rfl
  have hget : (bytes.take 12)[offset] = bytes[offset] := List.getElem_take
  rw [hcovered]
  exact fun h => hb (((Checksum.ofBytes_set_eq_iff [] _ hfront b).mp h).trans hget).symm

/-- The body is covered. -/
theorem ofBytes_covered_set_body (hsame : header'.bodyLength = header.bodyLength)
    (hoffset : headerSize ≤ offset) (hend : offset < header.recordSize)
    (hlength : offset < bytes.length) (hb : bytes[offset] ≠ b) :
    Checksum.ofBytes (covered (bytes.set offset b) header') ≠
      Checksum.ofBytes (covered bytes header) := by
  rw [RecordHeader.recordSize] at hend
  have hbody : offset - headerSize < (bodyAt bytes header).length := by
    rw [bodyAt, List.length_take, List.length_drop]
    omega
  have hcovered : covered (bytes.set offset b) header' =
      bytes.take 12 ++ (bodyAt bytes header).set (offset - headerSize) b ++ [] := by
    have htwelve : 12 ≤ offset := Nat.le_trans (by decide) hoffset
    rw [covered, bodyAt, bodyAt, hsame, List.take_set_of_le htwelve, List.drop_set,
      if_neg (Nat.not_lt_of_le hoffset), List.take_set, List.append_nil]
  have hget : (bodyAt bytes header)[offset - headerSize] = bytes[offset] := by
    simp only [bodyAt, List.getElem_take, List.getElem_drop, Nat.add_sub_of_le hoffset]
  have hself : covered bytes header = bytes.take 12 ++ bodyAt bytes header ++ [] :=
    (List.append_nil _).symm
  rw [hcovered, hself]
  exact fun h => hb (((Checksum.ofBytes_set_eq_iff _ [] hbody b).mp h).trans hget).symm

end Changed

namespace Sealed

variable {bytes : List UInt8} {header : RecordHeader} {offset : Nat} {b : UInt8}

theorem read_set_magic (h : Sealed bytes header) (hoffset : offset < 4)
    (hlength : offset < bytes.length) (hb : bytes[offset] ≠ b) :
    read (bytes.set offset b) = .error (.badMagic magic (magic.set offset b)) := by
  have hstands := peek_eq_some_iff.mp h.peeked
  have hmagic : (bytes.set offset b).take 4 = magic.set offset b := by
    rw [List.take_set, hstands.magic_eq]
  have hget : magic[offset]? = some bytes[offset] := by
    rw [← hstands.magic_eq, List.getElem?_take_of_lt hoffset, List.getElem?_eq_getElem hlength]
  have hne : magic.set offset b ≠ magic := by
    intro heq
    rw [← heq, List.getElem?_set_self hoffset] at hget
    exact hb (Option.some.inj hget).symm
  apply read_of_peek_error
  rw [peek_eq (by rw [List.length_set]; exact hstands.headerSize_le), hmagic, if_pos hne]

theorem read_set_version (h : Sealed bytes header) (hlength : 4 < bytes.length)
    (hb : bytes[4] ≠ b) : read (bytes.set 4 b) = .error (.unsupportedVersion b version) := by
  have hstands := peek_eq_some_iff.mp h.peeked
  have hmagic : (bytes.set 4 b).take 4 = magic := by
    rw [List.take_set_of_le (Nat.le_refl 4), hstands.magic_eq]
  have hversion : UInt8.ofNat (Wire.numberAt (bytes.set 4 b) 4 1) = b := by
    rw [Wire.numberAt_one (by rwa [List.length_set]), List.getElem_set_self]
  have hne : b ≠ version := by
    rw [← hstands.version_eq, Wire.numberAt_one hlength]
    exact hb.symm
  apply read_of_peek_error
  rw [peek_eq (by rw [List.length_set]; exact hstands.headerSize_le), hmagic, hversion,
    if_neg (not_not_intro rfl), if_pos hne]

/-- Behind the version, a byte of the checksum changes what is stated, and every other byte but
those of the length changes what is computed. -/
theorem read_set_checksum (h : Sealed bytes header) (hoffset : 4 < offset)
    (hout : offset < 8 ∨ 12 ≤ offset) (hend : offset < header.recordSize)
    (hlength : offset < bytes.length) (hb : bytes[offset] ≠ b) :
    ∃ stated computed, read (bytes.set offset b) = .error (.checksumMismatch stated computed) := by
  have hstands := peek_eq_some_iff.mp h.peeked
  obtain ⟨hsame, hset⟩ := hstands.set hoffset hout b
  have hcomplete : (standing (bytes.set offset b)).recordSize ≤ (bytes.set offset b).length := by
    rw [RecordHeader.recordSize, hsame, List.length_set]
    exact h.complete
  refine ⟨_, _, read_of_checksum_ne (peek_eq_some_iff.mpr hset) hcomplete ?_⟩
  by_cases hstated : 12 ≤ offset ∧ offset < 16
  · rw [covered_set_of_checksum hsame hstated, h.checksum_eq, hstands.header_eq]
    exact (checksum_standing_set hstated hlength hb).symm
  · have hkept : (standing (bytes.set offset b)).checksum = header.checksum := by
      rw [hstands.header_eq]
      exact congrArg UInt32.ofNat (Wire.numberAt_set_of_outside (by omega) b)
    rw [hkept, ← h.checksum_eq]
    by_cases hfront : offset < 12
    · exact ofBytes_covered_set_front hsame hfront hlength hb
    · exact ofBytes_covered_set_body hsame (by rw [headerSize]; omega) hend hlength hb

end Sealed

/-- **A single byte that is changed in a record is noticed**, whatever bytes follow the record,
unless it belongs to the length of the body. -/
theorem read_toRecordAs_set {order : List (String × PropertyValue)} {m : Message}
    {record : List UInt8} (hmade : m.properties.Made) (horder : order.Perm m.properties.toList)
    (h : m.toRecordAs order = .ok record) {offset : Nat} {b : UInt8}
    (hlength : offset < record.length) (hb : record[offset] ≠ b)
    (hout : offset < 8 ∨ 12 ≤ offset) (rest : List UInt8) :
    (offset < 4 →
      read (record.set offset b ++ rest) = .error (.badMagic magic (magic.set offset b))) ∧
    (offset = 4 → read (record.set offset b ++ rest) = .error (.unsupportedVersion b version)) ∧
    (4 < offset → ∃ stated computed, read (record.set offset b ++ rest) =
      .error (.checksumMismatch stated computed)) := by
  obtain ⟨hsealed, -⟩ := sealed_append hmade horder h rest
  have hlonger : offset < (record ++ rest).length := by
    rw [List.length_append]
    omega
  have hget : (record ++ rest)[offset] ≠ b := by rwa [List.getElem_append_left hlength]
  have hend : offset < (headerOf order m).recordSize := length_record hmade horder h ▸ hlength
  rw [← List.set_append_left _ _ hlength]
  refine ⟨fun hoffset => ?_, ?_, fun hoffset => ?_⟩
  · exact hsealed.read_set_magic hoffset hlonger hget
  · rintro rfl
    exact hsealed.read_set_version hlonger hget
  · exact hsealed.read_set_checksum hoffset hout hend hlonger hget

theorem getElem?_flags {order : List (String × PropertyValue)} {m : Message} {record : List UInt8}
    (h : m.toRecordAs order = .ok record) : record[5]? = some m.recordFlags := by
  obtain ⟨-, rfl⟩ := toRecordAs_eq_ok_iff.mp h
  rfl

/-- The user of an invoice is taken off the flags of its record. -/
theorem read_toRecordAs_set_invoice :
    ∃ record, invoice.toRecordAs invoice.properties.toList = .ok record ∧
      record[5]? = some 7 ∧ ∃ stated computed, read (record.set 5 3 ++ [1, 2]) =
        .error (.checksumMismatch stated computed) := by
  have hmade : invoice.properties.Made := Properties.made_ofList _
  have hsize : invoice.recordBodySize ≤ maxBodySize := by decide +kernel
  obtain ⟨record, hrecord⟩ : ∃ record,
      invoice.toRecordAs invoice.properties.toList = .ok record :=
    ⟨_, toRecordAs_eq_ok_iff.mpr ⟨hsize, rfl⟩⟩
  have hflags : record[5]? = some 7 := getElem?_flags hrecord
  obtain ⟨hlength, hget⟩ := List.getElem?_eq_some_iff.mp hflags
  have hne : record[5] ≠ 3 := by
    rw [hget]
    decide
  exact ⟨record, hrecord, hflags, (read_toRecordAs_set hmade (.refl _) hrecord hlength hne
    (.inl (by decide)) [1, 2]).2.2 (by decide)⟩

end Record

end Courier
