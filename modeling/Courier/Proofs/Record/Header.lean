import Courier.Record
import Courier.Proofs.Wire.Spelling

/-!
# Headers and Checksums

The fields of a header stand in fixed places, so reading a header comes to looking at these places:
magic bytes, a version, a length that is not too great. What stands in the other places is taken as
it is.

A record is read if its header and its checksum are in order, and if a message stands in its body.
`Record.Sealed` says the former of the front of any bytes.

## Main definitions

* `Wire.numberAt`: the number in a place of some bytes.
* `RecordHeader.standing`: what stands in the places of a header.
* `Record.Sealed`: bytes start with a record whose header and checksum are in order.
* `Record.withChecksum`: the front of a header, the checksum and a body.

## Main results

* `Wire.numberAt_set_of_outside`, `Wire.numberAt_set_of_inside`: a byte that is changed.
* `RecordHeader.peek_eq`: how the header at the front of bytes is read.
* `Record.sealed_of_read`, `Record.sealed_withChecksum`: what is read, and what is written, is in
  order.
-/

namespace Courier

variable {α β : Type}

namespace Reader

/-- What comes next goes on with the bytes that are left. -/
theorem bind_eq {read : Reader α} {bytes rest : List UInt8} {a : α}
    (h : read bytes = (.ok a, rest)) (next : α → Reader β) :
    (read >>= next) bytes = next a rest := by
  change Reader.bind read next bytes = _
  rw [Reader.bind, h]

theorem take_eq {count : Nat} {bytes : List UInt8} (h : count ≤ bytes.length) :
    take count bytes = (.ok (bytes.take count), bytes.drop count) :=
  if_pos h

end Reader

namespace Wire

/-- The number in a place of some bytes. -/
def numberAt (bytes : List UInt8) (offset count : Nat) : Nat :=
  ofBigEndian ((bytes.drop offset).take count)

variable {bytes : List UInt8} {offset count : Nat}

theorem getNat_drop (h : offset + count ≤ bytes.length) :
    getNat count (bytes.drop offset) =
      (.ok (numberAt bytes offset count), bytes.drop (offset + count)) := by
  rw [getNat, Reader.bind_eq (Reader.take_eq (by rw [List.length_drop]; omega)), List.drop_drop]
  rfl

theorem getUInt8_drop (h : offset + 1 ≤ bytes.length) :
    getUInt8 (bytes.drop offset) =
      (.ok (UInt8.ofNat (numberAt bytes offset 1)), bytes.drop (offset + 1)) :=
  Reader.bind_eq (getNat_drop h) _

theorem getUInt16_drop (h : offset + 2 ≤ bytes.length) :
    getUInt16 (bytes.drop offset) =
      (.ok (UInt16.ofNat (numberAt bytes offset 2)), bytes.drop (offset + 2)) :=
  Reader.bind_eq (getNat_drop h) _

theorem getUInt32_drop (h : offset + 4 ≤ bytes.length) :
    getUInt32 (bytes.drop offset) =
      (.ok (UInt32.ofNat (numberAt bytes offset 4)), bytes.drop (offset + 4)) :=
  Reader.bind_eq (getNat_drop h) _

theorem numberAt_lt (bytes : List UInt8) (offset count : Nat) :
    numberAt bytes offset count < 1 <<< (8 * count) := by
  have hlt := ofBigEndian_lt ((bytes.drop offset).take count)
  have hle : ((bytes.drop offset).take count).length ≤ count := List.length_take_le ..
  rw [Nat.one_shiftLeft] at hlt ⊢
  exact Nat.lt_of_lt_of_le hlt (Nat.pow_le_pow_right (by decide) (Nat.mul_le_mul_left 8 hle))

theorem numberAt_take {size : Nat} (h : offset + count ≤ size) :
    numberAt (bytes.take size) offset count = numberAt bytes offset count := by
  rw [numberAt, numberAt, List.drop_take, List.take_take, Nat.min_eq_left (by omega)]

theorem numberAt_one (h : offset < bytes.length) :
    UInt8.ofNat (numberAt bytes offset 1) = bytes[offset] := by
  rw [numberAt, List.drop_eq_getElem_cons h, List.take_succ_cons, List.take_zero]
  simp [ofBigEndian]

/-- A byte in another place does not matter. -/
theorem numberAt_set_of_outside {place : Nat} (h : place < offset ∨ offset + count ≤ place)
    (b : UInt8) : numberAt (bytes.set place b) offset count = numberAt bytes offset count := by
  rw [numberAt, numberAt, List.drop_set]
  split
  · rfl
  · rw [List.take_set_of_le (by omega)]

/-- A byte within the place of a number decides the number. -/
theorem numberAt_set_of_inside {place : Nat} (hplace : offset ≤ place ∧ place < offset + count)
    (hlength : place < bytes.length) {b : UInt8} (hb : bytes[place] ≠ b) :
    numberAt (bytes.set place b) offset count ≠ numberAt bytes offset count := by
  intro h
  rw [numberAt, numberAt, ofBigEndian_inj (by simp)] at h
  have hget := congrArg (fun xs => xs[place - offset]?) h
  simp only [List.getElem?_take, List.getElem?_drop] at hget
  rw [if_pos (by omega), if_pos (by omega), show offset + (place - offset) = place by omega,
    List.getElem?_set_self hlength, List.getElem?_eq_getElem hlength] at hget
  exact hb (Option.some.inj hget).symm

end Wire

namespace RecordHeader

open Wire

/-- What stands in the places of a header at the front of some bytes. -/
def standing (bytes : List UInt8) : RecordHeader where
  flags := UInt8.ofNat (numberAt bytes 5 1)
  bodyLength := UInt32.ofNat (numberAt bytes 8 4)
  checksum := UInt32.ofNat (numberAt bytes 12 4)

theorem value_fields_eq {bytes : List UInt8} (h : Record.headerSize ≤ bytes.length) :
    fields.value bytes =
      if bytes.take 4 ≠ Record.magic then .error (.badMagic Record.magic (bytes.take 4))
      else if UInt8.ofNat (numberAt bytes 4 1) ≠ Record.version then
        .error (.unsupportedVersion (UInt8.ofNat (numberAt bytes 4 1)) Record.version)
      else if Record.maxBodySize < (standing bytes).bodyLength.toNat then
        .error (.recordTooLarge (standing bytes).bodyLength.toNat Record.maxBodySize)
      else .ok (standing bytes) := by
  rw [Record.headerSize] at h
  rw [Reader.value, fields, Reader.bind_eq (Reader.take_eq (by omega))]
  split
  · rfl
  rw [Reader.bind_eq (getUInt8_drop (by omega))]
  split
  · rfl
  rw [Reader.bind_eq (getUInt8_drop (by omega)), Reader.bind_eq (getUInt16_drop (by omega)),
    Reader.bind_eq (getUInt32_drop (by omega))]
  split
  · next hsize => exact (if_pos hsize).symm
  · next hsize =>
    rw [Reader.bind_eq (getUInt32_drop (by omega))]
    exact (if_neg hsize).symm

/-- **Reading a header comes to looking at its places.** -/
theorem peek_eq {bytes : List UInt8} (h : Record.headerSize ≤ bytes.length) :
    peek bytes =
      if bytes.take 4 ≠ Record.magic then .error (.badMagic Record.magic (bytes.take 4))
      else if UInt8.ofNat (numberAt bytes 4 1) ≠ Record.version then
        .error (.unsupportedVersion (UInt8.ofNat (numberAt bytes 4 1)) Record.version)
      else if Record.maxBodySize < (standing bytes).bodyLength.toNat then
        .error (.recordTooLarge (standing bytes).bodyLength.toNat Record.maxBodySize)
      else .ok (some (standing bytes)) := by
  have hfront : (bytes.take Record.headerSize).length = Record.headerSize :=
    List.length_take_of_le h
  have hmagic : (bytes.take Record.headerSize).take 4 = bytes.take 4 := List.take_take
  have hversion : numberAt (bytes.take Record.headerSize) 4 1 = numberAt bytes 4 1 :=
    numberAt_take (by decide)
  have hstanding : standing (bytes.take Record.headerSize) = standing bytes := by
    simp [standing, numberAt_take, Record.headerSize]
  rw [peek, if_neg (by omega), value_fields_eq (by omega), hmagic, hversion, hstanding]
  split
  · rfl
  split
  · rfl
  split <;> rfl

theorem peek_of_short {bytes : List UInt8} (h : bytes.length < Record.headerSize) :
    peek bytes = .ok none := by
  rw [peek, if_pos]
  rw [List.length_take]
  omega

theorem headerSize_le_of_peek_error {bytes : List UInt8} {e : WireError}
    (h : peek bytes = .error e) : Record.headerSize ≤ bytes.length := by
  refine Nat.le_of_not_lt fun hshort => ?_
  rw [peek_of_short hshort] at h
  cases h

theorem short_of_peek {bytes : List UInt8} (h : peek bytes = .ok none) :
    bytes.length < Record.headerSize := by
  refine Nat.lt_of_not_le fun hle => ?_
  rw [peek_eq hle] at h
  split at h
  · cases h
  split at h
  · cases h
  split at h <;> cases h

/-- A header is read from the first sixteen bytes, whatever follows them. -/
theorem peek_append {bytes : List UInt8} (h : Record.headerSize ≤ bytes.length)
    (rest : List UInt8) : peek (bytes ++ rest) = peek bytes := by
  rw [peek, peek, List.take_append_of_le_length h]

/-- Bytes that do not start with the magic bytes are damaged. -/
theorem peek_of_not_magic {bytes : List UInt8} (hlength : Record.headerSize ≤ bytes.length)
    (h : ¬Record.magic <+: bytes) :
    ∃ found, peek bytes = .error (.badMagic Record.magic found) := by
  have hfound : bytes.take 4 ≠ Record.magic := fun heq => h (heq ▸ List.take_prefix 4 bytes)
  exact ⟨bytes.take 4, by rw [peek_eq hlength, if_pos hfound]⟩

/-- What stands in the places of bytes that start with a header. -/
structure Stands (bytes : List UInt8) (header : RecordHeader) : Prop where
  headerSize_le : Record.headerSize ≤ bytes.length
  magic_eq : bytes.take 4 = Record.magic
  version_eq : UInt8.ofNat (numberAt bytes 4 1) = Record.version
  bodyLength_le : header.bodyLength.toNat ≤ Record.maxBodySize
  header_eq : header = standing bytes

theorem peek_eq_some_iff {bytes : List UInt8} {header : RecordHeader} :
    peek bytes = .ok (some header) ↔ Stands bytes header := by
  constructor
  · intro h
    have hle : Record.headerSize ≤ bytes.length := by
      refine Nat.le_of_not_lt fun hshort => ?_
      rw [peek_of_short hshort] at h
      cases h
    rw [peek_eq hle] at h
    split at h
    · cases h
    · next hmagic =>
        split at h
        · cases h
        · next hversion =>
            split at h
            · cases h
            · next hbody =>
                cases h
                exact ⟨hle, Decidable.not_not.mp hmagic, Decidable.not_not.mp hversion,
                  Nat.le_of_not_lt hbody, rfl⟩
  · rintro ⟨hle, hmagic, hversion, hbody, rfl⟩
    rw [peek_eq hle, if_neg (not_not_intro hmagic), if_neg (not_not_intro hversion),
      if_neg (Nat.not_lt_of_le hbody)]

theorem headerSize_le_of_peek {bytes : List UInt8} {header : RecordHeader}
    (h : peek bytes = .ok (some header)) : Record.headerSize ≤ bytes.length :=
  (peek_eq_some_iff.mp h).headerSize_le

end RecordHeader

/-! ### Bytes with a header and a checksum in order -/

namespace Record

/-- The body behind a header at the front of some bytes. -/
def bodyAt (bytes : List UInt8) (header : RecordHeader) : List UInt8 :=
  (bytes.drop headerSize).take header.bodyLength.toNat

/-- The bytes that the checksum in a header at the front is taken of. -/
def covered (bytes : List UInt8) (header : RecordHeader) : List UInt8 :=
  bytes.take 12 ++ bodyAt bytes header

/-- Bytes start with a header, and with as much behind it as the header states, of which the
checksum is the stated one. -/
structure Sealed (bytes : List UInt8) (header : RecordHeader) : Prop where
  peeked : RecordHeader.peek bytes = .ok (some header)
  complete : header.recordSize ≤ bytes.length
  checksum_eq : Checksum.ofBytes (covered bytes header) = header.checksum

/-- Behind a header, reading comes to comparing the checksums and reading the body. -/
theorem read_of_complete {bytes : List UInt8} {header : RecordHeader}
    (hpeek : RecordHeader.peek bytes = .ok (some header))
    (hcomplete : header.recordSize ≤ bytes.length) :
    read bytes =
      if Checksum.ofBytes (covered bytes header) ≠ header.checksum then
        .error (.checksumMismatch header.checksum (Checksum.ofBytes (covered bytes header)))
      else
        match getBody header.flags (bodyAt bytes header) with
        | (.error e, _) => .error e
        | (.ok m, []) => .ok m
        | (.ok _, left) => .error (.trailingBytes left.length) := by
  rw [read, hpeek]
  exact if_neg (Nat.not_lt_of_le hcomplete)

theorem read_of_checksum_ne {bytes : List UInt8} {header : RecordHeader}
    (hpeek : RecordHeader.peek bytes = .ok (some header))
    (hcomplete : header.recordSize ≤ bytes.length)
    (hne : Checksum.ofBytes (covered bytes header) ≠ header.checksum) :
    read bytes =
      .error (.checksumMismatch header.checksum (Checksum.ofBytes (covered bytes header))) :=
  (read_of_complete hpeek hcomplete).trans (if_pos hne)

theorem Sealed.read_eq {bytes : List UInt8} {header : RecordHeader} (h : Sealed bytes header) :
    read bytes =
      match getBody header.flags (bodyAt bytes header) with
      | (.error e, _) => .error e
      | (.ok m, []) => .ok m
      | (.ok _, left) => .error (.trailingBytes left.length) :=
  (read_of_complete h.peeked h.complete).trans (if_neg (not_not_intro h.checksum_eq))

theorem read_of_peek_error {bytes : List UInt8} {e : WireError}
    (h : RecordHeader.peek bytes = .error e) : read bytes = .error e := by
  rw [read, h]

/-- What is read was read from the whole of a body, with the header and the checksum in order. -/
theorem sealed_of_read {bytes : List UInt8} {m : Message} (h : read bytes = .ok m) :
    ∃ header, Sealed bytes header ∧ getBody header.flags (bodyAt bytes header) = (.ok m, []) := by
  rw [read] at h
  split at h
  · cases h
  · cases h
  · next header hpeek =>
      split at h
      · cases h
      · next hlong =>
          dsimp only at h
          split at h
          · cases h
          · next hchecksum =>
              refine ⟨header, ⟨hpeek, Nat.le_of_not_lt hlong, Decidable.not_not.mp hchecksum⟩, ?_⟩
              split at h
              · cases h
              · next hbody =>
                  cases h
                  exact hbody
              · cases h

/-- Bytes in front of a checksum, the checksum and a body. -/
def withChecksum (front body : List UInt8) : List UInt8 :=
  front ++ Wire.bigEndian 4 (Checksum.ofBytes (front ++ body)).toNat ++ body

theorem length_withChecksum {front body : List UInt8} (hfront : front.length = 12) :
    (withChecksum front body).length = headerSize + body.length := by
  rw [withChecksum, List.length_append, List.length_append, hfront, Wire.length_bigEndian,
    headerSize]

/-- A header and a body of the stated length are in order with their checksum between them. -/
theorem sealed_withChecksum {front body rest : List UInt8} {header : RecordHeader}
    (hfront : front.length = 12)
    (hpeek : RecordHeader.peek (withChecksum front body ++ rest) = .ok (some header))
    (hlength : header.bodyLength.toNat = body.length) :
    Sealed (withChecksum front body ++ rest) header ∧
      bodyAt (withChecksum front body ++ rest) header = body := by
  have hstands := RecordHeader.peek_eq_some_iff.mp hpeek
  have hparts : withChecksum front body ++ rest = front ++
      (Wire.bigEndian 4 (Checksum.ofBytes (front ++ body)).toNat ++ (body ++ rest)) := by
    simp only [withChecksum, List.append_assoc]
  have htake : (withChecksum front body ++ rest).take 12 = front := by
    rw [hparts, List.take_left' hfront]
  have hnumber : Wire.numberAt (withChecksum front body ++ rest) 12 4 =
      (Checksum.ofBytes (front ++ body)).toNat := by
    rw [Wire.numberAt, hparts, List.drop_left' hfront,
      List.take_left' (Wire.length_bigEndian ..), Wire.ofBigEndian_bigEndian (UInt32.toNat_lt _)]
  have hbody : bodyAt (withChecksum front body ++ rest) header = body := by
    rw [bodyAt, hparts, ← List.append_assoc, List.drop_left' ?_, hlength, List.take_left]
    rw [List.length_append, hfront, Wire.length_bigEndian, headerSize]
  refine ⟨⟨hpeek, ?_, ?_⟩, hbody⟩
  · rw [RecordHeader.recordSize, hlength, List.length_append, length_withChecksum hfront]
    exact Nat.le_add_right ..
  · rw [covered, hbody, htake, hstands.header_eq, RecordHeader.standing, hnumber,
      UInt32.ofNat_toNat]

end Record

end Courier
