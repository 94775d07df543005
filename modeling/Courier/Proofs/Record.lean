import Courier.Proofs.Property.Codec
import Courier.Proofs.Record.Header

/-!
# Reading Back a Record

A record is read as the message that was written, whatever bytes follow it. The message has to
be `Message.Readable`: its priority is one that a message can be built with, and its properties
came about by the operations on containers, so that the announced size is the size of the body.
Records tell times in milliseconds, so what is read is the same message exactly if its times are
`Message.TimesWhole`.

## Main results

* `Message.sameContent_asRead_iff`: what is read of a message is the same if its times are whole.
* `Message.length_recordBody`: the body has the announced size.
* `Message.reads_getBody`: the fields of the body are read back.
* `Record.peek_append`, `Record.read_append`: the header and the message at the front of bytes
  that start with a record.
* `Record.read_append_of_priority`: the one thing that is written and not read back.
-/

namespace Courier

open Reader

namespace MessageId

theorem ofBytes_bytes (id : MessageId) : ofBytes id.bytes = id := by
  have hlt : id.bits.toNat < 1 <<< (8 * 16) := id.bits.isLt
  rw [ofBytes, bytes, Wire.ofBigEndian_bigEndian hlt, BitVec.ofNat_toNat, BitVec.setWidth_eq]

@[simp] theorem length_bytes (id : MessageId) : id.bytes.length = 16 :=
  Wire.length_bigEndian ..

end MessageId

namespace Timestamp

@[simp] theorem length_bytes (t : Timestamp) : t.bytes.length = 8 :=
  Wire.length_bigEndian ..

/-- The milliseconds of a time give the time back as far as they tell it. -/
theorem ofMillis?_millis (t : Timestamp) : ofMillis? t.millis = some t.truncated :=
  dif_pos t.millis_inRange

@[simp] theorem millis_atMillis (millis : Int) (h : MillisInRange millis) :
    (atMillis millis h).millis = millis := by
  simp only [Timestamp.millis, atMillis]
  omega

@[simp] theorem millis_truncated (t : Timestamp) : t.truncated.millis = t.millis :=
  millis_atMillis ..

theorem isWhole_atMillis (millis : Int) (h : MillisInRange millis) :
    (atMillis millis h).IsWhole := by
  simp only [IsWhole, atMillis]
  omega

theorem isWhole_of_ofMillis? {millis : Int} {t : Timestamp} (h : ofMillis? millis = some t) :
    t.IsWhole := by
  rw [ofMillis?] at h
  split at h
  · cases h
    exact isWhole_atMillis ..
  · cases h

theorem isWhole_truncated (t : Timestamp) : t.truncated.IsWhole :=
  isWhole_atMillis ..

/-- A time survives being told in milliseconds exactly if it is a whole number of them. -/
theorem truncated_eq_self_iff {t : Timestamp} : t.truncated = t ↔ t.IsWhole := by
  refine ⟨fun htruncated => htruncated ▸ t.isWhole_truncated, fun h => ?_⟩
  obtain ⟨seconds, nanos, hnanos, hrange⟩ := t
  simp only [IsWhole] at h
  simp only [truncated, atMillis, Timestamp.millis, mk.injEq]
  omega

@[simp] theorem truncated_truncated (t : Timestamp) : t.truncated.truncated = t.truncated :=
  truncated_eq_self_iff.mpr t.isWhole_truncated

end Timestamp

namespace Message

/-- A message that can be written and read back: the priority is one that messages are built
with, and the properties came about by the operations on containers. -/
structure Readable (m : Message) : Prop where
  priority_le : m.priority ≤ maxPriority
  properties_made : m.properties.Made

/-- What a draft is built into can be read back. -/
theorem readable_of_build {draft : MessageDraft} {id : MessageId} {timestamp : Timestamp}
    {m : Message} (h : draft.build id timestamp = .ok m) (hmade : draft.properties.Made) :
    m.Readable := by
  rw [MessageDraft.build] at h
  split at h
  · cases h
  · split at h
    · cases h
    · next hpriority =>
        split at h
        · cases h
        · cases h
          exact ⟨UInt8.not_lt.mp hpriority, hmade⟩

theorem readable_of_plain {text : String} {body : List UInt8} {id : MessageId}
    {timestamp : Timestamp} {m : Message} (h : plain text body id timestamp = .ok m) :
    m.Readable := by
  rw [plain] at h
  cases haddress : Address.ofString text with
  | error e =>
      rw [haddress] at h
      cases h
  | ok address =>
      rw [haddress] at h
      cases h
      have hpriority : (4 : UInt8) ≤ maxPriority := by decide
      exact ⟨hpriority, .new⟩

/-- The message as it is read back: its times have lost what is less than a millisecond, and the
properties are those of `Properties.asRead`. -/
def asRead (m : Message) : Message :=
  { m with
    timestamp := m.timestamp.truncated
    expiration := m.expiration.map Timestamp.truncated
    properties := m.properties.asRead }

@[simp] theorem id_asRead (m : Message) : m.asRead.id = m.id := rfl

@[simp] theorem asRead_asRead (m : Message) : m.asRead.asRead = m.asRead := by
  obtain ⟨id, address, body, durable, priority, timestamp, expiration, userId, properties⟩ := m
  cases expiration <;> simp only [asRead, Option.map, Timestamp.truncated_truncated] <;> rfl

/-- The times of a message are whole milliseconds. -/
structure TimesWhole (m : Message) : Prop where
  timestamp : m.timestamp.IsWhole
  expiration : ∀ t ∈ m.expiration, t.IsWhole

theorem timesWhole_asRead (m : Message) : m.asRead.TimesWhole where
  timestamp := m.timestamp.isWhole_truncated
  expiration := by
    simp only [asRead, Option.mem_def, Option.map_eq_some_iff]
    rintro - ⟨t, -, rfl⟩
    exact t.isWhole_truncated

/-- A message is read back with its content exactly if its times are whole milliseconds. -/
theorem sameContent_asRead_iff {m : Message} : m.asRead.sameContent m ↔ m.TimesWhole := by
  obtain ⟨id, address, body, durable, priority, timestamp, expiration, userId, properties⟩ := m
  have htimes : Message.TimesWhole
        ⟨id, address, body, durable, priority, timestamp, expiration, userId, properties⟩ ↔
      timestamp.IsWhole ∧ ∀ t ∈ expiration, t.IsWhole :=
    ⟨fun h => ⟨h.timestamp, h.expiration⟩, fun h => ⟨h.1, h.2⟩⟩
  rw [htimes, ← Timestamp.truncated_eq_self_iff]
  cases expiration <;> simp [sameContent, asRead, ← Timestamp.truncated_eq_self_iff]

/-- A message is read back as it is if its times are whole milliseconds and its properties are read
back as they are. -/
theorem TimesWhole.asRead_eq {m : Message} (h : m.TimesWhole)
    (hproperties : m.properties.asRead = m.properties) : m.asRead = m := by
  have hexpiration : m.expiration.map Timestamp.truncated = m.expiration := by
    cases ht : m.expiration with
    | none => rfl
    | some t => rw [Option.map_some, Timestamp.truncated_eq_self_iff.mpr (h.expiration t ht)]
  rw [asRead, Timestamp.truncated_eq_self_iff.mpr h.timestamp, hexpiration, hproperties]

theorem TimesWhole.sameContent_asRead {m : Message} (h : m.TimesWhole) :
    m.asRead.sameContent m :=
  sameContent_asRead_iff.mpr h

end Message

namespace Record

theorem reads_getTimestamp (outOfRange : Int64 → WireError) (t : Timestamp) :
    (getTimestamp outOfRange).Reads t.bytes t.truncated := by
  have hmillis : (Int64.ofInt t.millis).toInt = t.millis := by
    obtain ⟨hlow, hhigh⟩ := t.millis_inRange
    exact Int64.toInt_ofInt_of_le (by omega) (by omega)
  refine (Wire.reads_getInt64 (Int64.ofInt t.millis)).bind_nil ?_
  rw [hmillis, Timestamp.ofMillis?_millis]
  exact .pure _

/-- A time that is read is a whole number of milliseconds. -/
theorem isWhole_of_getTimestamp {outOfRange : Int64 → WireError} {bytes rest : List UInt8}
    {t : Timestamp} (h : getTimestamp outOfRange bytes = (.ok t, rest)) : t.IsWhole := by
  obtain ⟨millis, between, -, hfound⟩ := eq_ok_of_bind h
  cases htold : Timestamp.ofMillis? millis.toInt with
  | none =>
      rw [htold] at hfound
      cases hfound
  | some found =>
      rw [htold] at hfound
      cases hfound
      exact Timestamp.isWhole_of_ofMillis? htold

theorem reads_getAddress {a : Address} (h : Wire.FitsPrefix (Wire.textLength a.text)) :
    getAddress.Reads (Wire.putText a.text) a := by
  refine (Wire.reads_getText h).bind_nil ?_
  rw [Address.ofString_text]
  exact .pure a

theorem reads_getPriority {priority : UInt8} (h : priority ≤ maxPriority) :
    getPriority.Reads [priority] priority := by
  refine (Wire.reads_getUInt8 priority).bind_nil ?_
  rw [if_neg (UInt8.not_lt.mpr h)]
  exact .pure priority

theorem fails_getPriority {priority : UInt8} (h : maxPriority < priority) :
    getPriority.Fails [priority] (.badPriority priority) := by
  refine (Wire.reads_getUInt8 priority).bind_fails ?_
  rw [if_pos h]
  exact .fail _

theorem priority_le_of_getPriority {bytes rest : List UInt8} {priority : UInt8}
    (h : getPriority bytes = (.ok priority, rest)) : priority ≤ maxPriority := by
  obtain ⟨found, between, -, hfound⟩ := eq_ok_of_bind h
  split at hfound
  · cases hfound
  · next hle =>
      cases hfound
      exact UInt8.not_lt.mp hle

/-- An optional field is there exactly when its flag is set, and is then read as its own reader
tells it. -/
theorem reads_getOptional {α : Type} {flag flags : UInt8} {read : Reader α} {x : Option α}
    {put : α → List UInt8} {told : α → α} (hflag : flags &&& flag ≠ 0 ↔ x.isSome)
    (hread : ∀ a, x = some a → read.Reads (put a) (told a)) :
    (getOptional flag flags read).Reads ((x.map put).getD []) (x.map told) := by
  rw [getOptional]
  cases x with
  | none =>
      rw [if_neg (by simp [hflag])]
      exact .pure none
  | some a =>
      rw [if_pos (hflag.mpr rfl)]
      exact (hread a rfl).map some

/-- An optional field that is there was read by its own reader. -/
theorem read_of_getOptional {α : Type} {flag flags : UInt8} {read : Reader α} {x : Option α}
    {bytes rest : List UInt8} (h : getOptional flag flags read bytes = (.ok x, rest)) :
    ∀ a ∈ x, ∃ before after, read before = (.ok a, after) := by
  intro a ha
  rw [getOptional] at h
  split at h
  · obtain ⟨found, _, hread, h⟩ := eq_ok_of_bind h
    cases h
    cases ha
    exact ⟨_, _, hread⟩
  · cases h
    cases ha

end Record

namespace Message

open Record

/-! ### Flags -/

/-- The flags of a message as a function of the three questions that they answer. -/
def flagsOf (durable expires hasUser : Bool) : UInt8 :=
  (if durable then durableFlag else 0) ||| (if expires then expirationFlag else 0) |||
    (if hasUser then userFlag else 0)

theorem recordFlags_eq (m : Message) :
    m.recordFlags = flagsOf m.durable m.expiration.isSome m.userId.isSome := rfl

theorem flagsOf_known (durable expires hasUser : Bool) :
    flagsOf durable expires hasUser &&& ~~~(durableFlag ||| expirationFlag ||| userFlag) = 0 := by
  revert durable expires hasUser
  decide

theorem flagsOf_durable (durable expires hasUser : Bool) :
    flagsOf durable expires hasUser &&& durableFlag ≠ 0 ↔ durable := by
  revert durable expires hasUser
  decide

theorem flagsOf_expiration (durable expires hasUser : Bool) :
    flagsOf durable expires hasUser &&& expirationFlag ≠ 0 ↔ expires := by
  revert durable expires hasUser
  decide

theorem flagsOf_user (durable expires hasUser : Bool) :
    flagsOf durable expires hasUser &&& userFlag ≠ 0 ↔ hasUser := by
  revert durable expires hasUser
  decide

/-! ### The body -/

theorem recordBody_eq (order : List (String × PropertyValue)) (m : Message) :
    m.recordBody order = m.id.bytes ++ (Wire.putText m.address.text ++ ([m.priority] ++
      (m.timestamp.bytes ++ ((m.expiration.map Timestamp.bytes).getD [] ++
        ((m.userId.map Wire.putText).getD [] ++
          (m.properties.encodeAs order ++ Wire.putBytes m.body)))))) := by
  obtain ⟨id, address, body, durable, priority, timestamp, expiration, userId, properties⟩ := m
  cases expiration <;> cases userId <;> simp [recordBody]

/-- The body of a record has the announced size. -/
theorem length_recordBody {m : Message} {order : List (String × PropertyValue)}
    (h : m.properties.Made) (horder : order.Perm m.properties.toList) :
    (m.recordBody order).length = m.recordBodySize := by
  rw [recordBody_eq, recordBodySize]
  simp only [List.length_append, MessageId.length_bytes, Wire.length_putText,
    List.length_singleton, Timestamp.length_bytes, Wire.length_putBytes,
    Properties.length_encodeAs h.sized horder]
  cases m.expiration <;> cases m.userId <;> simp <;> omega

/-- The address of a message that is not too large fits its length prefix. -/
theorem fitsPrefix_address {m : Message} (hsize : m.recordBodySize ≤ maxBodySize) :
    Wire.FitsPrefix (Wire.textLength m.address.text) := by
  rw [recordBodySize, Wire.textSize, maxBodySize] at hsize
  rw [Wire.FitsPrefix]
  omega

/-- The fields of a body are read back one after another. -/
theorem reads_getBody {m : Message} {order : List (String × PropertyValue)} (h : m.Readable)
    (horder : order.Perm m.properties.toList) (hsize : m.recordBodySize ≤ maxBodySize) :
    (getBody m.recordFlags).Reads (m.recordBody order) m.asRead := by
  have haddress := fitsPrefix_address hsize
  have hsum := length_recordBody h.properties_made horder
  rw [recordBody_eq] at hsum
  simp only [List.length_append, MessageId.length_bytes, Wire.length_putText, Wire.textSize,
    List.length_singleton, Timestamp.length_bytes, Wire.length_putBytes,
    Properties.length_encodeAs h.properties_made.sized horder] at hsum
  rw [maxBodySize] at hsize
  have huser : ∀ user, m.userId = some user → Wire.FitsPrefix (Wire.textLength user) := by
    intro user hm
    rw [hm, Option.map_some, Option.getD_some, Wire.length_putText, Wire.textSize] at hsum
    rw [Wire.FitsPrefix]
    omega
  have hproperties : m.properties.Fits :=
    Properties.Sized.fits h.properties_made.sized (by rw [Wire.FitsPrefix]; omega)
  have hbody : Wire.FitsPrefix m.body.length := by
    rw [Wire.FitsPrefix]
    omega
  have hdurable : decide (m.recordFlags &&& durableFlag ≠ 0) = m.durable := by
    rw [recordFlags_eq, Bool.eq_iff_iff, decide_eq_true_iff]
    exact flagsOf_durable ..
  have hknown : m.recordFlags &&& ~~~(durableFlag ||| expirationFlag ||| userFlag) = 0 :=
    flagsOf_known ..
  rw [recordBody_eq, getBody, if_neg (not_not_intro hknown)]
  have hid := reads_take m.id.bytes
  rw [MessageId.length_bytes] at hid
  refine hid.bind ((reads_getAddress haddress).bind ?_)
  refine (reads_getPriority h.priority_le).bind ((reads_getTimestamp _ _).bind ?_)
  refine (reads_getOptional (flagsOf_expiration ..) fun t _ => reads_getTimestamp _ t).bind ?_
  refine (reads_getOptional (flagsOf_user ..) fun user hm =>
    Wire.reads_getText (huser user hm)).bind ?_
  refine (Properties.reads_decode h.properties_made.sized horder hproperties).bind ?_
  refine (Wire.reads_getBytes hbody).bind_nil ?_
  rw [MessageId.ofBytes_bytes, hdurable, Option.map_id']
  exact .pure _

/-- A body is not read if its priority is too great. -/
theorem fails_getBody {m : Message} (order : List (String × PropertyValue))
    (hsize : m.recordBodySize ≤ maxBodySize) (hpriority : maxPriority < m.priority) :
    (getBody m.recordFlags).Fails (m.recordBody order) (.badPriority m.priority) := by
  have hknown : m.recordFlags &&& ~~~(durableFlag ||| expirationFlag ||| userFlag) = 0 :=
    flagsOf_known ..
  have hid := reads_take m.id.bytes
  rw [MessageId.length_bytes] at hid
  rw [recordBody_eq, getBody, if_neg (not_not_intro hknown)]
  refine hid.bind_fails ((reads_getAddress (fitsPrefix_address hsize)).bind_fails ?_)
  exact ((fails_getPriority hpriority).append _).bind _

/-- What is read has a priority that messages are built with, times in whole milliseconds, and the
properties that their own reader gave. -/
theorem fields_of_getBody {flags : UInt8} {bytes rest : List UInt8} {m : Message}
    (h : getBody flags bytes = (.ok m, rest)) :
    m.priority ≤ maxPriority ∧ m.TimesWhole ∧
      ∃ before after, Properties.decode before = (.ok m.properties, after) := by
  rw [getBody] at h
  split at h
  · cases h
  · obtain ⟨id, _, -, h⟩ := eq_ok_of_bind h
    obtain ⟨address, _, -, h⟩ := eq_ok_of_bind h
    obtain ⟨priority, _, hpriority, h⟩ := eq_ok_of_bind h
    obtain ⟨timestamp, _, htimestamp, h⟩ := eq_ok_of_bind h
    obtain ⟨expiration, _, hexpiration, h⟩ := eq_ok_of_bind h
    obtain ⟨userId, _, -, h⟩ := eq_ok_of_bind h
    obtain ⟨properties, _, hproperties, h⟩ := eq_ok_of_bind h
    obtain ⟨body, _, -, h⟩ := eq_ok_of_bind h
    cases h
    refine ⟨priority_le_of_getPriority hpriority,
      ⟨isWhole_of_getTimestamp htimestamp, fun t ht => ?_⟩, _, _, hproperties⟩
    obtain ⟨before, after, hread⟩ := read_of_getOptional hexpiration t ht
    exact isWhole_of_getTimestamp hread

end Message

/-! ### The record -/

namespace Record

/-- The bytes in front of the checksum. -/
def front (m : Message) : List UInt8 :=
  magic ++ [version, m.recordFlags] ++ Wire.bigEndian 2 0 ++ Wire.bigEndian 4 m.recordBodySize

/-- The header of a message's record. -/
def headerOf (order : List (String × PropertyValue)) (m : Message) : RecordHeader where
  flags := m.recordFlags
  bodyLength := UInt32.ofNat m.recordBodySize
  checksum := Checksum.ofBytes (front m ++ m.recordBody order)

@[simp] theorem length_front (m : Message) : (front m).length = 12 := by
  simp [front, magic]

theorem writeRecord_of_lt {order : List (String × PropertyValue)} {m : Message}
    (hsize : maxBodySize < m.recordBodySize) (buffer : List UInt8) :
    m.writeRecord order buffer = (.error (.recordTooLarge m.recordBodySize maxBodySize), buffer) :=
  if_pos hsize

/-- The checksum takes the place that was kept for it, and the buffer keeps what it held. -/
theorem writeRecord_of_le {order : List (String × PropertyValue)} {m : Message}
    (hsize : m.recordBodySize ≤ maxBodySize) (buffer : List UInt8) :
    m.writeRecord order buffer =
      (.ok (), buffer ++ withChecksum (front m) (m.recordBody order)) := by
  have hwritten : buffer ++ magic ++ [version, m.recordFlags] ++ Wire.bigEndian 2 0 ++
      Wire.bigEndian 4 m.recordBodySize ++ Wire.bigEndian 4 0 ++ m.recordBody order =
        buffer ++ (front m ++ (Wire.bigEndian 4 0 ++ m.recordBody order)) := by
    simp only [front, List.append_assoc]
  have hfront : (front m ++ (Wire.bigEndian 4 0 ++ m.recordBody order)).take 12 = front m :=
    List.take_left' (length_front m)
  have hbody : (front m ++ (Wire.bigEndian 4 0 ++ m.recordBody order)).drop headerSize =
      m.recordBody order := by
    rw [← List.append_assoc]
    exact List.drop_left' (by rw [List.length_append, length_front, Wire.length_bigEndian]; rfl)
  rw [Message.writeRecord, if_neg (Nat.not_lt_of_le hsize)]
  simp only [hwritten, List.drop_length_add_append, List.take_length_add_append, List.drop_left,
    hfront, hbody]
  simp only [withChecksum, List.append_assoc]

theorem toRecordAs_eq_ok_iff {order : List (String × PropertyValue)} {m : Message}
    {record : List UInt8} :
    m.toRecordAs order = .ok record ↔
      m.recordBodySize ≤ maxBodySize ∧ record = withChecksum (front m) (m.recordBody order) := by
  rw [Message.toRecordAs]
  rcases Nat.lt_or_ge maxBodySize m.recordBodySize with hsize | hsize
  · rw [writeRecord_of_lt hsize]
    constructor
    · intro h
      cases h
    · rintro ⟨hle, -⟩
      omega
  · rw [writeRecord_of_le hsize, List.nil_append, Except.ok.injEq]
    exact ⟨fun h => ⟨hsize, h.symm⟩, fun h => h.2.symm⟩

theorem toNat_bodyLength {order : List (String × PropertyValue)} {m : Message}
    (hsize : m.recordBodySize ≤ maxBodySize) :
    (headerOf order m).bodyLength.toNat = m.recordBodySize := by
  rw [maxBodySize] at hsize
  exact UInt32.toNat_ofNat_of_lt' (by rw [UInt32.size]; omega)

theorem reads_fields {order : List (String × PropertyValue)} {m : Message}
    (hsize : m.recordBodySize ≤ maxBodySize) :
    RecordHeader.fields.Reads
      (front m ++ Wire.bigEndian 4 (headerOf order m).checksum.toNat) (headerOf order m) := by
  have hlength : (headerOf order m).bodyLength.toNat = m.recordBodySize := toNat_bodyLength hsize
  have hread := Wire.reads_getUInt32 (headerOf order m).bodyLength
  rw [hlength] at hread
  simp only [front, List.append_assoc]
  refine (reads_take magic).bind ?_
  rw [if_neg (not_not_intro rfl)]
  refine (Wire.reads_getUInt8 version).bind ?_
  rw [if_neg (not_not_intro rfl)]
  refine (Wire.reads_getUInt8 m.recordFlags).bind ((Wire.reads_getUInt16 0).bind (hread.bind ?_))
  rw [if_neg (by omega)]
  exact (Wire.reads_getUInt32 _).map fun checksum =>
    ({ flags := m.recordFlags, bodyLength := UInt32.ofNat m.recordBodySize, checksum } :
      RecordHeader)

/-- Bytes that start with a record start with its header. -/
theorem peek_append {order : List (String × PropertyValue)} {m : Message} {record : List UInt8}
    (h : m.toRecordAs order = .ok record) (rest : List UInt8) :
    RecordHeader.peek (record ++ rest) = .ok (some (headerOf order m)) := by
  obtain ⟨hsize, rfl⟩ := toRecordAs_eq_ok_iff.mp h
  have hfront : (front m ++ Wire.bigEndian 4 (headerOf order m).checksum.toNat).length =
      headerSize := by
    rw [List.length_append, length_front, Wire.length_bigEndian, headerSize]
  have hparts : withChecksum (front m) (m.recordBody order) ++ rest =
      (front m ++ Wire.bigEndian 4 (headerOf order m).checksum.toNat) ++
        (m.recordBody order ++ rest) := List.append_assoc ..
  rw [RecordHeader.peek, hparts, List.take_left' hfront, if_neg (by omega), Reader.value,
    (reads_fields hsize).eq]
  rfl

/-- The header and the checksum of a record are in order. -/
theorem sealed_append {order : List (String × PropertyValue)} {m : Message}
    {record : List UInt8} (hmade : m.properties.Made) (horder : order.Perm m.properties.toList)
    (h : m.toRecordAs order = .ok record) (rest : List UInt8) :
    Sealed (record ++ rest) (headerOf order m) ∧
      bodyAt (record ++ rest) (headerOf order m) = m.recordBody order := by
  have hpeek := peek_append h rest
  obtain ⟨hsize, rfl⟩ := toRecordAs_eq_ok_iff.mp h
  exact sealed_withChecksum (length_front m) hpeek
    ((toNat_bodyLength hsize).trans (Message.length_recordBody hmade horder).symm)

theorem read_append_eq {order : List (String × PropertyValue)} {m : Message}
    {record : List UInt8} (hmade : m.properties.Made) (horder : order.Perm m.properties.toList)
    (h : m.toRecordAs order = .ok record) (rest : List UInt8) :
    read (record ++ rest) =
      match getBody m.recordFlags (m.recordBody order) with
      | (.error e, _) => .error e
      | (.ok n, []) => .ok n
      | (.ok _, left) => .error (.trailingBytes left.length) := by
  obtain ⟨hsealed, hbody⟩ := sealed_append hmade horder h rest
  rw [hsealed.read_eq, hbody]
  rfl

/-- **Records are read back**, whatever bytes follow them. -/
theorem read_append {order : List (String × PropertyValue)} {m : Message} {record : List UInt8}
    (hm : m.Readable) (horder : order.Perm m.properties.toList)
    (h : m.toRecordAs order = .ok record) (rest : List UInt8) :
    read (record ++ rest) = .ok m.asRead := by
  obtain ⟨hsize, -⟩ := toRecordAs_eq_ok_iff.mp h
  rw [read_append_eq hm.properties_made horder h, (Message.reads_getBody hm horder hsize).eq]

/-- **A record with a priority that is too great is written but not read.** -/
theorem read_append_of_priority {order : List (String × PropertyValue)} {m : Message}
    {record : List UInt8} (hmade : m.properties.Made) (horder : order.Perm m.properties.toList)
    (h : m.toRecordAs order = .ok record) (hpriority : maxPriority < m.priority)
    (rest : List UInt8) : read (record ++ rest) = .error (.badPriority m.priority) := by
  obtain ⟨hsize, -⟩ := toRecordAs_eq_ok_iff.mp h
  obtain ⟨left, hbody⟩ := (Message.fails_getBody order hsize hpriority).eq
  rw [read_append_eq hmade horder h, hbody]

/-- A record is as long as its header says. -/
theorem length_record {order : List (String × PropertyValue)} {m : Message} {record : List UInt8}
    (hmade : m.properties.Made) (horder : order.Perm m.properties.toList)
    (h : m.toRecordAs order = .ok record) : record.length = (headerOf order m).recordSize := by
  obtain ⟨hsize, rfl⟩ := toRecordAs_eq_ok_iff.mp h
  rw [length_withChecksum (length_front m), Message.length_recordBody hmade horder,
    RecordHeader.recordSize, toNat_bodyLength hsize]

/-! ### Writing into a buffer -/

/-- **What is written into a buffer is read back.** A message that is small enough adds a record
of the announced size behind what the buffer held, and a message is read from that record,
whatever bytes follow, which is the same exactly if the times are whole milliseconds; one that is
too large is refused and adds nothing. -/
theorem read_of_writeRecord {order : List (String × PropertyValue)} {m : Message}
    (hm : m.Readable) (horder : order.Perm m.properties.toList) (buffer : List UInt8) :
    (m.recordBodySize ≤ maxBodySize →
      ∃ record, m.writeRecord order buffer = (.ok (), buffer ++ record) ∧
        record.length = headerSize + m.recordBodySize ∧
        ∀ rest, ∃ n, read (record ++ rest) = .ok n ∧ (n.sameContent m ↔ m.TimesWhole)) ∧
    (maxBodySize < m.recordBodySize →
      m.writeRecord order buffer =
        (.error (.recordTooLarge m.recordBodySize maxBodySize), buffer)) := by
  refine ⟨fun hsize => ?_, fun hsize => writeRecord_of_lt hsize buffer⟩
  refine ⟨_, writeRecord_of_le hsize buffer, ?_,
    fun rest => ⟨m.asRead, ?_, Message.sameContent_asRead_iff⟩⟩
  · rw [length_withChecksum (length_front m), Message.length_recordBody hm.properties_made horder]
  · exact read_append hm horder (toRecordAs_eq_ok_iff.mpr ⟨hsize, rfl⟩) rest

/-- An invoice with every optional part. -/
def invoice : Message where
  id := ⟨7⟩
  address := ⟨"orders.eu", by decide⟩
  body := magic
  durable := true
  priority := 9
  timestamp := .epoch
  expiration := some .epoch
  userId := some "svc"
  properties := .ofList [("price", .double 0x4023000000000000), ("qty", .int 3)]

/-- The invoice is written behind three bytes, with its properties the other way round. -/
theorem read_of_writeRecord_invoice :
    invoice.Readable ∧ invoice.TimesWhole ∧
      invoice.properties.toList.reverse.Perm invoice.properties.toList ∧
      invoice.recordBodySize ≤ maxBodySize ∧
      ∃ record, invoice.writeRecord invoice.properties.toList.reverse [1, 2, 3] =
          (.ok (), [1, 2, 3] ++ record) ∧
        record.length = headerSize + invoice.recordBodySize ∧
        ∀ rest, ∃ n, read (record ++ rest) = .ok n ∧ n.sameContent invoice := by
  have hreadable : invoice.Readable := ⟨by decide, Properties.made_ofList _⟩
  have horder : invoice.properties.toList.reverse.Perm invoice.properties.toList :=
    List.reverse_perm _
  have hsize : invoice.recordBodySize ≤ maxBodySize := by decide +kernel
  have hwhole : invoice.TimesWhole := ⟨by decide, by decide⟩
  obtain ⟨record, hwrite, hlength, hread⟩ :=
    (read_of_writeRecord hreadable horder [1, 2, 3]).1 hsize
  refine ⟨hreadable, hwhole, horder, hsize, record, hwrite, hlength, fun rest => ?_⟩
  obtain ⟨n, hn, hsame⟩ := hread rest
  exact ⟨n, hn, hsame.mpr hwhole⟩

end Record

end Courier
