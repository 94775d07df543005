import Courier.Message
import Courier.Record.Checksum

/-!
# Message Records

A record is a message as bytes: a header of sixteen bytes and a body. The header holds the
magic bytes, a version, flags for the optional parts, the length of the body and the checksum
of everything else in the record.

Writing fails only for a body above the greatest size. Reading checks the header, the checksum
and every field, and refuses bytes that are left over in the body.

## Main definitions

* `RecordHeader`, `RecordHeader.peek`: the header, and how it is read from the front of bytes.
* `Message.recordBodySize`: the length of a message's body in a record.
* `Message.writeRecord`: writes a message behind what a buffer holds.
* `Message.toRecordAs`, `Message.toRecord`: a message as a record.
* `Record.read`: the message in a record.
-/

namespace Courier

namespace Record

/-- The bytes that every record starts with. -/
def magic : List UInt8 := [0x4b, 0x41, 0x45, 0x58]

/-- The version of the format. -/
def version : UInt8 := 1

/-- The number of bytes of a header. -/
def headerSize : Nat := 16

/-- The greatest number of bytes of a body. -/
def maxBodySize : Nat := 16 * 1024 * 1024

/-- The flag of a message that outlives a restart. -/
def durableFlag : UInt8 := 1

/-- The flag of a message with an expiration time. -/
def expirationFlag : UInt8 := 2

/-- The flag of a message with a user. -/
def userFlag : UInt8 := 4

end Record

/-- What a record says about itself in front of its body. -/
structure RecordHeader where
  /-- The flags of the message. -/
  flags : UInt8
  /-- The number of bytes of the body. -/
  bodyLength : UInt32
  /-- The checksum of the rest of the record. -/
  checksum : UInt32
  deriving DecidableEq, Repr

namespace RecordHeader

/-- The number of bytes of the whole record. -/
def recordSize (h : RecordHeader) : Nat :=
  Record.headerSize + h.bodyLength.toNat

theorem recordSize_pos (h : RecordHeader) : 0 < h.recordSize := by
  simp only [recordSize, Record.headerSize]
  omega

/-- Reads the fields of a header. -/
def fields : Reader RecordHeader := do
  let found ← Reader.take 4
  if found ≠ Record.magic then Reader.fail (.badMagic Record.magic found)
  else
    let version ← Wire.getUInt8
    if version ≠ Record.version then
      Reader.fail (.unsupportedVersion version Record.version)
    else
      let flags ← Wire.getUInt8
      let _ ← Wire.getUInt16
      let bodyLength ← Wire.getUInt32
      if Record.maxBodySize < bodyLength.toNat then
        Reader.fail (.recordTooLarge bodyLength.toNat Record.maxBodySize)
      else
        let checksum ← Wire.getUInt32
        pure { flags, bodyLength, checksum }

/-- The header at the front of some bytes, or `none` when there are too few of them. -/
def peek (bytes : List UInt8) : Except WireError (Option RecordHeader) :=
  let front := bytes.take Record.headerSize
  if front.length < Record.headerSize then .ok none
  else (fields.value front).map some

end RecordHeader

namespace Message

/-- The flags of a message. -/
def recordFlags (m : Message) : UInt8 :=
  (if m.durable then Record.durableFlag else 0) |||
    (if m.expiration.isSome then Record.expirationFlag else 0) |||
    (if m.userId.isSome then Record.userFlag else 0)

/-- The number of bytes of a message's body in a record. -/
def recordBodySize (m : Message) : Nat :=
  16 + Wire.textSize m.address.text + 1 + 8 + (if m.expiration.isSome then 8 else 0) +
    (match m.userId with
    | some user => Wire.textSize user
    | none => 0) +
    m.properties.encodeSize + 4 + m.body.length

/-- A message's body in a record, with the properties in a given order. -/
def recordBody (order : List (String × PropertyValue)) (m : Message) : List UInt8 :=
  m.id.bytes ++ Wire.putText m.address.text ++ [m.priority] ++ m.timestamp.bytes ++
    (match m.expiration with
    | some t => t.bytes
    | none => []) ++
    (match m.userId with
    | some user => Wire.putText user
    | none => []) ++
    m.properties.encodeAs order ++ Wire.putBytes m.body

/-- Writes the record of a message behind the bytes of a buffer, with the properties in a given
order. The checksum is put into its place in the header when everything else is written. A message
that is too large leaves the buffer as it was. -/
def writeRecord (order : List (String × PropertyValue)) (m : Message) (buffer : List UInt8) :
    Except WireError Unit × List UInt8 :=
  let size := m.recordBodySize
  if Record.maxBodySize < size then (.error (.recordTooLarge size Record.maxBodySize), buffer)
  else
    let start := buffer.length
    let bodyStart := start + Record.headerSize
    let written :=
      buffer ++ Record.magic ++ [Record.version, m.recordFlags] ++ Wire.bigEndian 2 0 ++
        Wire.bigEndian 4 size ++ Wire.bigEndian 4 0 ++ m.recordBody order
    let checksum := Checksum.ofBytes ((written.drop start).take 12 ++ written.drop bodyStart)
    (.ok (),
      written.take (start + 12) ++ Wire.bigEndian 4 checksum.toNat ++ written.drop bodyStart)

/-- A message as a record, with the properties in a given order: what is written into an empty
buffer. -/
def toRecordAs (order : List (String × PropertyValue)) (m : Message) :
    Except WireError (List UInt8) :=
  match m.writeRecord order [] with
  | (.ok (), record) => .ok record
  | (.error e, _) => .error e

/-- A message as a record. -/
def toRecord (m : Message) : Except WireError (List UInt8) :=
  m.toRecordAs m.properties.canonicalOrder

end Message

namespace Record

/-- Reads a point in time that has to lie in the range of the calendar. -/
def getTimestamp (outOfRange : Int64 → WireError) : Reader Timestamp := do
  let millis ← Wire.getInt64
  match Timestamp.ofMillis? millis.toInt with
  | some t => pure t
  | none => Reader.fail (outOfRange millis)

/-- Reads an address. -/
def getAddress : Reader Address := do
  let text ← Wire.getText
  match Address.ofString text with
  | .ok address => pure address
  | .error e => Reader.fail (.badAddress e)

/-- Reads a priority. -/
def getPriority : Reader UInt8 := do
  let priority ← Wire.getUInt8
  if maxPriority < priority then Reader.fail (.badPriority priority) else pure priority

/-- Reads a value that is there only if so flagged. -/
def getOptional {α : Type} (flag flags : UInt8) (read : Reader α) : Reader (Option α) :=
  if flags &&& flag ≠ 0 then do return some (← read) else pure none

/-- Reads the body of a record with the given flags. -/
def getBody (flags : UInt8) : Reader Message := do
  if flags &&& ~~~(durableFlag ||| expirationFlag ||| userFlag) ≠ 0 then
    Reader.fail (.unknownFlags flags)
  else
    let id ← Reader.take 16
    let address ← getAddress
    let priority ← getPriority
    let timestamp ← getTimestamp .badTimestamp
    let expiration ← getOptional expirationFlag flags (getTimestamp .badExpiration)
    let userId ← getOptional userFlag flags Wire.getText
    let properties ← Properties.decode
    let body ← Wire.getBytes
    pure
      { id := MessageId.ofBytes id
        durable := flags &&& durableFlag ≠ 0
        address, priority, timestamp, expiration, userId, properties, body }

/-- The message in a record. Bytes after the record are not looked at. -/
def read (bytes : List UInt8) : Except WireError Message :=
  match RecordHeader.peek bytes with
  | .error e => .error e
  | .ok none => .error (.underflow headerSize bytes.length)
  | .ok (some header) =>
    if bytes.length < header.recordSize then
      .error (.underflow header.recordSize bytes.length)
    else
      let body := (bytes.drop headerSize).take header.bodyLength.toNat
      let computed := Checksum.ofBytes (bytes.take 12 ++ body)
      if computed ≠ header.checksum then .error (.checksumMismatch header.checksum computed)
      else
        match getBody header.flags body with
        | (.error e, _) => .error e
        | (.ok m, []) => .ok m
        | (.ok _, rest) => .error (.trailingBytes rest.length)

end Record

end Courier
