import Courier.Property.Container

/-!
# Messages

A message has an identifier, an address, a body of bytes, delivery settings and properties.
Times have nanoseconds and lie within the range of the calendar; where they travel, they are told
in whole milliseconds.

Identifiers of new messages come from a supply that is handed along, so every operation that
makes a message is a function of what it is given.

## Main definitions

* `MessageId`, with `MessageId.text` and `MessageId.ofText?`: 128 bits, written in five groups
  of hexadecimal digits, and read in that form and a few others.
* `IdSupply`: the identifiers that are still to be handed out.
* `Timestamp`: a point in time, with `Timestamp.truncated` and `Timestamp.IsWhole`: what is left
  of it in whole milliseconds, and that nothing is lost there.
* `Message`, `MessageDraft`: a message, and what one is built from.
* `Message.isExpired`, `Message.lastValue?`: what queues ask of a message.
-/

namespace Courier

/-- A message identifier. -/
structure MessageId where
  /-- The 128 bits. -/
  bits : BitVec 128
  deriving DecidableEq, Repr

namespace MessageId

instance : Ord MessageId := ⟨fun a b => compare a.bits b.bits⟩

theorem compare_eq (a b : MessageId) : compare a b = compare a.bits b.bits := rfl

instance : Std.TransOrd MessageId where
  eq_swap {a b} := by
    simp only [compare_eq]
    exact Std.OrientedCmp.eq_swap
  isLE_trans {a b c} hab hbc := by
    simp only [compare_eq] at *
    exact Std.TransCmp.isLE_trans hab hbc

instance : Std.LawfulEqOrd MessageId where
  compare_self {a} := by
    simp only [compare_eq]
    exact Std.ReflCmp.compare_self
  eq_of_compare {a b} h := by
    cases a; cases b
    exact congrArg _ (Std.LawfulEqCmp.eq_of_compare (compare_eq .. ▸ h))

/-- The sixteen bytes of an identifier. -/
def bytes (id : MessageId) : List UInt8 :=
  Wire.bigEndian 16 id.bits.toNat

/-- The identifier with the given bytes. -/
def ofBytes (bytes : List UInt8) : MessageId :=
  ⟨BitVec.ofNat 128 (Wire.ofBigEndian bytes)⟩

/-- The written form: hexadecimal digits in groups of 8, 4, 4, 4 and 12. -/
def text (id : MessageId) : String :=
  let n := id.bits.toNat
  hexText 8 (n >>> 96) ++ "-" ++ hexText 4 (n >>> 80 % 1 <<< 16) ++ "-" ++
    hexText 4 (n >>> 64 % 1 <<< 16) ++ "-" ++ hexText 4 (n >>> 48 % 1 <<< 16) ++ "-" ++
    hexText 12 (n % 1 <<< 48)

/-- The identifier that hexadecimal digits spell. -/
def ofDigits? (digits : List Char) : Option MessageId :=
  (Hex.number? digits).map fun n => ⟨BitVec.ofNat 128 n⟩

/-- The identifier that digits in groups of 8, 4, 4, 4 and 12 spell. -/
def ofGroups? (text : List Char) : Option MessageId :=
  let groups := text.splitOn '-'
  if groups.map List.length = [8, 4, 4, 4, 12] then ofDigits? groups.flatten else none

/-- The identifier that a text stands for: 32 digits, or digits in groups, which may have braces
around them or the words in front that mark an identifier. -/
def ofText? (text : String) : Option MessageId :=
  match text.toList with
  | '\x7b' :: rest => if rest.getLast? = some '\x7d' then ofGroups? rest.dropLast else none
  | 'u' :: 'r' :: 'n' :: ':' :: 'u' :: 'u' :: 'i' :: 'd' :: ':' :: rest => ofGroups? rest
  | rest => if rest.length = 32 then ofDigits? rest else ofGroups? rest

end MessageId

/-- The identifiers that new messages get, one after another. -/
structure IdSupply where
  /-- The identifiers by their turn. -/
  id : Nat → MessageId
  /-- The number of turns that are over. -/
  used : Nat := 0

namespace IdSupply

/-- The identifier whose turn it is. -/
def next (ids : IdSupply) : MessageId :=
  ids.id ids.used

/-- The supply after that turn. -/
def advance (ids : IdSupply) : IdSupply :=
  { ids with used := ids.used + 1 }

end IdSupply

/-- A point in time: a second since 1970, and the nanoseconds since that second began. A leap
second has no number of its own; it is told as a second in which the nanoseconds run on to two. -/
structure Timestamp where
  /-- The seconds since 1970. -/
  seconds : Int
  /-- The nanoseconds since the second began. -/
  nanos : Nat
  /-- The nanoseconds lie in the second or in the leap second after it. -/
  nanos_lt : nanos < 2000000000
  /-- The point lies in the range of the calendar. -/
  inRange : -8334601228800 ≤ seconds ∧
    (seconds < 8210266876799 ∨ seconds = 8210266876799 ∧ nanos < 1000000000)
  deriving DecidableEq

namespace Timestamp

instance : Repr Timestamp := ⟨fun t => reprPrec (t.seconds, t.nanos)⟩

/-- Times are in the order of their seconds, and within one second in that of the nanoseconds. -/
instance : LE Timestamp :=
  ⟨fun a b => a.seconds < b.seconds ∨ a.seconds = b.seconds ∧ a.nanos ≤ b.nanos⟩

instance (a b : Timestamp) : Decidable (a ≤ b) :=
  inferInstanceAs (Decidable (a.seconds < b.seconds ∨ a.seconds = b.seconds ∧ a.nanos ≤ b.nanos))

/-- The whole milliseconds since 1970. -/
def millis (t : Timestamp) : Int :=
  t.seconds * 1000 + t.nanos / 1000000

/-- The milliseconds that lie in the range of the calendar. -/
def MillisInRange (millis : Int) : Prop :=
  -8334601228800000 ≤ millis ∧ millis ≤ 8210266876799999

instance (millis : Int) : Decidable (MillisInRange millis) :=
  inferInstanceAs (Decidable (_ ∧ _))

theorem millis_inRange (t : Timestamp) : MillisInRange t.millis := by
  obtain ⟨seconds, nanos, hnanos, hrange⟩ := t
  simp only [MillisInRange, millis]
  omega

/-- The point in time at a whole millisecond. -/
def atMillis (millis : Int) (h : MillisInRange millis) : Timestamp where
  seconds := millis / 1000
  nanos := (millis % 1000).toNat * 1000000
  nanos_lt := by omega
  inRange := by
    simp only [MillisInRange] at h
    omega

/-- The point in time at a whole millisecond, unless it lies outside the range of the calendar. -/
def ofMillis? (millis : Int) : Option Timestamp :=
  if h : MillisInRange millis then some (atMillis millis h) else none

/-- The point in time as it is told in whole milliseconds. -/
def truncated (t : Timestamp) : Timestamp :=
  atMillis t.millis t.millis_inRange

/-- The time is a whole number of milliseconds, and not in a leap second. -/
def IsWhole (t : Timestamp) : Prop :=
  t.nanos < 1000000000 ∧ 1000000 ∣ t.nanos

instance (t : Timestamp) : Decidable t.IsWhole :=
  inferInstanceAs (Decidable (_ ∧ _))

/-- The start of 1970. -/
def epoch : Timestamp := ⟨0, 0, by decide, by decide⟩

instance : Inhabited Timestamp := ⟨epoch⟩

/-- A point in time as it travels: in whole milliseconds. -/
def bytes (t : Timestamp) : List UInt8 :=
  Wire.bigEndian 8 (Int64.ofInt t.millis).toUInt64.toNat

end Timestamp

/-! ### The names of properties that the broker sets -/

/-- The properties that the broker itself sets or reads. -/
inductive Header where
  /-- The value that groups messages in a last-value queue. -/
  | lastValue
  /-- The address that a forwarded message was sent to before. -/
  | sourceAddress
  /-- The message that a forwarded message was copied from. -/
  | sourceMessage
  /-- The queue that a forwarded message was taken from. -/
  | sourceQueue
  /-- The time at which an expired message was taken out. -/
  | actualExpiry
  deriving DecidableEq, Repr

/-- The property name of a header. -/
def Header.key : Header → String
  | lastValue => "_AMQ_LVQ_NAME"
  | sourceAddress => "_AMQ_ORIG_ADDRESS"
  | sourceMessage => "_AMQ_ORIG_MESSAGE_ID"
  | sourceQueue => "_AMQ_ORIG_QUEUE"
  | actualExpiry => "_AMQ_ACTUAL_EXPIRY"

/-! ### Messages -/

/-- A message. -/
structure Message where
  /-- The identifier. -/
  id : MessageId
  /-- The address that the message is sent to. -/
  address : Address
  /-- The content. -/
  body : List UInt8 := []
  /-- Whether the message outlives a restart. -/
  durable : Bool := false
  /-- The priority; a message that is built has at most 9. -/
  priority : UInt8 := 4
  /-- The time of creation. -/
  timestamp : Timestamp
  /-- The time from which on the message is no longer delivered. -/
  expiration : Option Timestamp := none
  /-- The user who sent the message. -/
  userId : Option String := none
  /-- The properties. -/
  properties : Properties := {}
  deriving DecidableEq, Repr

/-- The greatest priority. -/
def maxPriority : UInt8 := 9

/-- Why no message can be built. -/
inductive MessageError where
  /-- No address was given. -/
  | noAddress
  /-- The priority is above the greatest one. -/
  | badPriority (priority : UInt8)
  /-- The address is no address. -/
  | badAddress (error : AddressError)
  deriving DecidableEq, Repr

/-- The report of a message error. -/
def MessageError.message : MessageError → String
  | noAddress => "Invalid message: Address is required"
  | badPriority priority =>
    "Invalid message: Priority " ++ toString priority.toNat ++ " is outside 0..=9"
  | badAddress error => error.message

/-- What a message is built from. -/
structure MessageDraft where
  /-- The address, which has to be given. -/
  address : Option String := none
  /-- The content. -/
  body : List UInt8 := []
  /-- Whether the message outlives a restart. -/
  durable : Bool := false
  /-- The priority. -/
  priority : UInt8 := 4
  /-- The time from which on the message is no longer delivered. -/
  expiration : Option Timestamp := none
  /-- The user who sends the message. -/
  userId : Option String := none
  /-- The properties. -/
  properties : Properties := {}
  deriving DecidableEq, Repr

/-- The message that a draft describes, with an identifier and a time of creation. -/
def MessageDraft.build (draft : MessageDraft) (id : MessageId) (timestamp : Timestamp) :
    Except MessageError Message :=
  match draft.address with
  | none => .error .noAddress
  | some text =>
    if maxPriority < draft.priority then .error (.badPriority draft.priority)
    else
      match Address.ofString text with
      | .error e => .error (.badAddress e)
      | .ok address =>
        .ok
          { id, address, timestamp
            body := draft.body
            durable := draft.durable
            priority := draft.priority
            expiration := draft.expiration
            userId := draft.userId
            properties := draft.properties }

namespace Message

/-- A message with nothing but an address and a body. -/
def plain (text : String) (body : List UInt8) (id : MessageId) (timestamp : Timestamp) :
    Except AddressError Message :=
  (Address.ofString text).map fun address => { id, address, body, timestamp }

/-- The message under another identifier. -/
def copy (m : Message) (id : MessageId) : Message :=
  { m with id }

/-- Whether the message is no longer delivered at a time. -/
def isExpired (m : Message) (now : Timestamp) : Bool :=
  m.expiration.any (· ≤ now)

/-- The text of a property that groups messages, if the property has a text. -/
def lastValue? (m : Message) (key : String) : Option String :=
  match m.properties.getText key with
  | .ok value => value
  | .error _ => none

/-- Whether two messages have the same content and settings. -/
def sameContent (m n : Message) : Bool :=
  { m with properties := {} } = { n with properties := {} } &&
    m.properties.sameEntries n.properties

/-- The message with the text of a header set. -/
def withHeader (m : Message) (header : Header) (value : PropertyValue) : Message :=
  { m with properties := m.properties.put header.key value }

end Message

end Courier
