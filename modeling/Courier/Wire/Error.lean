import Courier.Address
import Courier.Text.Hex

/-!
# Wire Errors

Everything that can go wrong while bytes are read as values, properties or records. Each cause
is a constructor of its own; `WireError.message` is the only place that words them.

## Main definitions

* `WireError`: the causes.
* `WireError.message`: their reports.
* `WireError.isCorruption`: damage that a reader of a stream may skip past.
* `WireError.isViolation`: records that were meant for another reader.
-/

namespace Courier

/-- Why bytes cannot be read, or a message cannot be written. -/
inductive WireError where
  /-- A tag byte names no property type. -/
  | unknownType (tag : UInt8)
  /-- A container starts with neither of its two markers. -/
  | unknownMarker (marker : UInt8)
  /-- The bytes end before the value does. -/
  | underflow (required remaining : Nat)
  /-- A length prefix is negative, or odd where pairs of bytes follow. -/
  | badLength (length : Int)
  /-- A text holds a surrogate without its partner. -/
  | loneSurrogate
  /-- A record does not start with the magic bytes. -/
  | badMagic (expected found : List UInt8)
  /-- A record has a version that is not read here. -/
  | unsupportedVersion (version supported : UInt8)
  /-- A record body is larger than any body may be. -/
  | recordTooLarge (size max : Nat)
  /-- A record's checksum is not the one of its bytes. -/
  | checksumMismatch (stated computed : UInt32)
  /-- A record has flags that have no meaning. -/
  | unknownFlags (flags : UInt8)
  /-- A record's address is no address. -/
  | badAddress (error : AddressError)
  /-- A record's priority is out of range. -/
  | badPriority (priority : UInt8)
  /-- A record's creation time is out of range. -/
  | badTimestamp (millis : Int64)
  /-- A record's expiration time is out of range. -/
  | badExpiration (millis : Int64)
  /-- A record's body is longer than the message in it. -/
  | trailingBytes (count : Nat)
  deriving DecidableEq, Repr

namespace WireError

/-- Bytes as a list of numbers. -/
def byteList (bytes : List UInt8) : String :=
  "[" ++ ", ".intercalate (bytes.map fun b => toString b.toNat) ++ "]"

/-- The report of a wire error. -/
def message : WireError → String
  | unknownType tag => "Invalid property type: " ++ toString tag.toNat
  | unknownMarker marker => "Invalid container marker: " ++ toString marker.toNat
  | underflow required remaining =>
    "Buffer underflow: need " ++ toString required ++ " bytes, " ++ toString remaining ++
      " remaining"
  | badLength length => "Invalid length prefix: " ++ toString length
  | loneSurrogate => "Invalid string encoding: invalid utf-16: lone surrogate found"
  | badMagic expected found =>
    "Invalid record magic bytes: expected " ++ byteList expected ++ ", got " ++ byteList found
  | unsupportedVersion version supported =>
    "Unsupported protocol version: " ++ toString version.toNat ++ " (supported: " ++
      toString supported.toNat ++ ")"
  | recordTooLarge size max =>
    "Record size " ++ toString size ++ " exceeds maximum " ++ toString max
  | checksumMismatch stated computed =>
    "Checksum mismatch: expected 0x" ++ hexText 8 stated.toNat ++ ", computed 0x" ++
      hexText 8 computed.toNat
  | unknownFlags flags => "Decoding error: unknown record flags 0x" ++ hexText 2 flags.toNat
  | badAddress error => "Decoding error: " ++ error.message
  | badPriority priority =>
    "Decoding error: priority " ++ toString priority.toNat ++ " out of range"
  | badTimestamp millis => "Decoding error: timestamp " ++ toString millis.toInt ++ " out of range"
  | badExpiration millis =>
    "Decoding error: expiration " ++ toString millis.toInt ++ " out of range"
  | trailingBytes count =>
    "Decoding error: " ++ toString count ++ " trailing bytes after record body"

/-- Whether the error is damage of the bytes that a reader of a stream may skip past. -/
def isCorruption : WireError → Bool
  | badMagic .. | checksumMismatch .. | unknownType _ | unknownMarker _ | loneSurrogate
  | badLength _ => true
  | _ => false

/-- Whether the error is a record that another kind of reader might accept. -/
def isViolation : WireError → Bool
  | unsupportedVersion .. | recordTooLarge .. => true
  | _ => false

end WireError

end Courier
