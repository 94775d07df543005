import Courier.Property.Value
import Courier.Text.Quoted

/-!
# Property Conversions

A property may be asked for under another type than the one it was stored with. Integers and
floating-point numbers widen, texts are read as any scalar type, everything but a byte array has
a textual form, and nothing else converts. Unset properties and null are told apart from values:
they read as false, as no value, or not at all, depending on what is asked for.

## Main definitions

* `ConversionError`: why a property does not convert.
* `PropertyValue.toBool?` and its siblings: one conversion for each type.
-/

namespace Courier

/-- The scalar faults of a text that is read as a number. -/
inductive NumberFault where
  /-- The text is no integer of the range. -/
  | integer (fault : IntegerFault)
  /-- The text is no floating-point number. -/
  | float (fault : FloatFault)
  deriving DecidableEq, Repr

/-- The report of a number fault. -/
def NumberFault.message : NumberFault → String
  | .integer fault => fault.message
  | .float fault => fault.message

/-- Why a property does not convert. -/
inductive ConversionFault where
  /-- There is no value. -/
  | notSet
  /-- Values of the one type do not convert to the other. -/
  | notAllowed (stored requested : PropertyType)
  /-- The stored text cannot be read as the type asked for. -/
  | unreadable (text : String) (requested : PropertyType) (fault : NumberFault)
  deriving DecidableEq, Repr

/-- A conversion that failed, with the key of its property. -/
structure ConversionError where
  /-- The key that was asked for. -/
  key : String
  /-- What went wrong. -/
  fault : ConversionFault
  deriving DecidableEq, Repr

/-- The report of a conversion fault. -/
def ConversionFault.message : ConversionFault → String
  | .notSet => "property not set"
  | .notAllowed stored requested =>
    "cannot convert " ++ stored.name ++ " to " ++ requested.name
  | .unreadable text requested fault =>
    "cannot parse " ++ Text.quoted text ++ " as " ++ requested.name ++ ": " ++ fault.message

/-- The report of a conversion error. -/
def ConversionError.message (e : ConversionError) : String :=
  "Property conversion failed for '" ++ e.key ++ "': " ++ e.fault.message

namespace PropertyValue

/-- Reads a text as a signed integer of a type's width. -/
def readInteger (bits : Nat) (requested : PropertyType) (s : String) :
    Except ConversionFault Int :=
  (Integer.readSigned bits s).mapError fun fault => .unreadable s requested (.integer fault)

/-- Reads a text as a bit pattern of a floating-point type. -/
def readFloat (f : BinaryFormat) (requested : PropertyType) (s : String) :
    Except ConversionFault Nat :=
  (f.read s).mapError fun fault => .unreadable s requested (.float fault)

/-- Truth values, and texts, which are true when they spell `true` in any case. -/
def toBool? : PropertyValue → Except ConversionFault Bool
  | boolean b => .ok b
  | string s => .ok (s.toList.map Char.toLower = "true".toList)
  | v => .error (.notAllowed v.type .boolean)

/-- Bytes, and texts of their range. -/
def toByte? : PropertyValue → Except ConversionFault Int8
  | byte n => .ok n
  | string s => (readInteger 8 .byte s).map Int8.ofInt
  | v => .error (.notAllowed v.type .byte)

/-- Integers up to 16 bits, and texts of that range. -/
def toShort? : PropertyValue → Except ConversionFault Int16
  | byte n => .ok n.toInt16
  | short n => .ok n
  | string s => (readInteger 16 .short s).map Int16.ofInt
  | v => .error (.notAllowed v.type .short)

/-- Integers up to 32 bits, and texts of that range. -/
def toInt? : PropertyValue → Except ConversionFault Int32
  | byte n => .ok n.toInt32
  | short n => .ok n.toInt32
  | int n => .ok n
  | string s => (readInteger 32 .int s).map Int32.ofInt
  | v => .error (.notAllowed v.type .int)

/-- Integers of any width, and texts of the widest range. -/
def toLong? : PropertyValue → Except ConversionFault Int64
  | byte n => .ok n.toInt64
  | short n => .ok n.toInt64
  | int n => .ok n.toInt64
  | long n => .ok n
  | string s => (readInteger 64 .long s).map Int64.ofInt
  | v => .error (.notAllowed v.type .long)

/-- Single-precision numbers, and texts. -/
def toFloat? : PropertyValue → Except ConversionFault UInt32
  | float bits => .ok bits
  | string s => (readFloat .single .float s).map UInt32.ofNat
  | v => .error (.notAllowed v.type .float)

/-- Numbers of both precisions, and texts. -/
def toDouble? : PropertyValue → Except ConversionFault UInt64
  | float bits => .ok (UInt64.ofNat (BinaryFormat.widen bits.toNat))
  | double bits => .ok bits
  | string s => (readFloat .double .double s).map UInt64.ofNat
  | v => .error (.notAllowed v.type .double)

/-- The textual form of everything but byte arrays. -/
def toText? : PropertyValue → Except ConversionFault String
  | bytes _ => .error (.notAllowed .bytes .string)
  | v => .ok v.text

/-- Byte arrays alone. -/
def toBytes? : PropertyValue → Except ConversionFault (List UInt8)
  | bytes data => .ok data
  | v => .error (.notAllowed v.type .bytes)

/-- Units alone. -/
def toChar? : PropertyValue → Except ConversionFault UInt16
  | char unit => .ok unit
  | v => .error (.notAllowed v.type .char)

end PropertyValue

end Courier
