import Courier.Number.Decimal
import Courier.Wire

/-!
# Property Values

A property value has one of eleven types, each with a tag byte and a name. Floating-point
values are kept as bit patterns, so that two values are equal exactly when they have the same
bits: every payload of a value that is no number survives, and the two zeros differ.

## Main definitions

* `PropertyType`, with `PropertyType.tag`, `PropertyType.ofTag` and `PropertyType.name`.
* `PropertyValue`: the values.
* `PropertyValue.text`: a value as text.
* `PropertyValue.encode`, `PropertyValue.decode`: a value as a tag byte and a payload.

## Main results

* `PropertyType.ofTag_tag`: the tag of a type names that type.
-/

namespace Courier

/-- The types of property values. -/
inductive PropertyType where
  | null
  | boolean
  | byte
  | bytes
  | short
  | int
  | long
  | float
  | double
  | string
  | char
  deriving DecidableEq, Repr

namespace PropertyType

/-- The byte that names a type on the wire. -/
def tag : PropertyType → UInt8
  | null => 0
  | boolean => 2
  | byte => 3
  | bytes => 4
  | short => 5
  | int => 6
  | long => 7
  | float => 8
  | double => 9
  | string => 10
  | char => 11

/-- The type that a byte names. -/
def ofTag (tag : UInt8) : Except WireError PropertyType :=
  match tag with
  | 0 => .ok null
  | 2 => .ok boolean
  | 3 => .ok byte
  | 4 => .ok bytes
  | 5 => .ok short
  | 6 => .ok int
  | 7 => .ok long
  | 8 => .ok float
  | 9 => .ok double
  | 10 => .ok string
  | 11 => .ok char
  | tag => .error (.unknownType tag)

/-- The name of a type in messages. -/
def name : PropertyType → String
  | null => "null"
  | boolean => "boolean"
  | byte => "byte"
  | bytes => "bytes"
  | short => "short"
  | int => "int"
  | long => "long"
  | float => "float"
  | double => "double"
  | string => "string"
  | char => "char"

@[simp] theorem ofTag_tag (type : PropertyType) : ofTag type.tag = .ok type := by
  cases type <;> rfl

end PropertyType

/-- A value of a property. -/
inductive PropertyValue where
  /-- No value. -/
  | null
  /-- A truth value. -/
  | boolean (b : Bool)
  /-- An 8-bit integer. -/
  | byte (n : Int8)
  /-- A byte array. -/
  | bytes (data : List UInt8)
  /-- A 16-bit integer. -/
  | short (n : Int16)
  /-- A 32-bit integer. -/
  | int (n : Int32)
  /-- A 64-bit integer. -/
  | long (n : Int64)
  /-- A single-precision number, by its bits. -/
  | float (bits : UInt32)
  /-- A double-precision number, by its bits. -/
  | double (bits : UInt64)
  /-- One UTF-16 unit. -/
  | char (unit : UInt16)
  /-- A text. -/
  | string (s : String)
  deriving DecidableEq, Repr

namespace PropertyValue

/-- The type of a value. -/
def type : PropertyValue → PropertyType
  | null => .null
  | boolean _ => .boolean
  | byte _ => .byte
  | bytes _ => .bytes
  | short _ => .short
  | int _ => .int
  | long _ => .long
  | float _ => .float
  | double _ => .double
  | char _ => .char
  | string _ => .string

/-- Whether this is the value that stands for no value. -/
def isNull : PropertyValue → Bool
  | null => true
  | _ => false

/-- Numbers in properties are written positionally from 0.001 up to ten million, and always with
a fraction. -/
def floatStyle : FloatStyle where
  least := -3
  limit := 7
  mark := "E"
  fullMantissa := true
  nan := "NaN"
  infinity := "Infinity"

/-- The printable ASCII characters as themselves and all other bytes as escapes. -/
def byteText (b : UInt8) : String :=
  if b = 0x22 then "\\\""
  else if b = 0x5c then "\\\\"
  else if b = 0x0a then "\\n"
  else if b = 0x0d then "\\r"
  else if b = 0x09 then "\\t"
  else if b = 0x00 then "\\0"
  else if 0x20 ≤ b ∧ b < 0x7f then String.singleton (Char.ofNat b.toNat)
  else "\\x" ++ hexText 2 b.toNat

/-- A value as text. -/
def text : PropertyValue → String
  | null => "null"
  | boolean b => if b then "true" else "false"
  | byte n => toString n.toInt
  | bytes data => "b\"" ++ String.join (data.map byteText) ++ "\""
  | short n => toString n.toInt
  | int n => toString n.toInt
  | long n => toString n.toInt
  | float bits => floatStyle.write .single bits.toNat
  | double bits => floatStyle.write .double bits.toNat
  | char unit => Utf16.unitText unit
  | string s => s

/-- The bytes of a value without its tag. -/
def payload : PropertyValue → List UInt8
  | null => []
  | boolean b => Wire.putBool b
  | byte n => [n.toUInt8]
  | bytes data => Wire.putBytes data
  | short n => Wire.bigEndian 2 n.toUInt16.toNat
  | int n => Wire.bigEndian 4 n.toUInt32.toNat
  | long n => Wire.bigEndian 8 n.toUInt64.toNat
  | float bits => Wire.bigEndian 4 bits.toNat
  | double bits => Wire.bigEndian 8 bits.toNat
  | char unit => Wire.bigEndian 2 unit.toNat
  | string s => Wire.putText s

/-- A value as bytes: its tag and its payload. -/
def encode (v : PropertyValue) : List UInt8 :=
  v.type.tag :: v.payload

/-- The number of bytes of a value with its tag. -/
def encodedSize : PropertyValue → Nat
  | null => 1
  | boolean _ => 2
  | byte _ => 2
  | bytes data => 5 + data.length
  | short _ => 3
  | int _ => 5
  | long _ => 9
  | float _ => 5
  | double _ => 9
  | char _ => 3
  | string s => 1 + Wire.textSize s

/-- Reads the payload of a value of a type. -/
def decodePayload : PropertyType → Reader PropertyValue
  | .null => pure null
  | .boolean => do return boolean (← Wire.getBool)
  | .byte => do return byte (← Wire.getInt8)
  | .bytes => do return bytes (← Wire.getBytes)
  | .short => do return short (← Wire.getInt16)
  | .int => do return int (← Wire.getInt32)
  | .long => do return long (← Wire.getInt64)
  | .float => do return float (← Wire.getUInt32)
  | .double => do return double (← Wire.getUInt64)
  | .string => do return string (← Wire.getText)
  | .char => do return char (← Wire.getUInt16)

/-- Reads a tag and the payload that it announces. -/
def decode : Reader PropertyValue := do
  let tag ← Wire.getUInt8
  match PropertyType.ofTag tag with
  | .ok type => decodePayload type
  | .error e => Reader.fail e

end PropertyValue

end Courier
