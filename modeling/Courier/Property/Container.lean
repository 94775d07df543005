import Courier.Dictionary
import Courier.Property.Conversion

/-!
# Property Containers

A container maps keys to property values. It tells a container that was never written to from
one that was emptied, keeps the size of its encoding up to date, and remembers whether a key
with the reserved beginning was ever stored in it. It also keeps the number of its entries beside
them, where questions that an empty container can answer are settled without a look at the
entries. The number is taken anew at the end of every change.

On the wire a container is a marker byte and, unless it was never written to, the number of its
entries and the entries themselves. The order of the entries carries no meaning; `encode` puts
them in the order of their own bytes, so that equal containers have equal encodings, and
`encodeAs` takes them in any order.

## Main definitions

* `Properties`: a container.
* `Properties.put`, `Properties.remove`, `Properties.putAll`, `Properties.clear`: changing it.
* `Properties.getBool`, `Properties.getText` and their siblings: reading it through conversions.
* `Properties.encodeAs`, `Properties.encode`, `Properties.decode`: its bytes.
* `Properties.sameEntries`: equality of content.
-/

namespace Courier

/-- A map from keys to property values. -/
structure Properties where
  /-- The entries, once there was one. -/
  entries : Option (Dictionary String PropertyValue) := none
  /-- The number of bytes of the encoded entries. -/
  byteSize : Nat := 0
  /-- Whether a reserved key was ever stored. -/
  sawInternal : Bool := false
  /-- The number of entries after the last change. -/
  count : Nat := 0
  deriving DecidableEq

namespace Properties

/-- The beginning of keys that are reserved for the broker itself. -/
def internalStart : String := "_HQ_"

/-- Whether a key is reserved for the broker itself. -/
def isInternal (key : String) : Bool :=
  internalStart.toList.isPrefixOf key.toList

/-- The entries, of which a container that was never written to has none. -/
def toList (p : Properties) : List (String × PropertyValue) :=
  match p.entries with
  | none => []
  | some d => d.entries

instance : Repr Properties := ⟨fun p => reprPrec p.toList⟩

/-- The stored value, null included. -/
def stored? (p : Properties) (key : String) : Option PropertyValue :=
  p.entries.bind (·.get? key)

/-- The stored value; null counts as none. -/
def get? (p : Properties) (key : String) : Option PropertyValue :=
  (p.stored? key).filter fun v => !v.isNull

/-- The number of entries. -/
def size (p : Properties) : Nat :=
  p.count

/-- Whether there are no entries. -/
def isEmpty (p : Properties) : Bool :=
  p.size = 0

/-- Whether a key is set, be it to null. -/
def contains (p : Properties) (key : String) : Bool :=
  if p.isEmpty then false else (p.stored? key).isSome

/-- The keys in order. -/
def names (p : Properties) : List String :=
  p.toList.map Prod.fst

/-- Whether two containers have the same content. The memory of reserved keys is no content. -/
def sameEntries (p q : Properties) : Bool :=
  p.entries = q.entries

/-- The number of bytes of an encoded entry. -/
def entrySize (key : String) (v : PropertyValue) : Nat :=
  Wire.textSize key + v.encodedSize

/-! ### Changes -/

/-- The container at the end of a change: its entries are counted anew. -/
def recount (p : Properties) : Properties :=
  { p with count := p.toList.length }

/-- Sets the value under a key within a change. -/
def insertEntry (p : Properties) (key : String) (v : PropertyValue) : Properties :=
  { p with
    entries := some ((p.entries.getD .empty).insert key v)
    byteSize :=
      match p.stored? key with
      | some old => p.byteSize - old.encodedSize + v.encodedSize
      | none => p.byteSize + entrySize key v
    sawInternal := p.sawInternal || isInternal key }

/-- Takes out the entry under a key within a change. -/
def eraseEntry (p : Properties) (key : String) : Properties :=
  match p.entries, p.stored? key with
  | some d, some old =>
    { p with entries := some (d.erase key), byteSize := p.byteSize - entrySize key old }
  | _, _ => p

/-- The container with the value under a key set. -/
def put (p : Properties) (key : String) (v : PropertyValue) : Properties :=
  (p.insertEntry key v).recount

/-- The container without the entry under a key. -/
def remove (p : Properties) (key : String) : Properties :=
  if p.isEmpty then p else (p.eraseEntry key).recount

/-- The container without entries. One that was never written to stays that way. -/
def clear (p : Properties) : Properties :=
  match p.entries with
  | some _ => recount { p with entries := some .empty, byteSize := 0 }
  | none => p.recount

/-- The container without reserved keys. -/
def clearInternal (p : Properties) : Properties :=
  ((p.names.filter isInternal).foldl eraseEntry p).recount

/-- The container with all entries of another put into it. -/
def putAll (p q : Properties) : Properties :=
  match q.entries with
  | some d => (d.entries.foldl (fun p e => p.insertEntry e.1 e.2) p).recount
  | none => p

/-- The container with the given entries put into it one after another. -/
def ofList (entries : List (String × PropertyValue)) : Properties :=
  entries.foldl (fun p e => p.put e.1 e.2) {}

/-! ### Reading through conversions -/

section Conversions

variable {α : Type}

/-- Reads a value that has to be there. -/
def require (convert : PropertyValue → Except ConversionFault α) (p : Properties) (key : String) :
    Except ConversionError α :=
  match p.get? key with
  | some v => (convert v).mapError (⟨key, ·⟩)
  | none => .error ⟨key, .notSet⟩

/-- Reads a value that may be missing. -/
def optional (convert : PropertyValue → Except ConversionFault α) (p : Properties) (key : String) :
    Except ConversionError (Option α) :=
  match p.get? key with
  | some v => ((convert v).mapError (⟨key, ·⟩)).map some
  | none => .ok none

/-- Reads a truth value; a missing one is false. -/
def getBool (p : Properties) (key : String) : Except ConversionError Bool :=
  (p.optional PropertyValue.toBool? key).map (·.getD false)

/-- Reads a byte. -/
def getByte : Properties → String → Except ConversionError Int8 :=
  require PropertyValue.toByte?

/-- Reads a 16-bit integer. -/
def getShort : Properties → String → Except ConversionError Int16 :=
  require PropertyValue.toShort?

/-- Reads a 32-bit integer. -/
def getInt : Properties → String → Except ConversionError Int32 :=
  require PropertyValue.toInt?

/-- Reads a 64-bit integer. -/
def getLong : Properties → String → Except ConversionError Int64 :=
  require PropertyValue.toLong?

/-- Reads a single-precision number. -/
def getFloat : Properties → String → Except ConversionError UInt32 :=
  require PropertyValue.toFloat?

/-- Reads a double-precision number. -/
def getDouble : Properties → String → Except ConversionError UInt64 :=
  require PropertyValue.toDouble?

/-- Reads a unit. -/
def getChar : Properties → String → Except ConversionError UInt16 :=
  require PropertyValue.toChar?

/-- Reads a text, which may be missing. -/
def getText : Properties → String → Except ConversionError (Option String) :=
  optional PropertyValue.toText?

/-- Reads a byte array, which may be missing. -/
def getBytes : Properties → String → Except ConversionError (Option (List UInt8)) :=
  optional PropertyValue.toBytes?

end Conversions

/-! ### Text and bytes -/

/-- The entries as text, in key order. -/
def text (p : Properties) : String :=
  "TypedProperties[" ++ ",".intercalate (p.toList.map fun e => e.1 ++ "=" ++ e.2.text) ++ "]"

/-- An entry as bytes. -/
def encodeEntry (e : String × PropertyValue) : List UInt8 :=
  Wire.putText e.1 ++ e.2.encode

/-- Whether bytes stand before other bytes in dictionary order, or are equal to them. -/
def bytesBefore : List UInt8 → List UInt8 → Bool
  | [], _ => true
  | _ :: _, [] => false
  | a :: as, b :: bs => a < b || (a = b && bytesBefore as bs)

/-- The entries in the order of their bytes. -/
def canonicalOrder (p : Properties) : List (String × PropertyValue) :=
  p.toList.mergeSort fun e f => bytesBefore (encodeEntry e) (encodeEntry f)

/-- The container as bytes with the entries in a given order. -/
def encodeAs (order : List (String × PropertyValue)) (p : Properties) : List UInt8 :=
  match p.entries with
  | none => [0]
  | some _ => 1 :: Wire.putLength order.length ++ order.flatMap encodeEntry

/-- The container as bytes. -/
def encode (p : Properties) : List UInt8 :=
  p.encodeAs p.canonicalOrder

/-- The number of bytes of the container. -/
def encodeSize (p : Properties) : Nat :=
  match p.entries with
  | none => 1
  | some _ => 5 + p.byteSize

/-- Reads an entry. -/
def decodeEntry : Reader (String × PropertyValue) := do
  let key ← Wire.getText
  let v ← PropertyValue.decode
  pure (key, v)

/-- The container with an entry set that was read. The new entry is counted as a whole, and an
entry that it replaces is then taken off as a whole. -/
def tally (p : Properties) (key : String) (v : PropertyValue) : Properties :=
  { p with
    entries := some ((p.entries.getD .empty).insert key v)
    byteSize :=
      match p.stored? key with
      | some old => p.byteSize + entrySize key v - entrySize key old
      | none => p.byteSize + entrySize key v
    sawInternal := p.sawInternal || isInternal key }

/-- Reads a number of entries into a container; a key that comes again replaces its value. -/
def decodeEntries : Nat → Properties → Reader Properties
  | 0, p => pure p
  | count + 1, p => do
    let e ← decodeEntry
    decodeEntries count (p.tally e.1 e.2)

/-- Reads a container. -/
def decode : Reader Properties := do
  let marker ← Wire.getUInt8
  if marker = 0 then pure {}
  else if marker = 1 then
    let count ← Wire.getLength
    let p ← decodeEntries count { entries := some .empty }
    pure p.recount
  else Reader.fail (.unknownMarker marker)

/-- The container after reading another one in its place. It changes only if the whole of the
other is there, and it keeps the memory of reserved keys. -/
def replaceFrom (p : Properties) (bytes : List UInt8) :
    Properties × Except WireError Unit × List UInt8 :=
  match decode bytes with
  | (.ok q, rest) => ({ q with sawInternal := q.sawInternal || p.sawInternal }, .ok (), rest)
  | (.error e, rest) => (p, .error e, rest)

end Properties

end Courier
