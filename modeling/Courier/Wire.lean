import Courier.Text.Utf16
import Courier.Wire.Error

/-!
# Wire Primitives

Numbers travel with their most significant byte first. Byte arrays and texts carry a signed
32-bit length in front. A text is the sequence of its UTF-16 units, each with its low byte
first, and its length counts bytes.

A reader consumes bytes from the front of what is left. It hands back the rest in every case:
a failed reader may have consumed the length in front of the value that it could not read.

## Main definitions

* `Reader`: what is read, or why nothing could be read, and the bytes left over.
* `Wire.bigEndian`, `Wire.ofBigEndian`: numbers as bytes of a given count.
* `Wire.putText`, `Wire.getText`: texts.
* `Wire.putBytes`, `Wire.getBytes`: byte arrays.
-/

namespace Courier

/-- Reads a value from the front of some bytes and tells what is left of them. -/
def Reader (α : Type) : Type :=
  List UInt8 → Except WireError α × List UInt8

namespace Reader

variable {α β : Type}

/-- Reads nothing. -/
protected def pure (a : α) : Reader α := fun bytes => (.ok a, bytes)

/-- Reads one value and goes on with what follows it. -/
protected def bind (read : Reader α) (next : α → Reader β) : Reader β := fun bytes =>
  match read bytes with
  | (.ok a, rest) => next a rest
  | (.error e, rest) => (.error e, rest)

instance : Monad Reader where
  pure := Reader.pure
  bind := Reader.bind

/-- Reads nothing and fails. -/
def fail (e : WireError) : Reader α := fun bytes => (.error e, bytes)

/-- Reads nothing, and fails unless so many bytes are left. -/
def ensure (count : Nat) : Reader Unit := fun bytes =>
  if count ≤ bytes.length then (.ok (), bytes)
  else (.error (.underflow count bytes.length), bytes)

/-- Reads so many bytes. -/
def take (count : Nat) : Reader (List UInt8) := fun bytes =>
  if count ≤ bytes.length then (.ok (bytes.take count), bytes.drop count)
  else (.error (.underflow count bytes.length), bytes)

/-- The value alone, for bytes that are read for their value only. -/
def value (read : Reader α) (bytes : List UInt8) : Except WireError α :=
  (read bytes).1

end Reader

namespace Wire

/-- A number as so many bytes, the most significant one first; higher parts are cut off. -/
def bigEndian : Nat → Nat → List UInt8
  | 0, _ => []
  | count + 1, n => UInt8.ofNat (n >>> (8 * count)) :: bigEndian count n

/-- The number whose bytes these are, the most significant one first. -/
def ofBigEndian (bytes : List UInt8) : Nat :=
  bytes.foldl (fun n b => n * 256 + b.toNat) 0

/-- Reads a number of so many bytes. -/
def getNat (count : Nat) : Reader Nat := do
  let bytes ← Reader.take count
  pure (ofBigEndian bytes)

/-- Reads one byte. -/
def getUInt8 : Reader UInt8 := do
  let n ← getNat 1
  pure (UInt8.ofNat n)

/-- Reads a 16-bit unsigned number. -/
def getUInt16 : Reader UInt16 := do
  let n ← getNat 2
  pure (UInt16.ofNat n)

/-- Reads a 32-bit unsigned number. -/
def getUInt32 : Reader UInt32 := do
  let n ← getNat 4
  pure (UInt32.ofNat n)

/-- Reads a 64-bit unsigned number. -/
def getUInt64 : Reader UInt64 := do
  let n ← getNat 8
  pure (UInt64.ofNat n)

/-- Reads a signed byte. -/
def getInt8 : Reader Int8 := do
  let n ← getUInt8
  pure n.toInt8

/-- Reads a 16-bit signed number. -/
def getInt16 : Reader Int16 := do
  let n ← getUInt16
  pure n.toInt16

/-- Reads a 32-bit signed number. -/
def getInt32 : Reader Int32 := do
  let n ← getUInt32
  pure n.toInt32

/-- Reads a 64-bit signed number. -/
def getInt64 : Reader Int64 := do
  let n ← getUInt64
  pure n.toInt64

/-- Reads a truth value: any byte but zero is true. -/
def getBool : Reader Bool := do
  let b ← getUInt8
  pure (b ≠ 0)

/-- A truth value as a byte. -/
def putBool (b : Bool) : List UInt8 :=
  [if b then 1 else 0]

/-- A length prefix: 32 bits, of which the highest is the sign. -/
def putLength (n : Nat) : List UInt8 :=
  bigEndian 4 n

/-- Reads a length prefix that is not negative. -/
def getLength : Reader Nat := do
  let n ← getInt32
  if n < 0 then Reader.fail (.badLength n.toInt) else pure n.toNatClampNeg

/-- A byte array: its length and its bytes. -/
def putBytes (bytes : List UInt8) : List UInt8 :=
  putLength bytes.length ++ bytes

/-- Reads a byte array. -/
def getBytes : Reader (List UInt8) := do
  let length ← getLength
  Reader.take length

/-- Units as bytes, each with its low byte first. -/
def unitBytes (units : List UInt16) : List UInt8 :=
  units.flatMap fun u => [UInt8.ofNat (u.toNat % 256), UInt8.ofNat (u.toNat / 256)]

/-- Pairs of bytes as units, each with its low byte first. -/
def ofUnitBytes : List UInt8 → List UInt16
  | low :: high :: rest => UInt16.ofNat (low.toNat + 256 * high.toNat) :: ofUnitBytes rest
  | _ => []

/-- The number of bytes of a text's units. -/
def textLength (s : String) : Nat :=
  2 * Utf16.length s

/-- The number of bytes of a text with its length. -/
def textSize (s : String) : Nat :=
  4 + textLength s

/-- A text: the byte count of its units and the units. -/
def putText (s : String) : List UInt8 :=
  putLength (textLength s) ++ unitBytes (Utf16.encode s.toList)

/-- Reads a text. The units are consumed also when they are no text. -/
def getText : Reader String := do
  let length ← getLength
  if length % 2 ≠ 0 then Reader.fail (.badLength length)
  else
    let bytes ← Reader.take length
    match Utf16.decode? (ofUnitBytes bytes) with
    | some text => pure (String.ofList text)
    | none => Reader.fail .loneSurrogate

end Wire

end Courier
