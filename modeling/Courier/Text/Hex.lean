/-!
# Hexadecimal Text

Numbers and bytes in hexadecimal digits. Digits are written in lower case and read in either.

## Main definitions

* `hexText`: a number with a least number of digits.
* `Hex.digit?`, `Hex.number?`: the value of a digit and of digits.
* `Hex.ofBytes`, `Hex.bytes?`: bytes, two digits for each.
-/

namespace Courier

/-- The lower-case hexadecimal form of a number, padded to a width. -/
def hexText (width n : Nat) : String :=
  let digits := Nat.toDigits 16 n
  String.ofList (List.replicate (width - digits.length) '0' ++ digits)

namespace Hex

/-- The value of a hexadecimal digit. -/
def digit? (c : Char) : Option Nat :=
  if '0' ≤ c ∧ c ≤ '9' then some (c.toNat - '0'.toNat)
  else if 'a' ≤ c ∧ c ≤ 'f' then some (c.toNat - 'a'.toNat + 10)
  else if 'A' ≤ c ∧ c ≤ 'F' then some (c.toNat - 'A'.toNat + 10)
  else none

/-- The number that hexadecimal digits spell. -/
def number? (digits : List Char) : Option Nat :=
  digits.foldlM (fun n c => (digit? c).map (n * 16 + ·)) 0

/-- Bytes as pairs of digits. -/
def ofBytes (bytes : List UInt8) : String :=
  String.ofList (bytes.flatMap fun b => (hexText 2 b.toNat).toList)

/-- Reads pairs of digits, behind bytes that were read already, the latest first. -/
def readBytes? : List UInt8 → List Char → Option (List UInt8)
  | found, [] => some found.reverse
  | _, [_] => none
  | found, a :: b :: rest =>
    match digit? a, digit? b with
    | some x, some y => readBytes? (UInt8.ofNat (x * 16 + y) :: found) rest
    | _, _ => none

/-- The bytes that pairs of digits spell. -/
def bytes? (text : String) : Option (List UInt8) :=
  readBytes? [] text.toList

end Hex

end Courier
