/-!
# UTF-16 Code Units

Texts travel as 16-bit code units. A character of the basic plane is one unit, any other is a
high surrogate followed by a low one. A unit sequence is well formed when every surrogate is
part of such a pair.

## Main definitions

* `Utf16.unitsOf`: the units of one character.
* `Utf16.encode`: the units of a text.
* `Utf16.decode?`: the text of a unit sequence, or `none` when a surrogate stands alone.
* `Utf16.unitText`: a single unit as text, with U+FFFD in place of a lone surrogate.
-/

namespace Courier.Utf16

/-- The units from U+D800 to U+DBFF open a pair. -/
def isHigh (u : UInt16) : Bool :=
  0xD800 ≤ u && u ≤ 0xDBFF

/-- The units from U+DC00 to U+DFFF close a pair. -/
def isLow (u : UInt16) : Bool :=
  0xDC00 ≤ u && u ≤ 0xDFFF

/-- The units of a character: one on the basic plane, a surrogate pair beyond it. -/
def unitsOf (c : Char) : List UInt16 :=
  if c.toNat < 0x10000 then [UInt16.ofNat c.toNat]
  else
    [UInt16.ofNat (0xD800 + (c.toNat - 0x10000) / 0x400),
     UInt16.ofNat (0xDC00 + (c.toNat - 0x10000) % 0x400)]

/-- The units of a text, character by character. -/
def encode (text : List Char) : List UInt16 :=
  text.flatMap unitsOf

/-- The character that a high and a low surrogate stand for. -/
def pair (high low : UInt16) : Char :=
  Char.ofNat (0x10000 + (high.toNat - 0xD800) * 0x400 + (low.toNat - 0xDC00))

/-- The text of a unit sequence. A surrogate outside a pair makes the sequence unreadable. -/
def decode? : List UInt16 → Option (List Char)
  | [] => some []
  | u :: rest =>
    if isHigh u then
      match rest with
      | v :: rest => if isLow v then (decode? rest).map (pair u v :: ·) else none
      | [] => none
    else if isLow u then none
    else (decode? rest).map (Char.ofNat u.toNat :: ·)

/-- One unit as text. A surrogate has no text of its own and shows as U+FFFD. -/
def unitText (u : UInt16) : String :=
  if isHigh u || isLow u then "\uFFFD" else String.singleton (Char.ofNat u.toNat)

/-- The number of units of a text. -/
def length (s : String) : Nat :=
  s.toList.foldl (fun n c => if c.toNat < 0x10000 then n + 1 else n + 2) 0

end Courier.Utf16
