import Courier.Text.CodeRanges

/-!
# Character Classes

Predicates on characters that the selector language, addresses and quoted text rely on. Each
class is the Unicode property of that name, so it agrees with the ASCII class on ASCII and
also covers the rest of the code space.

## Main definitions

* `Text.isAlphabetic`, `Text.isAlphanumeric`: letters, and letters or number signs.
* `Text.isBlank`: the property `White_Space`.
* `Text.isControl`: the general category `Cc`.
* `Text.isUnprintable`: characters that quoted text spells out by number.
-/

namespace Courier.Text

/-- Whether `n` lies in one of the ascending closed ranges. -/
def inRanges : List (Nat × Nat) → Nat → Bool
  | [], _ => false
  | (low, high) :: rest, n => low ≤ n && (n ≤ high || inRanges rest n)

/-- The property `Alphabetic`. -/
def isAlphabetic (c : Char) : Bool :=
  inRanges CodeRanges.alphabetic c.toNat

/-- Alphabetic characters and number signs. -/
def isAlphanumeric (c : Char) : Bool :=
  isAlphabetic c || inRanges CodeRanges.numeric c.toNat

/-- The property `White_Space`, the blanks between the tokens of a selector. -/
def isBlank (c : Char) : Bool :=
  inRanges
    [(0x9, 0xd), (0x20, 0x20), (0x85, 0x85), (0xa0, 0xa0), (0x1680, 0x1680), (0x2000, 0x200a),
     (0x2028, 0x2029), (0x202f, 0x202f), (0x205f, 0x205f), (0x3000, 0x3000)]
    c.toNat

/-- The general category `Cc`: the two blocks of control codes. -/
def isControl (c : Char) : Bool :=
  inRanges [(0x0, 0x1f), (0x7f, 0x9f)] c.toNat

/-- Characters that leave no mark of their own, or that join the character before them. -/
def isUnprintable (c : Char) : Bool :=
  inRanges CodeRanges.unprintable c.toNat

/-- The text without the blanks at its two ends. -/
def trim (s : String) : String :=
  String.ofList ((s.toList.dropWhile isBlank).reverse.dropWhile isBlank).reverse

end Courier.Text
