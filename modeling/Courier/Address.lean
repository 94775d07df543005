import Courier.Glob
import Courier.Text.Quoted

/-!
# Addresses and Address Patterns

Messages are sent to addresses. An address is a text without control characters that is read
as a list of words between delimiters. Where a pattern is expected, the same text is read as a
glob over words: a word that consists of one wildcard character stands for any single word or
for any run of words.

## Main definitions

* `Address`: a text that passed the check of `Address.defect?`.
* `Wildcards`: the characters that give addresses and patterns their structure.
* `Wildcards.words`, `Wildcards.segments`: an address as words, a pattern as segments.
* `Wildcards.matches`: whether a pattern matches an address.
-/

namespace Courier

/-- Why a text is no address. -/
inductive AddressError where
  /-- The text is empty. -/
  | empty
  /-- The text holds a control character. -/
  | controlCharacters (text : String)
  deriving DecidableEq, Repr

/-- The report of an address error. -/
def AddressError.message : AddressError → String
  | .empty => "Invalid address: address cannot be empty"
  | .controlCharacters text =>
    "Invalid address: address " ++ Text.quoted text ++ " contains control characters"

/-- What keeps a text from being an address. -/
def Address.defect? (text : String) : Option AddressError :=
  if text.isEmpty then some .empty
  else if text.toList.any Text.isControl then some (.controlCharacters text)
  else none

/-- A nonempty text without control characters. -/
structure Address where
  /-- The address as written. -/
  text : String
  /-- The text passed the check. -/
  sound : Address.defect? text = none
  deriving DecidableEq

namespace Address

instance : Repr Address := ⟨fun a => reprPrec a.text⟩

/-- The address with the given text, or what is wrong with the text. -/
def ofString (text : String) : Except AddressError Address :=
  match h : defect? text with
  | none => .ok ⟨text, h⟩
  | some e => .error e

/-- The text of an address reads back as that address. -/
@[simp] theorem ofString_text (a : Address) : ofString a.text = .ok a := by
  unfold ofString
  split
  · rfl
  · next e h => simp [a.sound] at h

/-- A text that reads as an address is that address's text. -/
theorem text_of_ofString {text : String} {a : Address} (h : ofString text = .ok a) :
    a.text = text := by
  unfold ofString at h
  split at h
  · cases h; rfl
  · cases h

end Address

/-- A part of an address pattern. -/
abbrev Segment : Type := Glob.Part String

/-- The characters that structure addresses and patterns. -/
structure Wildcards where
  /-- Whether wildcards have a meaning at all. -/
  enabled : Bool := true
  /-- What separates words. -/
  delimiter : Char := '.'
  /-- The word that stands for any run of words. -/
  anyWords : Char := '#'
  /-- The word that stands for any one word. -/
  singleWord : Char := '*'
  deriving DecidableEq, Repr

namespace Wildcards

/-- The words of an address: the stretches between delimiters, at least one. -/
def words (w : Wildcards) (text : String) : List String :=
  (text.toList.splitOn w.delimiter).map String.ofList

/-- The part of a pattern that a word stands for. -/
def segment (w : Wildcards) (word : String) : Segment :=
  if w.enabled then
    if word.toList = [w.anyWords] then .run
    else if word.toList = [w.singleWord] then .single
    else .literal word
  else .literal word

/-- A text read as a pattern. -/
def segments (w : Wildcards) (text : String) : List Segment :=
  (w.words text).map w.segment

/-- Whether a text holds a wildcard when read as a pattern. -/
def isWildcard (w : Wildcards) (text : String) : Bool :=
  (w.segments text).any fun
    | .literal _ => false
    | _ => true

/-- Whether a pattern matches an address. Without wildcards the two texts have to be equal. -/
def «matches» (w : Wildcards) (pattern address : String) : Bool :=
  if w.enabled then Glob.matches (w.segments pattern) (w.words address)
  else pattern = address

/-- Whether the three characters are told apart. -/
def areDistinct (w : Wildcards) : Bool :=
  w.delimiter ≠ w.anyWords && w.delimiter ≠ w.singleWord && w.anyWords ≠ w.singleWord

end Wildcards

end Courier
