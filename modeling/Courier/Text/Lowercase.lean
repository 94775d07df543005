import Courier.Text.CaseRanges
import Courier.Text.Classes

/-!
# Lower Case

A text is written in lower case letter by letter, with two exceptions. The capital I with a dot
keeps its dot as a mark of its own. The capital sigma becomes a final sigma where a word ends, that
is, behind a letter and not before one, whatever marks stand between.

## Main definitions

* `Text.lowercase`: a text in lower case.
-/

namespace Courier.Text

/-- The code of a letter in lower case, by an ascending list of runs. -/
def lowerCode : List (Nat × Nat × Nat × Nat) → Nat → Nat
  | [], n => n
  | (first, last, step, small) :: rest, n =>
    if n < first then n
    else if n ≤ last ∧ (n - first) % step = 0 then small + (n - first)
    else lowerCode rest n

/-- Letters that are capital or small. -/
def isCased (c : Char) : Bool :=
  inRanges CaseRanges.cased c.toNat

/-- Marks that stand within a word without a part in its case. -/
def isCaseIgnorable (c : Char) : Bool :=
  inRanges CaseRanges.ignorable c.toNat

/-- Whether the next character that is not a mark within a word is a letter with a case. -/
def meetsCased (text : List Char) : Bool :=
  (text.dropWhile isCaseIgnorable).head?.any isCased

/-- A character in lower case, between the text before it, read backwards, and the text after it. -/
def lowerBetween (before : List Char) (c : Char) (after : List Char) : List Char :=
  if c = 'Σ' then
    if meetsCased before && !meetsCased after then ['ς'] else ['σ']
  else if c = 'İ' then ['i', '\u0307']
  else [Char.ofNat (lowerCode CaseRanges.lower c.toNat)]

/-- A text in lower case behind another one, which is read backwards. -/
def lowercaseAfter (before : List Char) : List Char → List Char
  | [] => []
  | c :: after => lowerBetween before c after ++ lowercaseAfter (c :: before) after

/-- A text in lower case. -/
def lowercase (text : List Char) : List Char :=
  lowercaseAfter [] text

end Courier.Text
