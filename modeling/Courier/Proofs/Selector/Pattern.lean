import Mathlib.Data.List.Forall2
import Courier.Proofs.Glob
import Courier.Proofs.Glob.Sweep
import Courier.Selector.Truth

/-!
# Texts That a Pattern Matches

A text pattern spells a list of parts in one way only. A percent sign stands for a run of
characters, an underscore for any one character, and every other character for itself. An escape
character comes before all that, even if it is one of the two: the character after it stands for
itself, whatever it is, and so does an escape character that is the last one of the pattern.

A text matches if the whole of it can be cut into stretches, one for each part and in the order of
the parts, such that each part takes its stretch. The matcher decides this without trying the cuts.

## Main definitions

* `Glob.Part.Takes`, `Glob.Fits`: the stretches that a part takes, and the lists that parts fit.
* `Like.Spells`: the parts that a pattern stands for.
* `Like.Decides`: what the matcher is to decide for a pattern and a text.

## Main results

* `Glob.fits_iff`: cutting a list is matching it part by part.
* `Like.spells_iff`: the parts of a pattern, as the only ones.
* `Like.decides_text`: the matcher decides whether a text can be cut.
-/

namespace Courier

namespace Glob

variable {α : Type}

/-- The stretches of items that a part takes. -/
inductive Part.Takes : Part α → List α → Prop where
  /-- A literal takes its own item. -/
  | literal (a : α) : Takes (.literal a) [a]
  /-- The single-item wildcard takes any item. -/
  | single (a : α) : Takes .single [a]
  /-- A run takes any items, or none. -/
  | run (items : List α) : Takes .run items

/-- A list of items can be cut into stretches that the parts take one by one. -/
def Fits (parts : List (Part α)) (items : List α) : Prop :=
  ∃ stretches, List.Forall₂ Part.Takes parts stretches ∧ stretches.flatten = items

/-- **Cutting a list is matching it part by part.** -/
theorem fits_iff {parts : List (Part α)} {items : List α} :
    Fits parts items ↔ Matches parts items := by
  constructor
  · rintro ⟨stretches, htakes, rfl⟩
    induction htakes with
    | nil => exact .nil
    | cons hpart _ ih =>
        cases hpart with
        | literal a => exact .literal ih
        | single a => exact .single ih
        | run => exact .run _ ih
  · intro h
    induction h with
    | nil => exact ⟨[], .nil, rfl⟩
    | @literal a _ _ _ ih =>
        obtain ⟨stretches, htakes, rfl⟩ := ih
        exact ⟨[a] :: stretches, .cons (.literal a) htakes, rfl⟩
    | @single a _ _ _ ih =>
        obtain ⟨stretches, htakes, rfl⟩ := ih
        exact ⟨[a] :: stretches, .cons (.single a) htakes, rfl⟩
    | run taken _ ih =>
        obtain ⟨stretches, htakes, rfl⟩ := ih
        exact ⟨taken :: stretches, .cons (.run taken) htakes, rfl⟩

end Glob

namespace Like

/-- The parts that the characters of a pattern stand for. The escape character, if there is one,
comes before the wildcards. -/
inductive Spells (escape : Option Char) : List Char → List (Glob.Part Char) → Prop where
  /-- No characters stand for no parts. -/
  | nil : Spells escape [] []
  /-- An escape character makes the next character stand for itself. -/
  | escaped {c next : Char} {rest : List Char} {parts : List (Glob.Part Char)} :
      escape = some c → Spells escape rest parts →
      Spells escape (c :: next :: rest) (.literal next :: parts)
  /-- An escape character at the end stands for itself. -/
  | last {c : Char} : escape = some c → Spells escape [c] [.literal c]
  /-- A percent sign stands for a run. -/
  | run {rest : List Char} {parts : List (Glob.Part Char)} :
      escape ≠ some '%' → Spells escape rest parts → Spells escape ('%' :: rest) (.run :: parts)
  /-- An underscore stands for any one character. -/
  | single {rest : List Char} {parts : List (Glob.Part Char)} :
      escape ≠ some '_' → Spells escape rest parts → Spells escape ('_' :: rest) (.single :: parts)
  /-- Any other character stands for itself. -/
  | literal {c : Char} {rest : List Char} {parts : List (Glob.Part Char)} :
      escape ≠ some c → c ≠ '%' → c ≠ '_' → Spells escape rest parts →
      Spells escape (c :: rest) (.literal c :: parts)

variable {escape : Option Char}

theorem spells_parts (escape : Option Char) (pattern : List Char) :
    Spells escape pattern (parts escape pattern) := by
  fun_induction parts escape pattern with
  | case1 => exact .nil
  | case2 c h => exact .last h.symm
  | case3 c h next rest ih => exact .escaped h.symm ih
  | case4 rest h ih => exact .run (Ne.symm h) ih
  | case5 rest h _ ih => exact .single (Ne.symm h) ih
  | case6 c rest h hrun hsingle ih => exact .literal (Ne.symm h) hrun hsingle ih

/-- A character that is no escape character makes one part, whatever comes after it. -/
theorem parts_cons_of_ne {c : Char} (h : escape ≠ some c) (rest : List Char) :
    parts escape (c :: rest) =
      (if c = '%' then .run else if c = '_' then .single else .literal c) ::
        parts escape rest := by
  cases rest <;> simp only [parts, if_neg h.symm] <;> split_ifs <;> rfl

/-- **A pattern spells its parts**, and no others. -/
theorem spells_iff {pattern : List Char} {spelled : List (Glob.Part Char)} :
    Spells escape pattern spelled ↔ parts escape pattern = spelled := by
  constructor
  · intro h
    induction h with
    | nil => rfl
    | escaped hescape _ ih => rw [parts, if_pos hescape.symm, ih]
    | last hescape => rw [parts, if_pos hescape.symm]
    | run hescape _ ih => rw [parts_cons_of_ne hescape, ih, if_pos rfl]
    | single hescape _ ih =>
        rw [parts_cons_of_ne hescape, ih, if_neg (by decide), if_pos rfl]
    | literal hescape hrun hsingle _ ih =>
        rw [parts_cons_of_ne hescape, ih, if_neg hrun, if_neg hsingle]
  · rintro rfl
    exact spells_parts escape pattern

/-- What the matcher is to decide for a pattern and a text. -/
structure Decides (escape : Option Char) (pattern text : String) : Prop where
  /-- The parts of the pattern are the only ones it spells. -/
  spells_iff : ∀ spelled, Spells escape pattern.toList spelled ↔
    parts escape pattern.toList = spelled
  /-- The text is to be cut into stretches for the parts. -/
  matches_iff : Like.matches escape pattern text = true ↔
    ∃ spelled, Spells escape pattern.toList spelled ∧ Glob.Fits spelled text.toList
  /-- A sweep over the positions between the characters comes to the same answer. -/
  matches_eq_getLastD : Like.matches escape pattern text =
    (Glob.reached text.toList (parts escape pattern.toList)
      (true :: List.replicate text.toList.length false)).getLastD false

/-- **The matcher decides whether a text can be cut** into stretches for the parts of a pattern. -/
theorem decides_text (escape : Option Char) (pattern text : String) :
    Decides escape pattern text where
  spells_iff _ := Like.spells_iff
  matches_iff := by
    rw [«matches», Glob.matches_iff, ← Glob.fits_iff]
    constructor
    · intro hfits
      exact ⟨_, spells_parts escape pattern.toList, hfits⟩
    · rintro ⟨spelled, hspells, hfits⟩
      obtain rfl := Like.spells_iff.mp hspells
      exact hfits
  matches_eq_getLastD := Glob.matches_eq_getLastD_reached _ _

/-- The percent sign as its own escape character. -/
example : Like.matches (some '%') "1_0%%" "100%" = true := by decide

end Like

end Courier
