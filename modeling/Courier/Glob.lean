/-!
# Glob Patterns

A glob pattern is a list of parts, matched against a list of items: a literal part takes one
equal item, a single-item wildcard takes any one item, and a run takes any stretch of items,
the empty one included. Address patterns are globs over words and text patterns of the
selector language are globs over characters.

The matcher keeps the list of all remainders that the parts read so far can leave, longest
first. A run turns that list into all suffixes of its longest member, so each split point is
considered once and the work is at most the product of the two lengths.

## Main definitions

* `Glob.Part`: the three kinds of part.
* `Glob.Matches`: when a pattern matches, as a relation.
* `Glob.matches`: the matcher.

## Main results

* `Glob.matches_nil_left`, `Glob.mem_suffixes`: the base facts about remainders.
-/

namespace Courier.Glob

/-- One part of a pattern over items of type `α`. -/
inductive Part (α : Type) where
  /-- Takes one item, equal to the given one. -/
  | literal (item : α)
  /-- Takes any one item. -/
  | single
  /-- Takes any number of items. -/
  | run
  deriving DecidableEq, Repr

variable {α : Type}

/-- When a pattern matches a list of items: every part takes its share and nothing is left. -/
inductive Matches : List (Part α) → List α → Prop where
  /-- The empty pattern takes nothing. -/
  | nil : Matches [] []
  /-- A literal takes an equal item. -/
  | literal {a : α} {parts : List (Part α)} {items : List α} :
      Matches parts items → Matches (.literal a :: parts) (a :: items)
  /-- The single-item wildcard takes any item. -/
  | single {a : α} {parts : List (Part α)} {items : List α} :
      Matches parts items → Matches (.single :: parts) (a :: items)
  /-- A run takes any stretch of items. -/
  | run {parts : List (Part α)} {items : List α} (taken : List α) :
      Matches parts items → Matches (.run :: parts) (taken ++ items)

/-- All suffixes of a list, longest first. -/
def suffixes : List α → List (List α)
  | [] => [[]]
  | a :: rest => (a :: rest) :: suffixes rest

/-- What a part can leave of one list of items, longest first. -/
def Part.remainders [DecidableEq α] : Part α → List α → List (List α)
  | .literal a, b :: rest => if a = b then [rest] else []
  | .literal _, [] => []
  | .single, _ :: rest => [rest]
  | .single, [] => []
  | .run, items => suffixes items

/-- What a part can leave of one of the given remainders, when these are suffixes of one list,
longest first. -/
def Part.advance [DecidableEq α] : Part α → List (List α) → List (List α)
  | .run, [] => []
  | .run, longest :: _ => suffixes longest
  | part, remainders => remainders.flatMap part.remainders

/-- Whether the pattern matches the whole list of items. -/
def «matches» [DecidableEq α] (parts : List (Part α)) (items : List α) : Bool :=
  (parts.foldl (fun remainders part => part.advance remainders) [items]).any List.isEmpty

@[simp] theorem mem_suffixes {s items : List α} : s ∈ suffixes items ↔ s <:+ items := by
  induction items with
  | nil => simp [suffixes]
  | cons a rest ih => simp [suffixes, ih, List.suffix_cons_iff]

@[simp] theorem matches_nil_left [DecidableEq α] {items : List α} :
    «matches» [] items = items.isEmpty := by
  simp [«matches»]

end Courier.Glob
