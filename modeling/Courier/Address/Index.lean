import Courier.Address

/-!
# The Address Index

Values are filed under address patterns and found by address: a look-up returns the values of
all patterns that match the address. Patterns share their common beginnings in a tree whose
edges are segments.

The tree is kept in a canonical form. The branches of a node are ordered (literal words by
their text, then the single-word wildcard, then the run of words), a node keeps its values in
order of arrival, and a node without values and branches is not kept. A walk in branch order
therefore takes literal words first and runs last. A run can leave several remainders of the
address, and different splits can lead to the same remainder at the same node, so the walk
notes where it has been and enters each such place once.

## Main definitions

* `Branches`: the branches of a node, as a type without nesting.
* `AddressIndex`: the tree with the wildcards it was built for and the number of its values.
* `AddressIndex.insert`, `AddressIndex.removeFirst`: filing and withdrawing a value.
* `AddressIndex.lookup`: the values whose patterns match an address.
* `AddressIndex.entries`: every value with the segments of its pattern.
-/

namespace Courier

variable {α : Type}

/-- The branches of a node: each has its segment, the values at its end and further branches. -/
inductive Branches (α : Type) where
  /-- No branches. -/
  | nil
  /-- A branch before others. -/
  | cons (segment : Segment) (values : List α) (below : Branches α) (beside : Branches α)
  deriving DecidableEq, Repr

/-- A node: the values at its place and the branches below it. -/
structure IndexNode (α : Type) where
  /-- The values filed under the pattern that ends here. -/
  values : List α := []
  /-- What is filed under longer patterns. -/
  below : Branches α := .nil
  deriving DecidableEq, Repr

/-- Whether one segment's branch stands before another's. -/
def segmentBefore : Segment → Segment → Bool
  | .literal u, .literal v => u < v
  | .literal _, _ => true
  | .single, .run => true
  | _, _ => false

namespace IndexNode

/-- Whether nothing is filed at or below the node. -/
def isEmpty : IndexNode α → Bool
  | ⟨[], .nil⟩ => true
  | _ => false

end IndexNode

namespace Branches

/-- The node at the end of a branch. -/
def find? (s : Segment) : Branches α → Option (IndexNode α)
  | nil => none
  | cons t values below beside => if s = t then some ⟨values, below⟩ else beside.find? s

/-- One branch before others, unless nothing is filed along it. -/
def attach (s : Segment) (node : IndexNode α) (beside : Branches α) : Branches α :=
  if node.isEmpty then beside else cons s node.values node.below beside

/-- The branches with the node at the end of one of them changed. A missing branch counts as one
that ends in an empty node, and a branch whose node becomes empty is dropped. -/
def alter (s : Segment) (f : IndexNode α → IndexNode α) : Branches α → Branches α
  | nil => attach s (f {}) nil
  | cons t values below beside =>
    if s = t then attach s (f ⟨values, below⟩) beside
    else if segmentBefore s t then attach s (f {}) (cons t values below beside)
    else cons t values below (beside.alter s f)

/-- Every value with the segments that lead to it, in branch order. -/
def entries : Branches α → List (List Segment × α)
  | nil => []
  | cons s values below beside =>
    values.map (fun a => ([s], a)) ++ below.entries.map (fun e => (s :: e.1, e.2)) ++ beside.entries

end Branches

namespace IndexNode

/-- The node with a value filed at the end of a path. -/
def insert : List Segment → α → IndexNode α → IndexNode α
  | [], a, node => { node with values := node.values ++ [a] }
  | s :: path, a, node => { node with below := node.below.alter s (insert path a) }

/-- Withdraws the first value at the end of a path that passes the test: the value, if there is
one, and the node afterwards. On the way back each branch of the path is dropped whose node is
empty then, whether or not a value was withdrawn. -/
def removeFirst (p : α → Bool) : List Segment → IndexNode α → Option α × IndexNode α
  | [], node => (node.values.find? p, { node with values := node.values.eraseP p })
  | s :: path, node =>
    match node.below.find? s with
    | none => (none, node)
    | some child =>
      let (removed, child) := removeFirst p path child
      (removed, { node with below := node.below.alter s fun _ => child })

/-- The values at the end of a path. -/
def valuesAt : List Segment → IndexNode α → List α
  | [], node => node.values
  | s :: path, node =>
    match node.below.find? s with
    | some child => child.valuesAt path
    | none => []

/-- Every value with the path that leads to it. -/
def entries (node : IndexNode α) : List (List Segment × α) :=
  node.values.map (fun a => ([], a)) ++ node.below.entries

end IndexNode

/-- The state of a walk over the index: the places it entered, each a path read backwards with
the number of words left there, and the values it found. -/
structure IndexWalk (α : Type) where
  /-- The places entered so far. -/
  entered : List (Nat × List Segment) := []
  /-- The values found so far, in order. -/
  found : List α := []
  deriving Repr

namespace IndexWalk

/-- Enters a node with some words of the address left: its values count when no word is left,
and then the walk goes on below it. A place that was entered before is passed by. -/
def enter (path : List Segment) (rest : List String) (values : List α)
    (below : IndexWalk α → IndexWalk α) (walk : IndexWalk α) : IndexWalk α :=
  if walk.entered.contains (rest.length, path) then walk
  else
    below
      { entered := (rest.length, path) :: walk.entered
        found := if rest.isEmpty then walk.found ++ values else walk.found }

end IndexWalk

/-- Walks over branches in order, entering each with every remainder that its segment can leave
of the words. -/
def Branches.walk : Branches α → List Segment → List String → IndexWalk α → IndexWalk α
  | nil, _, _, walk => walk
  | cons s values below beside, path, rest, walk =>
    beside.walk path rest <|
      (s.remainders rest).foldl
        (fun walk rest => walk.enter (s :: path) rest values (below.walk (s :: path) rest)) walk

/-- Values filed under address patterns. -/
structure AddressIndex (α : Type) where
  /-- How patterns and addresses are read. -/
  wildcards : Wildcards
  /-- The tree of patterns. -/
  root : IndexNode α := {}
  /-- The number of values. -/
  size : Nat := 0
  deriving DecidableEq, Repr

namespace AddressIndex

/-- The index with a value filed under a pattern, after those that are already there. -/
def insert (index : AddressIndex α) (pattern : String) (a : α) : AddressIndex α :=
  { index with
    root := index.root.insert (index.wildcards.segments pattern) a
    size := index.size + 1 }

/-- Withdraws the earliest value under exactly this pattern that passes the test: the value, if
there is one, and the index afterwards. -/
def removeFirst (index : AddressIndex α) (pattern : String) (p : α → Bool) :
    Option α × AddressIndex α :=
  let (removed, root) := index.root.removeFirst p (index.wildcards.segments pattern)
  (removed, { index with root, size := if removed.isSome then index.size - 1 else index.size })

/-- The values under exactly this pattern, in order of arrival. -/
def valuesAt (index : AddressIndex α) (pattern : String) : List α :=
  index.root.valuesAt (index.wildcards.segments pattern)

/-- The values of all patterns that match the address, each once. -/
def lookup (index : AddressIndex α) (address : String) : List α :=
  let words := index.wildcards.words address
  (IndexWalk.enter [] words index.root.values (index.root.below.walk [] words) {}).found

/-- Every value with the segments of its pattern. -/
def entries (index : AddressIndex α) : List (List Segment × α) :=
  index.root.entries

/-- Every value. -/
def values (index : AddressIndex α) : List α :=
  index.entries.map Prod.snd

/-- Whether no value is filed. -/
def isEmpty (index : AddressIndex α) : Bool :=
  index.size = 0

end AddressIndex

end Courier
