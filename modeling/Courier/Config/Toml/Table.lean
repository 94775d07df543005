import Courier.Config.Tree

/-!
# Tables in TOML

The tables of a file come about in three ways, and how one came about decides what may follow. A
header opens a table, and does so once. A longer header implies the tables that it passes
through, each of which may still be opened by its own header. A dotted key makes the tables that
it passes through, and only dotted keys add to those. A key is set once.

## Main definitions

* `Toml.Node`: a tree that remembers how each table came about.
* `Toml.Nodes.openTable`, `Toml.Nodes.openItem`: what headers do.
* `Toml.Nodes.define`: what a key with its value does.
-/

namespace Courier.Config.Toml

/-- How a table came about. -/
inductive Origin where
  /-- A longer header passed through it. -/
  | implied
  /-- Its own header opened it. -/
  | header
  /-- A dotted key passed through it. -/
  | dotted
  deriving DecidableEq, Repr

/-- A part of a file's tree. -/
inductive Node where
  /-- A value. -/
  | value (tree : Tree)
  /-- A table. -/
  | table (origin : Origin) (entries : List (String × Node))
  /-- An array of tables: the item that is open and the earlier ones, the latest first. -/
  | items (latest : List (String × Node)) (earlier : List (List (String × Node)))

/-- The entries of a table under construction. -/
abbrev Nodes : Type := Entries String Node

namespace Node

mutual

/-- The tree that was built. -/
def toTree : Node → Tree
  | value tree => tree
  | table _ entries => .table (toEntries entries)
  | items latest earlier => .array ((.table (toEntries latest) :: toTables earlier).reverse)

/-- The entries that were built. -/
def toEntries : List (String × Node) → List (String × Tree)
  | [] => []
  | (k, node) :: rest => (k, node.toTree) :: toEntries rest

/-- The tables that were built. -/
def toTables : List (List (String × Node)) → List Tree
  | [] => []
  | entries :: rest => .table (toEntries entries) :: toTables rest

end

end Node

namespace Nodes

/-- Changes the table at the end of a path of headers. Tables that are missing on the way are
implied, and an array of tables stands for its latest item. -/
def alter (change : Nodes → Option Nodes) : List String → Nodes → Option Nodes
  | [], nodes => change nodes
  | k :: path, nodes =>
    match Entries.find? k nodes with
    | none => (alter change path []).map fun below => Entries.insert k (.table .implied below) nodes
    | some (.table origin below) =>
      (alter change path below).map fun below => Entries.insert k (.table origin below) nodes
    | some (.items latest earlier) =>
      (alter change path latest).map fun latest => Entries.insert k (.items latest earlier) nodes
    | some (.value _) => none

/-- Opens the table under a key. -/
def openTable (k : String) (nodes : Nodes) : Option Nodes :=
  match Entries.find? k nodes with
  | none => some (Entries.insert k (.table .header []) nodes)
  | some (.table .implied below) => some (Entries.insert k (.table .header below) nodes)
  | some _ => none

/-- Opens a new item of the array of tables under a key. -/
def openItem (k : String) (nodes : Nodes) : Option Nodes :=
  match Entries.find? k nodes with
  | none => some (Entries.insert k (.items [] []) nodes)
  | some (.items latest earlier) => some (Entries.insert k (.items [] (latest :: earlier)) nodes)
  | some _ => none

/-- Sets the value under a dotted key. The tables that the key passes through are not those of a
header. The one that gets the value is at hand already, or was made by a dotted key; `isOpen`
says whether the table at hand is such a one. -/
def define (value : Tree) (isOpen : Bool) : List String → Nodes → Option Nodes
  | [], _ => none
  | [k], nodes =>
    if isOpen ∧ (Entries.find? k nodes).isNone then some (Entries.insert k (.value value) nodes)
    else none
  | k :: key, nodes =>
    match Entries.find? k nodes with
    | none =>
      (define value true key []).map fun below => Entries.insert k (.table .dotted below) nodes
    | some (.table .header _) => none
    | some (.table origin below) =>
      (define value (origin = .dotted) key below).map fun below =>
        Entries.insert k (.table origin below) nodes
    | some (.items latest earlier) =>
      (define value false key latest).map fun latest =>
        Entries.insert k (.items latest earlier) nodes
    | some (.value _) => none

end Nodes

end Courier.Config.Toml
