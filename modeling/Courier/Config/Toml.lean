import Courier.Config.Toml.Value

/-!
# Configuration Files in TOML

A file is a sequence of lines. A line opens a table, opens a new item of an array of tables, sets
a key in the table that is open, or is blank; before the first header the table of the whole file
is open. A line of another form makes the file unreadable, as does a line that contradicts an
earlier one.

## Main definitions

* `Toml.Line`, `Toml.readLines?`: the lines of a file.
* `Toml.Draft`: a file that has been read in part.
* `Toml.read?`: the tree that a file describes.
-/

namespace Courier.Config.Toml

/-! ### Lines -/

/-- A line of a file. -/
inductive Line where
  /-- A line that says nothing. -/
  | blank
  /-- The header of a table. -/
  | header (path : List String)
  /-- The header of a new item in an array of tables. -/
  | item (path : List String)
  /-- A key with its value. -/
  | entry (key : List String) (value : Tree)

/-- Reads a line without its end, if it is not blank. -/
def readStatement? (text : List Char) : Option (Line × List Char) := do
  match text with
  | '[' :: '[' :: rest =>
    let (path, rest) ← readKey? rest
    some (.item path, ← dropChar? ']' (← dropChar? ']' rest))
  | '[' :: rest =>
    let (path, rest) ← readKey? rest
    some (.header path, ← dropChar? ']' rest)
  | _ =>
    let ((key, value), rest) ← readPair? text
    some (.entry key value, rest)

/-- Reads a line. -/
def readLine? (text : List Char) : Option (Line × List Char) :=
  match dropEnding? text with
  | some rest => some (.blank, rest)
  | none => do
    let (line, rest) ← readStatement? (dropBlanks text)
    some (line, ← dropEnding? rest)

/-- Reads all lines of a text. -/
def readLines? (text : List Char) : Option (List Line) :=
  if text.isEmpty then some []
  else do
    let (line, rest) ← readLine? text
    if rest.length < text.length then
      let lines ← readLines? rest
      some (line :: lines)
    else none
termination_by text.length

/-- A text without the mark of its byte order at the front. -/
def dropMark : List Char → List Char
  | '\ufeff' :: rest => rest
  | text => text

/-! ### Files -/

/-- A file that has been read in part: what was built and the path of the open table. -/
structure Draft where
  /-- What was built. -/
  nodes : Nodes := []
  /-- The path of the table that keys go to. -/
  current : List String := []

/-- Takes a line into account. -/
def Draft.add (draft : Draft) : Line → Option Draft
  | .blank => some draft
  | .header path => do
    let k ← path.getLast?
    let nodes ← Nodes.alter (Nodes.openTable k) path.dropLast draft.nodes
    some { nodes, current := path }
  | .item path => do
    let k ← path.getLast?
    let nodes ← Nodes.alter (Nodes.openItem k) path.dropLast draft.nodes
    some { nodes, current := path }
  | .entry key value => do
    let nodes ← Nodes.alter (Nodes.define value true key) draft.current draft.nodes
    some { draft with nodes }

/-- The tree that a file describes. -/
def read? (text : String) : Option Tree := do
  let lines ← readLines? (dropMark text.toList)
  let draft ← lines.foldlM Draft.add {}
  some (.table (Node.toEntries draft.nodes))

end Courier.Config.Toml
