import Courier.Config.Toml.Moment
import Courier.Config.Toml.Number
import Courier.Config.Toml.Table

/-!
# Keys and Values in TOML

A key is a list of words joined by points. A value is a quoted text, a number, a date or time, a
truth value, an array of values in brackets, or a table in braces. Arrays may go on over several
lines and may end in a comma; tables in braces do neither.

A key has less than 80 words and a value less than 80 brackets and braces around any part.

## Main definitions

* `Toml.readKey?`: keys.
* `Toml.readValue?`: values.
* `Toml.readPair?`: keys with their values.
-/

namespace Courier.Config.Toml

/-- The greatest number of words in a key, and of brackets and braces that are open at once. -/
def depthLimit : Nat := 79

/-! ### Keys -/

/-- The characters of a bare word. -/
def isWordChar (c : Char) : Bool :=
  c.isAlphanum || c = '_' || c = '-'

/-- Reads a word of a key, which may be quoted. -/
def readWord? (text : List Char) : Option (String × List Char) :=
  match text with
  | '"' :: rest => (readQuoted? rest).map fun (word, rest) => (String.ofList word, rest)
  | '\'' :: rest => (readLiteral? rest).map fun (word, rest) => (String.ofList word, rest)
  | _ =>
    let word := text.takeWhile isWordChar
    if word.isEmpty then none else some (String.ofList word, text.dropWhile isWordChar)

/-- Reads words joined by points, up to a number of words, and the blanks around them. -/
def readWords? : Nat → Reader (List String)
  | 0, _ => none
  | limit + 1, text => do
    let (word, rest) ← readWord? (dropBlanks text)
    match dropBlanks rest with
    | '.' :: rest =>
      let (words, rest) ← readWords? limit rest
      some (word :: words, rest)
    | rest => some ([word], rest)

/-- Reads a key and the blanks around it. -/
def readKey? (text : List Char) : Option (List String × List Char) :=
  readWords? depthLimit text

/-! ### Values -/

/-- Reads a key with its value, given a reader of values. -/
def readPairWith? (value : Reader Tree) (text : List Char) :
    Option ((List String × Tree) × List Char) := do
  let (key, rest) ← readKey? text
  let (tree, rest) ← value (dropBlanks (← dropChar? '=' rest))
  some ((key, tree), rest)

/-- Reads the items of an array after its opening bracket, given a reader of values. -/
def readItems? (value : Reader Tree) (text : List Char) : Option (List Tree × List Char) :=
  match dropLines text with
  | ']' :: rest => some ([], rest)
  | start => do
    let (tree, rest) ← value start
    match dropLines rest with
    | ']' :: rest => some ([tree], rest)
    | ',' :: rest =>
      if rest.length < text.length then
        let (trees, rest) ← readItems? value rest
        some (tree :: trees, rest)
      else none
    | _ => none
termination_by text.length

/-- Reads the entries of a table in braces from the first one on, given a reader of values. -/
def readEntries? (value : Reader Tree) (text : List Char) :
    Option (List (List String × Tree) × List Char) := do
  let (pair, rest) ← readPairWith? value text
  match dropBlanks rest with
  | '\x7d' :: rest => some ([pair], rest)
  | ',' :: rest =>
    if rest.length < text.length then
      let (pairs, rest) ← readEntries? value rest
      some (pair :: pairs, rest)
    else none
  | _ => none
termination_by text.length

/-- Reads a table in braces after the opening one, given a reader of values. -/
def readInline? (value : Reader Tree) (text : List Char) : Option (Tree × List Char) :=
  match dropBlanks text with
  | '\x7d' :: rest => some (.table [], rest)
  | start => do
    let (pairs, rest) ← readEntries? value start
    let nodes ← pairs.foldlM (fun nodes pair => Nodes.define pair.2 true pair.1 nodes) []
    some (.table (Node.toEntries nodes), rest)

/-- Reads a truth value. -/
def readTruth? (text : List Char) : Option (Tree × List Char) :=
  (("true".toList.isPrefixOf? text).map fun rest => (.boolean true, rest)).or
    (("false".toList.isPrefixOf? text).map fun rest => (.boolean false, rest))

/-- Reads a value without parts. -/
def readScalar? (text : List Char) : Option (Tree × List Char) :=
  ((readText? text).map fun (text, rest) => (.string text, rest)).or <|
    ((readMoment? text).map fun (text, rest) => (.string text, rest)).or <|
      (readNumber? text).or (readTruth? text)

/-- Reads a value with a number of brackets and braces that may be open at once. -/
def readNested? : Nat → Reader Tree
  | limit, '[' :: rest =>
    match limit with
    | 0 => none
    | limit + 1 =>
      (readItems? (readNested? limit) rest).map fun (trees, rest) => (.array trees, rest)
  | limit, '\x7b' :: rest =>
    match limit with
    | 0 => none
    | limit + 1 => readInline? (readNested? limit) rest
  | _, text => readScalar? text

/-- Reads a value. -/
def readValue? (text : List Char) : Option (Tree × List Char) :=
  readNested? depthLimit text

/-- Reads a key with its value. -/
def readPair? (text : List Char) : Option ((List String × Tree) × List Char) :=
  readPairWith? readValue? text

end Courier.Config.Toml
