import Courier.Config.Check
import Courier.Config.Tree
import Courier.Text.Lowercase

/-!
# Where a Configuration Comes From

A configuration is put together in layers: the defaults, then files, then variables of the
environment. The layers are combined as trees; only the result is read as a configuration, and
checked. How a file is written, and which levels the log takes, is for others to say: the reader of
files and the levels are given.

A variable names a path in the tree: after its prefix stand the keys, in any case, with two
underscores between them.

## Main definitions

* `ConfigFile`: a file as it was found.
* `Config.ofFiles`: the configuration that files describe, a later file over an earlier one.
* `Environment.path?`: the path that the name of a variable stands for.
* `Config.Tree.apply`: what the variables of the environment say, and how many say something.
* `ConfigSources.load`: the configuration that a file and the environment describe.
-/

namespace Courier

open Config (Tree)

/-- A configuration file as it was found. -/
inductive ConfigFile where
  /-- There is no such file. -/
  | absent
  /-- The file is not in the form of configuration files. -/
  | malformed
  /-- The file describes a tree. -/
  | parsed (tree : Tree)
  deriving Inhabited

namespace ConfigFile

/-- A file with the given text, of which a reader makes a tree. -/
def ofText (read : String → Option Tree) (text : String) : ConfigFile :=
  match read text with
  | some tree => parsed tree
  | none => malformed

/-- Whether there is a file. -/
def isPresent : ConfigFile → Bool
  | absent => false
  | _ => true

/-- The tree of a file. -/
def tree : ConfigFile → Except ConfigError Tree
  | absent => .error .unreadableFile
  | malformed => .error .malformedFile
  | parsed tree => .ok tree

end ConfigFile

namespace Config

/-- A configuration that was checked. -/
def checked (levels : String → Bool) (c : Config) : Except ConfigError Config := do
  c.check levels
  return c

/-- The tree of the configuration without any settings. -/
def defaults : Tree :=
  ({} : Config).toTree

/-- A tree with files laid over it, one after another. -/
def Tree.mergeFiles : Tree → List ConfigFile → Except ConfigError Tree
  | base, [] => .ok base
  | base, file :: rest => do
    let above ← file.tree
    (base.merge above).mergeFiles rest

/-- The configuration that files describe on top of the defaults. -/
def ofFiles (levels : String → Bool) (files : List ConfigFile) : Except ConfigError Config := do
  let tree ← defaults.mergeFiles files
  match ofTree? tree with
  | some c => c.checked levels
  | none => .error .unusableFiles

/-- The configuration that is read back after this one was written to a file. -/
def reloaded (levels : String → Bool) (c : Config) : Except ConfigError Config :=
  ofFiles levels [.parsed c.toTree]

end Config

/-! ### The environment -/

namespace Environment

/-- The parts of a name between pairs of underscores, taken from the left. -/
def splitName : List Char → List (List Char)
  | '_' :: '_' :: rest => [] :: splitName rest
  | c :: rest =>
    match splitName rest with
    | part :: parts => (c :: part) :: parts
    | [] => [[c]]
  | [] => [[]]

/-- What is left of a text after a beginning. -/
def dropStart? : List Char → List Char → Option (List Char)
  | [], text => some text
  | c :: start, d :: text => if c = d then dropStart? start text else none
  | _ :: _, [] => none

/-- The path of keys that the name of a variable stands for, if it starts with the prefix and
none of its keys is empty. -/
def path? (start name : String) : Option (List String) := do
  let rest ← dropStart? (start.toList ++ ['_']) name.toList
  let keys := splitName (Text.lowercase rest)
  if keys.any List.isEmpty then none else some (keys.map String.ofList)

end Environment

/-- A tree with a variable of the environment taken into account, and one more variable counted,
if the name of the variable stands for a path. -/
def Config.Tree.applyOne (start : String) (applied : Tree × Nat) (v : String × String) :
    Tree × Nat :=
  match Environment.path? start v.1 with
  | some path => (applied.1.set path (.ofText v.2), applied.2 + 1)
  | none => applied

/-- A tree with the values of all variables set whose names stand for paths, and the number of
these variables. -/
def Config.Tree.apply (start : String) (env : List (String × String)) (t : Tree) : Tree × Nat :=
  env.foldl (applyOne start) (t, 0)

/-- The places that a configuration is loaded from. -/
structure ConfigSources where
  /-- What the names of variables start with. -/
  start : String := "KAELIX"
  /-- The file that was asked for, if one was. -/
  file : Option ConfigFile := none
  /-- The directories to be searched otherwise, as what each file name stands for there. -/
  directories : List (String → ConfigFile) := []
  /-- The variables of the environment. -/
  env : List (String × String) := []

namespace ConfigSources

/-- The names of the files that are searched for. -/
def fileNames : List String :=
  ["kaelix.toml", "config.toml"]

/-- The file to be loaded: the one that was asked for, or else the first one found. -/
def chosenFile (s : ConfigSources) : Except ConfigError (Option ConfigFile) :=
  match s.file with
  | some .absent => .error .missingFile
  | some file => .ok (some file)
  | none => .ok ((s.directories.flatMap fileNames.map).find? ConfigFile.isPresent)

/-- The configuration that the file and the environment describe on top of the defaults. -/
def load (levels : String → Bool) (s : ConfigSources) : Except ConfigError Config := do
  let file ← s.chosenFile
  let tree ← Config.defaults.mergeFiles file.toList
  match Config.ofTree? (tree.apply s.start s.env).1 with
  | some c => c.checked levels
  | none => .error .unusableSources

end ConfigSources

end Courier
