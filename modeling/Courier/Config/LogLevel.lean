import Courier.Number.Integer
import Courier.Text.Classes

/-!
# Log Levels

The level of a log is a list of directives with commas between them. A directive is a level, or
a target, a span in brackets or both, with their level after an equals sign. Only a word after an
equals sign has to be a level: any other word can be the name of a target.

Configurations are checked with whatever test of log levels is given. This one goes by the shape of
the directives; it does not look into what stands in brackets, and so takes a field with a pattern
that is not one.

## Main definitions

* `LogLevel.isLevel`: the words for levels.
* `LogLevel.isSound`: whether a text is a list of directives.
-/

namespace Courier.LogLevel

/-- The names of the levels. -/
def names : List String :=
  ["off", "error", "warn", "info", "debug", "trace"]

/-- Whether a word is a level: its name in any case, or its number. -/
def isLevel (word : List Char) : Bool :=
  names.contains (String.ofList (word.map Char.toLower)) ||
    (word.head? ≠ some '-' && (Integer.read 0 5 word).toOption.isSome)

/-- The characters that a directive may start with. -/
def isStart (c : Char) : Bool :=
  c = '-' || c = ':' || c = '_' || Text.isAlphanumeric c

/-- What a directive says after its target and its span. -/
inductive Ending where
  /-- Nothing, so every event is logged. -/
  | none
  /-- What stands after an equals sign. -/
  | level (word : List Char)

/-- What stands after a span. -/
def endingAfterSpan? : List Char → Option Ending
  | [] => some .none
  | '=' :: level => some (.level level)
  | _ => Option.none

/-- What stands after a target and a span in brackets, which may name a field in braces. Neither
the name of a span nor its field is looked into, but the field is not empty. -/
def ending? (rest : List Char) : Option Ending :=
  match rest.dropWhile fun c => c ≠ '=' ∧ c ≠ '[' with
  | '=' :: level => some (.level level)
  | '[' :: span =>
    match span.dropWhile fun c => c ≠ ']' ∧ c ≠ '\x7b' with
    | ']' :: rest => endingAfterSpan? rest
    | '\x7b' :: '\x7d' :: _ => Option.none
    | '\x7b' :: field =>
      match field.dropWhile (· ≠ '\x7d') with
      | '\x7d' :: ']' :: rest => endingAfterSpan? rest
      | _ => Option.none
    | _ => Option.none
  | _ => some .none

/-- Whether a text is a directive. A directive with a level after an equals sign stands without
blanks around it. -/
def isDirective (text : String) : Bool :=
  let word := (Text.trim text).toList
  match word.head?, ending? word with
  | some c, some ending =>
    (c = '[' || isStart c) &&
      match ending with
      | .none => true
      | .level level => word = text.toList && (level.isEmpty || isLevel level)
  | _, _ => false

/-- Whether a text is a list of directives. Nothing between two commas is no directive, and is
passed over. -/
def isSound (text : String) : Bool :=
  (text.toList.splitOn ',').all fun part => part.isEmpty || isDirective (String.ofList part)

end Courier.LogLevel
