import Courier.Text.Hex

/-!
# Text in TOML

The smallest parts of a file: blanks, comments and line breaks, and quoted texts. What is left to
be read is a list of characters throughout, and a reader takes some of them from its front.

A text stands in double quotes, where a backslash starts an escape, or in single quotes, where
every character stands for itself. Three quotes in place of one open a text that may go on over
several lines.

## Main definitions

* `Toml.Reader`: what is read from the front of a text, and the rest.
* `Toml.dropEnding?`, `Toml.dropLines`: what stands between the lines of a file.
* `Toml.readText?`: quoted texts.

## Main results

* `Toml.length_dropBreak?`, `Toml.length_readEscape?`: what is read is taken away.
-/

namespace Courier.Config.Toml

/-- What is read from the front of a text, together with the rest. -/
abbrev Reader (α : Type) : Type := List Char → Option (α × List Char)

/-! ### Blanks, comments and line breaks -/

/-- The blanks within a line. -/
def isBlank (c : Char) : Bool :=
  c = ' ' || c = '\t'

/-- The control codes that stand neither in quoted texts nor in comments. -/
def isForbidden (c : Char) : Bool :=
  (c.toNat < 0x20 && c ≠ '\t') || c.toNat = 0x7f

/-- A text without the blanks at its front. -/
def dropBlanks (text : List Char) : List Char :=
  text.dropWhile isBlank

/-- A text without the comment at its front, which goes on to the end of the line. -/
def dropComment : List Char → List Char
  | '#' :: rest => rest.dropWhile (!isForbidden ·)
  | text => text

/-- What follows a line break. -/
def dropBreak? : List Char → Option (List Char)
  | '\n' :: rest => some rest
  | '\r' :: '\n' :: rest => some rest
  | _ => none

/-- What follows the end of a line: blanks, a comment if there is one, and a line break, which
the last line may do without. -/
def dropEnding? (text : List Char) : Option (List Char) :=
  match dropComment (dropBlanks text) with
  | [] => some []
  | rest => dropBreak? rest

theorem length_dropBlanks_le (text : List Char) : (dropBlanks text).length ≤ text.length :=
  (List.dropWhile_sublist _).length_le

theorem length_dropComment_le (text : List Char) : (dropComment text).length ≤ text.length := by
  unfold dropComment
  split
  · exact Nat.le_succ_of_le (List.dropWhile_sublist _).length_le
  · exact Nat.le_refl _

theorem length_dropBreak? {text rest : List Char} (h : dropBreak? text = some rest) :
    rest.length < text.length := by
  unfold dropBreak? at h
  split at h
  · cases h
    simp
  · cases h
    simp only [List.length_cons]
    omega
  · cases h

/-- A text without the blanks, comments and line breaks at its front. -/
def dropLines (text : List Char) : List Char :=
  match _h : dropBreak? (dropComment (dropBlanks text)) with
  | some rest => dropLines rest
  | none => dropBlanks text
termination_by text.length
decreasing_by
  have := length_dropBreak? _h
  have := length_dropComment_le (dropBlanks text)
  have := length_dropBlanks_le text
  omega

/-! ### Quoted texts -/

/-- The character with the number that hexadecimal digits spell. -/
def charOfHex? (digits : List Char) : Option Char := do
  let n ← Hex.number? digits
  if h : n.isValidChar then some (Char.ofNatAux n h) else none

/-- The character that a letter stands for after a backslash. -/
def escaped? : Char → Option Char
  | 'b' => some '\x08'
  | 't' => some '\t'
  | 'n' => some '\n'
  | 'f' => some '\x0c'
  | 'r' => some '\r'
  | '"' => some '"'
  | '\\' => some '\\'
  | _ => none

/-- Reads an escape after its backslash: a letter, or a number of four or eight digits. -/
def readEscape? : Reader Char
  | 'u' :: a :: b :: c :: d :: rest => (charOfHex? [a, b, c, d]).map fun char => (char, rest)
  | 'U' :: a :: b :: c :: d :: e :: f :: g :: h :: rest =>
    (charOfHex? [a, b, c, d, e, f, g, h]).map fun char => (char, rest)
  | letter :: rest => (escaped? letter).map fun char => (char, rest)
  | [] => none

theorem length_readEscape? {text rest : List Char} {char : Char}
    (h : readEscape? text = some (char, rest)) : rest.length < text.length := by
  unfold readEscape? at h
  split at h
  · obtain ⟨_, -, he⟩ := Option.map_eq_some_iff.1 h
    cases he
    simp only [List.length_cons]
    omega
  · obtain ⟨_, -, he⟩ := Option.map_eq_some_iff.1 h
    cases he
    simp only [List.length_cons]
    omega
  · obtain ⟨_, -, he⟩ := Option.map_eq_some_iff.1 h
    cases he
    simp
  · cases h

/-- What was read with a character in front. -/
def prepend (char : Char) (read : Option (List Char × List Char)) :
    Option (List Char × List Char) :=
  read.map fun (text, rest) => (char :: text, rest)

/-- Reads a text in double quotes after the opening one. -/
def readQuoted? : Reader (List Char)
  | [] => none
  | '"' :: rest => some ([], rest)
  | '\\' :: rest =>
    match _h : readEscape? rest with
    | some (char, rest') => prepend char (readQuoted? rest')
    | none => none
  | char :: rest => if isForbidden char then none else prepend char (readQuoted? rest)
termination_by text => text.length
decreasing_by
  · have := length_readEscape? _h
    simp only [List.length_cons]
    omega
  · simp

/-- Reads a text in single quotes after the opening one. -/
def readLiteral? : Reader (List Char)
  | [] => none
  | '\'' :: rest => some ([], rest)
  | char :: rest => if isForbidden char then none else prepend char (readLiteral? rest)

/-- The quotes right after three of them: up to two belong to the text that the three close. -/
def closingQuotes (quote : Char) (rest : List Char) : List Char × List Char :=
  let quotes := (rest.take 2).takeWhile (· = quote)
  (quotes, rest.drop quotes.length)

/-- Reads a text in threefold double quotes after the opening ones. A backslash at the end of a
line takes away the break and all blanks and breaks after it; `skips` says that this is under
way. -/
def readLongQuoted? (skips : Bool) : Reader (List Char)
  | [] => none
  | '"' :: '"' :: '"' :: rest => some (closingQuotes '"' rest)
  | '\n' :: rest =>
    if skips then readLongQuoted? true rest else prepend '\n' (readLongQuoted? false rest)
  | '\r' :: '\n' :: rest =>
    if skips then readLongQuoted? true rest else prepend '\n' (readLongQuoted? false rest)
  | '\\' :: rest =>
    if (dropBreak? (dropBlanks rest)).isSome then readLongQuoted? true rest
    else
      match _h : readEscape? rest with
      | some (char, rest') => prepend char (readLongQuoted? false rest')
      | none => none
  | char :: rest =>
    if isForbidden char then none
    else if skips && isBlank char then readLongQuoted? true rest
    else prepend char (readLongQuoted? false rest)
termination_by text => text.length
decreasing_by
  all_goals simp only [List.length_cons]
  all_goals try have shorter := length_readEscape? _h
  all_goals omega

/-- Reads a text in threefold single quotes after the opening ones. -/
def readLongLiteral? : Reader (List Char)
  | [] => none
  | '\'' :: '\'' :: '\'' :: rest => some (closingQuotes '\'' rest)
  | '\n' :: rest => prepend '\n' (readLongLiteral? rest)
  | '\r' :: '\n' :: rest => prepend '\n' (readLongLiteral? rest)
  | char :: rest => if isForbidden char then none else prepend char (readLongLiteral? rest)

/-- Reads a quoted text of any kind. A line break right after three opening quotes is no part of
the text. -/
def readText? (text : List Char) : Option (String × List Char) :=
  let characters := match text with
    | '"' :: '"' :: '"' :: rest => readLongQuoted? false ((dropBreak? rest).getD rest)
    | '"' :: rest => readQuoted? rest
    | '\'' :: '\'' :: '\'' :: rest => readLongLiteral? ((dropBreak? rest).getD rest)
    | '\'' :: rest => readLiteral? rest
    | _ => none
  characters.map fun (text, rest) => (String.ofList text, rest)

end Courier.Config.Toml
