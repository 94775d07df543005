import Courier.Number.Decimal
import Courier.Text.Quoted

/-!
# Selector Tokens

The text of a selector is cut into tokens: names, string literals, numbers, words with a fixed
meaning and signs. Each token is the longest one that starts where the last one ended, with
blanks in between skipped.

## Main definitions

* `Keyword`, `Sign`, `Token`: the tokens.
* `SelectorError`, `SelectorError.message`: everything that can be wrong with a selector.
* `Token.first`: the token that starts with a given character.
* `Token.scan`: the tokens of a text.

## Main results

* `Token.length_first`: a token takes up at least one character.
-/

namespace Courier

/-- The words with a fixed meaning. -/
inductive Keyword where
  | true
  | false
  | null
  | and
  | or
  | not
  | is
  | oneOf
  | like
  | escape
  | between
  deriving DecidableEq, Repr

namespace Keyword

/-- A word as it is written, in upper case. -/
def text : Keyword → String
  | true => "TRUE"
  | false => "FALSE"
  | null => "NULL"
  | and => "AND"
  | or => "OR"
  | not => "NOT"
  | is => "IS"
  | oneOf => "IN"
  | like => "LIKE"
  | escape => "ESCAPE"
  | between => "BETWEEN"

/-- A word as error messages show it. -/
def shown : Keyword → String
  | true => "True"
  | false => "False"
  | null => "Null"
  | and => "And"
  | or => "Or"
  | not => "Not"
  | is => "Is"
  | oneOf => "In"
  | like => "Like"
  | escape => "Escape"
  | between => "Between"

/-- All words. -/
def all : List Keyword :=
  [true, false, null, and, or, not, is, oneOf, like, escape, between]

/-- The word that a name spells, in any case of its ASCII letters. -/
def ofName? (name : List Char) : Option Keyword :=
  all.find? fun k => k.text.toList = name.map Char.toUpper

end Keyword

/-- Operators and punctuation. -/
inductive Sign where
  | eq
  | ne
  | lt
  | le
  | gt
  | ge
  | plus
  | minus
  | star
  | slash
  | lparen
  | rparen
  | comma
  deriving DecidableEq, Repr

namespace Sign

/-- A sign as it is written. -/
def text : Sign → String
  | eq => "="
  | ne => "<>"
  | lt => "<"
  | le => "<="
  | gt => ">"
  | ge => ">="
  | plus => "+"
  | minus => "-"
  | star => "*"
  | slash => "/"
  | lparen => "("
  | rparen => ")"
  | comma => ","

/-- A sign as error messages show it. -/
def shown : Sign → String
  | eq => "Eq"
  | ne => "Ne"
  | lt => "Lt"
  | le => "Le"
  | gt => "Gt"
  | ge => "Ge"
  | plus => "Plus"
  | minus => "Minus"
  | star => "Star"
  | slash => "Slash"
  | lparen => "LParen"
  | rparen => "RParen"
  | comma => "Comma"

end Sign

/-- A token of the selector language. -/
inductive Token where
  /-- The name of a property or header. -/
  | name (name : String)
  /-- A string literal, by its content. -/
  | string (s : String)
  /-- An integer. -/
  | int (n : Int64)
  /-- A floating-point number. -/
  | float (x : Float)
  /-- A word with a fixed meaning. -/
  | word (k : Keyword)
  /-- An operator or a punctuation mark. -/
  | sign (s : Sign)
  deriving DecidableEq, Repr

namespace Token

/-- Numbers in error messages are written positionally from 0.0001 up to ten to the sixteenth. -/
def floatStyle : FloatStyle where
  least := -4
  limit := 16
  mark := "e"
  fullMantissa := false
  nan := "NaN"
  infinity := "inf"

/-- A token as error messages show it. -/
def shown : Token → String
  | name n => "Ident(" ++ Text.quoted n ++ ")"
  | string s => "Str(" ++ Text.quoted s ++ ")"
  | int n => "Int(" ++ toString n.toInt ++ ")"
  | float x => "Float(" ++ floatStyle.write .double x.toBits.toNat ++ ")"
  | word k => k.shown
  | sign s => s.shown

/-- The token at some place, if there is one, as error messages show it. -/
def shownAt : Option Token → String
  | some t => "Some(" ++ t.shown ++ ")"
  | none => "None"

end Token

/-- Why a text is no selector. -/
inductive SelectorError where
  /-- A string literal has no end. -/
  | unterminatedString
  /-- An integer is above the range of integers. -/
  | integerTooLarge (digits : String)
  /-- No token starts with a character. -/
  | unexpectedCharacter (c : Char) (position : Nat)
  /-- Tokens follow the end of the expression. -/
  | trailingToken (token : Token)
  /-- A certain token has to stand at a place. -/
  | expected (token : Token) (found : Option Token)
  /-- A negation that belongs to no predicate. -/
  | danglingNot
  /-- The escape of a pattern is not one character. -/
  | badEscape
  /-- A number has to follow a sign in a list of literals. -/
  | expectedNumber (found : Option Token)
  /-- A literal has to stand at a place. -/
  | expectedLiteral (found : Option Token)
  /-- A string literal has to stand at a place. -/
  | expectedString (found : Option Token)
  /-- No expression starts with what stands at a place. -/
  | unexpectedToken (found : Option Token)
  deriving DecidableEq, Repr

/-- What is wrong with a selector, without the words in front. -/
def SelectorError.detail : SelectorError → String
  | unterminatedString => "unterminated string literal"
  | integerTooLarge digits =>
    "bad number '" ++ digits ++ "': " ++ IntegerFault.tooLarge.message
  | unexpectedCharacter c position =>
    "unexpected character '" ++ String.singleton c ++ "' at " ++ toString position
  | trailingToken token => "unexpected trailing token " ++ token.shown
  | expected token found => "expected " ++ token.shown ++ ", found " ++ Token.shownAt found
  | danglingNot => "NOT must be followed by IN, LIKE or BETWEEN"
  | badEscape => "ESCAPE must be a single character"
  | expectedNumber found => "expected number, found " ++ Token.shownAt found
  | expectedLiteral found => "expected literal, found " ++ Token.shownAt found
  | expectedString found => "expected string, found " ++ Token.shownAt found
  | unexpectedToken found => "unexpected token " ++ Token.shownAt found

/-- The report of a selector error. -/
def SelectorError.message (e : SelectorError) : String :=
  "Invalid filter: " ++ e.detail

namespace Token

/-- Whether a name may start with a character. -/
def startsName (c : Char) : Bool :=
  Text.isAlphabetic c || c = '_' || c = '$'

/-- Whether a name may go on with a character. -/
def continuesName (c : Char) : Bool :=
  Text.isAlphanumeric c || c = '_' || c = '$'

/-- The token of a name: a word with a fixed meaning, or else the name itself. -/
def ofName (name : List Char) : Token :=
  match Keyword.ofName? name with
  | some k => .word k
  | none => .name (String.ofList name)

/-- The content of a string literal after its opening quote, and what follows its closing quote.
Two quotes in a row stand for one. -/
def quoted? : List Char → Option (List Char × List Char)
  | [] => none
  | '\'' :: '\'' :: rest => (quoted? rest).map fun (content, after) => ('\'' :: content, after)
  | '\'' :: rest => some ([], rest)
  | c :: rest => (quoted? rest).map fun (content, after) => (c :: content, after)

/-- The fraction at the front of a text: a point and digits. -/
def fraction : List Char → List Char × List Char
  | '.' :: rest => ('.' :: rest.takeWhile Char.isDigit, rest.dropWhile Char.isDigit)
  | rest => ([], rest)

/-- The sign at the front of an exponent, which may be missing. -/
def exponentSign : List Char → List Char × List Char
  | '+' :: digits => (['+'], digits)
  | '-' :: digits => (['-'], digits)
  | digits => ([], digits)

/-- The exponent at the front of a text: a mark, an optional sign and at least one digit. -/
def exponent : List Char → List Char × List Char
  | [] => ([], [])
  | e :: rest =>
    let signed := exponentSign rest
    if (e = 'e' ∨ e = 'E') ∧ signed.2.takeWhile Char.isDigit ≠ [] then
      (e :: signed.1 ++ signed.2.takeWhile Char.isDigit, signed.2.dropWhile Char.isDigit)
    else ([], e :: rest)

/-- A text without the one suffix letter that it may start with. -/
def dropSuffix (letters : List Char) : List Char → List Char
  | [] => []
  | c :: rest => if c ∈ letters then rest else c :: rest

/-- The digits and the fraction of a number that starts with a character, and what follows. -/
def mantissa (c : Char) (rest : List Char) : List Char × List Char × List Char :=
  if c = '.' then ([], '.' :: rest.takeWhile Char.isDigit, rest.dropWhile Char.isDigit)
  else (c :: rest.takeWhile Char.isDigit, fraction (rest.dropWhile Char.isDigit))

/-- The number that starts with a character, and what follows it. A number with a point or an
exponent is a floating-point number; both kinds may end in a letter that says so. -/
def number (c : Char) (rest : List Char) : Except SelectorError (Token × List Char) :=
  let (digits, point, rest) := mantissa c rest
  let (power, rest) := exponent rest
  if point.isEmpty && power.isEmpty then
    if Decimal.ofDigits digits < 1 <<< 63 then
      .ok (.int (Int64.ofNat (Decimal.ofDigits digits)), dropSuffix ['l', 'L'] rest)
    else .error (.integerTooLarge (String.ofList digits))
  else
    let value := (Decimal.read? (digits ++ point ++ power)).map BinaryFormat.double.ofDecimal
    .ok
      (.float (Float.ofBits (UInt64.ofNat (value.getD 0))), dropSuffix ['d', 'D', 'f', 'F'] rest)

/-- The sign that starts with a character, and what follows it. -/
def sign? (c : Char) (rest : List Char) : Option (Sign × List Char) :=
  match c, rest with
  | '(', rest => some (.lparen, rest)
  | ')', rest => some (.rparen, rest)
  | ',', rest => some (.comma, rest)
  | '+', rest => some (.plus, rest)
  | '-', rest => some (.minus, rest)
  | '*', rest => some (.star, rest)
  | '/', rest => some (.slash, rest)
  | '=', rest => some (.eq, rest)
  | '<', '>' :: rest => some (.ne, rest)
  | '<', '=' :: rest => some (.le, rest)
  | '<', rest => some (.lt, rest)
  | '>', '=' :: rest => some (.ge, rest)
  | '>', rest => some (.gt, rest)
  | _, _ => none

/-- Whether a number starts with a character: a digit, or a point before a digit. -/
def startsNumber (c : Char) (rest : List Char) : Bool :=
  c.isDigit || (c = '.' && (rest.head?.any Char.isDigit))

/-- The token that starts with a character at a position, and what follows it. -/
def first (position : Nat) (c : Char) (rest : List Char) :
    Except SelectorError (Token × List Char) :=
  match sign? c rest with
  | some (s, rest) => .ok (.sign s, rest)
  | none =>
    if c = '\'' then
      match quoted? rest with
      | some (content, rest) => .ok (.string (String.ofList content), rest)
      | none => .error .unterminatedString
    else if startsNumber c rest then number c rest
    else if startsName c then
      .ok (ofName (c :: rest.takeWhile continuesName), rest.dropWhile continuesName)
    else .error (.unexpectedCharacter c position)

/-! ### Tokens take up characters -/

theorem length_quoted? {text content rest : List Char} (h : quoted? text = some (content, rest)) :
    rest.length < text.length := by
  fun_induction quoted? text generalizing content with
  | case1 => cases h
  | case2 text ih =>
    obtain ⟨⟨content', rest'⟩, hq, heq⟩ := Option.map_eq_some_iff.1 h
    cases heq
    have := ih hq
    simp only [List.length_cons]
    omega
  | case3 => cases h; simp
  | case4 c text _ _ ih =>
    obtain ⟨⟨content', rest'⟩, hq, heq⟩ := Option.map_eq_some_iff.1 h
    cases heq
    have := ih hq
    simp only [List.length_cons]
    omega

theorem length_dropWhile_le (p : Char → Bool) (text : List Char) :
    (text.dropWhile p).length ≤ text.length :=
  (List.dropWhile_sublist p).length_le

theorem length_fraction (text : List Char) : (fraction text).2.length ≤ text.length := by
  unfold fraction
  split
  · next rest =>
    have := length_dropWhile_le Char.isDigit rest
    simp only [List.length_cons]
    omega
  · exact Nat.le_refl _

theorem length_exponentSign (text : List Char) :
    (exponentSign text).2.length ≤ text.length := by
  unfold exponentSign
  split <;> simp

theorem length_exponent (text : List Char) : (exponent text).2.length ≤ text.length := by
  cases text with
  | nil => exact Nat.le_refl _
  | cons e rest =>
    simp only [exponent]
    split
    · have := length_dropWhile_le Char.isDigit (exponentSign rest).2
      have := length_exponentSign rest
      simp only [List.length_cons]
      omega
    · exact Nat.le_refl _

theorem length_dropSuffix (letters text : List Char) :
    (dropSuffix letters text).length ≤ text.length := by
  cases text with
  | nil => exact Nat.le_refl _
  | cons c rest => simp only [dropSuffix]; split <;> simp

theorem length_mantissa (c : Char) (rest : List Char) :
    (mantissa c rest).2.2.length ≤ rest.length := by
  unfold mantissa
  split
  · exact length_dropWhile_le ..
  · exact Nat.le_trans (length_fraction _) (length_dropWhile_le ..)

theorem length_number {c : Char} {text rest : List Char} {t : Token}
    (h : number c text = .ok (t, rest)) : rest.length ≤ text.length := by
  have hm := length_mantissa c text
  have he := length_exponent (mantissa c text).2.2
  simp only [number] at h
  split at h
  · split at h
    · cases h
      exact Nat.le_trans (length_dropSuffix ..) (Nat.le_trans he hm)
    · cases h
  · cases h
    exact Nat.le_trans (length_dropSuffix ..) (Nat.le_trans he hm)

theorem length_sign? {c : Char} {text rest : List Char} {s : Sign}
    (h : sign? c text = some (s, rest)) : rest.length ≤ text.length := by
  unfold sign? at h
  split at h <;> cases h <;> simp

/-- A token takes up the character that it starts with. -/
theorem length_first {position : Nat} {c : Char} {text rest : List Char} {t : Token}
    (h : first position c text = .ok (t, rest)) : rest.length ≤ text.length := by
  unfold first at h
  split at h
  · next hs => cases h; exact length_sign? hs
  · split at h
    · split at h
      · next hq => cases h; exact Nat.le_of_lt (length_quoted? hq)
      · cases h
    · split at h
      · exact length_number h
      · split at h
        · cases h; exact length_dropWhile_le ..
        · cases h

/-- The tokens of the end of a text of a given length. -/
def scanFrom (length : Nat) : List Char → Except SelectorError (List Token)
  | [] => .ok []
  | c :: rest =>
    if Text.isBlank c then scanFrom length rest
    else
      match _h : first (length - (rest.length + 1)) c rest with
      | .error e => .error e
      | .ok (t, after) =>
        match scanFrom length after with
        | .error e => .error e
        | .ok ts => .ok (t :: ts)
termination_by text => text.length
decreasing_by
  · exact Nat.lt_succ_self _
  · exact Nat.lt_succ_of_le (length_first _h)

/-- The tokens of a text. -/
def scan (text : List Char) : Except SelectorError (List Token) :=
  scanFrom text.length text

end Token

end Courier
