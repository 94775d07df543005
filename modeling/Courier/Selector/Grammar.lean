import Courier.Selector.Expr
import Courier.Selector.Token

/-!
# The Selector Grammar

Reads tokens as an expression. From the loosest to the tightest, the levels of the grammar are
disjunction, conjunction, negation, predicates, sums, products, signs and operands; binary
operators group to the left.

Each level reads from the front of the tokens and hands back the rest together with a proof
that it is shorter, which is why the levels may call one another.

## Main definitions

* `Expr.orLevel` down to `Expr.operand`: the levels.
* `Expr.ofTokens`: the expression that fills a list of tokens.
* `Expr.parse`: the expression that fills a text.
-/

namespace Courier

/-- What is read from the front of some tokens, and the tokens left, which are fewer. -/
abbrev Parsed (α : Type) (tokens : List Token) : Type :=
  Except SelectorError (α × { rest : List Token // rest.length < tokens.length })

/-- What is read from the front of some tokens, or nothing, and the tokens left. -/
abbrev MaybeParsed (α : Type) (tokens : List Token) : Type :=
  Except SelectorError (α × { rest : List Token // rest.length ≤ tokens.length })

/-- Reads one certain token. -/
def Token.expect (t : Token) : (tokens : List Token) → Parsed Unit tokens
  | found :: rest =>
    if found = t then .ok ((), ⟨rest, by simp⟩) else .error (.expected t (some found))
  | [] => .error (.expected t none)

namespace Literal

/-- Reads a literal: a string, a truth value, or a number with an optional minus sign. -/
def read : (tokens : List Token) → Parsed Literal tokens
  | .string s :: rest => .ok (.string s, ⟨rest, by simp⟩)
  | .int n :: rest => .ok (.int n, ⟨rest, by simp⟩)
  | .float x :: rest => .ok (.float x, ⟨rest, by simp⟩)
  | .word .true :: rest => .ok (.bool true, ⟨rest, by simp⟩)
  | .word .false :: rest => .ok (.bool false, ⟨rest, by simp⟩)
  | .sign .minus :: .int n :: rest =>
    .ok (.int (-n), ⟨rest, by simp only [List.length_cons]; omega⟩)
  | .sign .minus :: .float x :: rest =>
    .ok (.float (-x), ⟨rest, by simp only [List.length_cons]; omega⟩)
  | .sign .minus :: rest => .error (.expectedNumber rest.head?)
  | tokens => .error (.expectedLiteral tokens.head?)

/-- Reads the rest of a list of literals after its first one, with the closing parenthesis. -/
def readMore (found : List Literal) (tokens : List Token) : Parsed (List Literal) tokens :=
  match tokens with
  | .sign .rparen :: rest => .ok (found, ⟨rest, by simp⟩)
  | .sign .comma :: rest =>
    match read rest with
    | .error e => .error e
    | .ok (l, ⟨rest', h⟩) =>
      match readMore (found ++ [l]) rest' with
      | .error e => .error e
      | .ok (list, ⟨rest'', h'⟩) =>
        .ok (list, ⟨rest'', by simp only [List.length_cons]; omega⟩)
  | tokens => .error (.expected (.sign .rparen) tokens.head?)
termination_by tokens.length
decreasing_by simp only [List.length_cons]; omega

/-- Reads a list of literals in parentheses. -/
def readList (tokens : List Token) : Parsed (List Literal) tokens :=
  match Token.expect (.sign .lparen) tokens with
  | .error e => .error e
  | .ok (_, ⟨rest, h⟩) =>
    match read rest with
    | .error e => .error e
    | .ok (l, ⟨rest', h'⟩) =>
      match readMore [l] rest' with
      | .error e => .error e
      | .ok (list, ⟨rest'', h''⟩) => .ok (list, ⟨rest'', by omega⟩)

end Literal

/-- The comparison that a sign stands for. -/
def Comparison.ofSign? : Sign → Option Comparison
  | .eq => some .eq
  | .ne => some .ne
  | .lt => some .lt
  | .le => some .le
  | .gt => some .gt
  | .ge => some .ge
  | _ => none

namespace Expr

/-- Reads a string literal. -/
def readString : (tokens : List Token) → Parsed String tokens
  | .string s :: rest => .ok (s, ⟨rest, by simp⟩)
  | tokens => .error (.expectedString tokens.head?)

/-- Reads the escape of a pattern, if there is one. -/
def readEscape : (tokens : List Token) → MaybeParsed (Option Char) tokens
  | .word .escape :: rest =>
    match readString rest with
    | .error e => .error e
    | .ok (s, ⟨rest', h⟩) =>
      match s.toList with
      | [c] => .ok (some c, ⟨rest', by simp only [List.length_cons]; omega⟩)
      | _ => .error .badEscape
  | tokens => .ok (none, ⟨tokens, Nat.le_refl _⟩)

/-- Reads a pattern with its escape. -/
def readPattern (tokens : List Token) : Parsed (String × Option Char) tokens :=
  match readString tokens with
  | .error e => .error e
  | .ok (pattern, ⟨rest, h⟩) =>
    match readEscape rest with
    | .error e => .error e
    | .ok (escape, ⟨rest', h'⟩) => .ok ((pattern, escape), ⟨rest', by omega⟩)

/-- Reads the test for a missing value after its first word. -/
def readNullTest (left : Expr) (tokens : List Token) : Parsed Expr tokens :=
  match tokens with
  | .word .not :: rest =>
    match Token.expect (.word .null) rest with
    | .error e => .error e
    | .ok (_, ⟨rest', h⟩) =>
      .ok (.isNull left true, ⟨rest', by simp only [List.length_cons]; omega⟩)
  | tokens =>
    match Token.expect (.word .null) tokens with
    | .error e => .error e
    | .ok (_, ⟨rest, h⟩) => .ok (.isNull left false, ⟨rest, h⟩)

mutual

/-- Reads a disjunction. -/
def orLevel (tokens : List Token) : Parsed Expr tokens :=
  match andLevel tokens with
  | .error e => .error e
  | .ok (left, ⟨rest, h⟩) =>
    match orMore left rest with
    | .error e => .error e
    | .ok (e, ⟨rest', h'⟩) => .ok (e, ⟨rest', by omega⟩)
termination_by tokens.length * 10 + 7

/-- Reads further members of a disjunction. -/
def orMore (left : Expr) (tokens : List Token) : MaybeParsed Expr tokens :=
  match tokens with
  | .word .or :: rest =>
    match andLevel rest with
    | .error e => .error e
    | .ok (right, ⟨rest', h⟩) =>
      match orMore (.or left right) rest' with
      | .error e => .error e
      | .ok (e, ⟨rest'', h'⟩) => .ok (e, ⟨rest'', by simp only [List.length_cons]; omega⟩)
  | tokens => .ok (left, ⟨tokens, Nat.le_refl _⟩)
termination_by tokens.length * 10

/-- Reads a conjunction. -/
def andLevel (tokens : List Token) : Parsed Expr tokens :=
  match notLevel tokens with
  | .error e => .error e
  | .ok (left, ⟨rest, h⟩) =>
    match andMore left rest with
    | .error e => .error e
    | .ok (e, ⟨rest', h'⟩) => .ok (e, ⟨rest', by omega⟩)
termination_by tokens.length * 10 + 6

/-- Reads further members of a conjunction. -/
def andMore (left : Expr) (tokens : List Token) : MaybeParsed Expr tokens :=
  match tokens with
  | .word .and :: rest =>
    match notLevel rest with
    | .error e => .error e
    | .ok (right, ⟨rest', h⟩) =>
      match andMore (.and left right) rest' with
      | .error e => .error e
      | .ok (e, ⟨rest'', h'⟩) => .ok (e, ⟨rest'', by simp only [List.length_cons]; omega⟩)
  | tokens => .ok (left, ⟨tokens, Nat.le_refl _⟩)
termination_by tokens.length * 10

/-- Reads a negation or a predicate. -/
def notLevel (tokens : List Token) : Parsed Expr tokens :=
  match tokens with
  | .word .not :: rest =>
    match notLevel rest with
    | .error e => .error e
    | .ok (e, ⟨rest', h⟩) => .ok (.not e, ⟨rest', by simp only [List.length_cons]; omega⟩)
  | tokens => predicate tokens
termination_by tokens.length * 10 + 5

/-- Reads a predicate, or a sum that stands alone. -/
def predicate (tokens : List Token) : Parsed Expr tokens :=
  match sum tokens with
  | .error e => .error e
  | .ok (left, ⟨rest, h⟩) =>
    match predicateOf left rest with
    | .error e => .error e
    | .ok (e, ⟨rest', h'⟩) => .ok (e, ⟨rest', by omega⟩)
termination_by tokens.length * 10 + 4

/-- Reads what is said of a sum, if anything is. -/
def predicateOf (left : Expr) (tokens : List Token) : MaybeParsed Expr tokens :=
  match tokens with
  | .word .is :: rest =>
    match readNullTest left rest with
    | .error e => .error e
    | .ok (e, ⟨rest', h⟩) => .ok (e, ⟨rest', by simp only [List.length_cons]; omega⟩)
  | .word .not :: rest =>
    match negatable left true rest with
    | .error e => .error e
    | .ok (some e, ⟨rest', h⟩) => .ok (e, ⟨rest', by simp only [List.length_cons]; omega⟩)
    | .ok (none, _) => .error .danglingNot
  | .sign s :: rest =>
    match Comparison.ofSign? s with
    | none => .ok (left, ⟨.sign s :: rest, Nat.le_refl _⟩)
    | some op =>
      match sum rest with
      | .error e => .error e
      | .ok (right, ⟨rest', h⟩) =>
        .ok (.compare op left right, ⟨rest', by simp only [List.length_cons]; omega⟩)
  | tokens =>
    match negatable left false tokens with
    | .error e => .error e
    | .ok (some e, rest) => .ok (e, rest)
    | .ok (none, _) => .ok (left, ⟨tokens, Nat.le_refl _⟩)
termination_by tokens.length * 10 + 1

/-- Reads one of the predicates that have a negated form, if one stands there. -/
def negatable (left : Expr) (negated : Bool) (tokens : List Token) :
    MaybeParsed (Option Expr) tokens :=
  match tokens with
  | .word .oneOf :: rest =>
    match Literal.readList rest with
    | .error e => .error e
    | .ok (list, ⟨rest', h⟩) =>
      .ok (some (.oneOf left list negated), ⟨rest', by simp only [List.length_cons]; omega⟩)
  | .word .like :: rest =>
    match readPattern rest with
    | .error e => .error e
    | .ok ((pattern, escape), ⟨rest', h⟩) =>
      .ok (some (.like left pattern escape negated),
        ⟨rest', by simp only [List.length_cons]; omega⟩)
  | .word .between :: rest =>
    match sum rest with
    | .error e => .error e
    | .ok (low, ⟨rest', h⟩) =>
      match Token.expect (.word .and) rest' with
      | .error e => .error e
      | .ok (_, ⟨rest'', h'⟩) =>
        match sum rest'' with
        | .error e => .error e
        | .ok (high, ⟨rest₃, h''⟩) =>
          .ok (some (.between left low high negated),
            ⟨rest₃, by simp only [List.length_cons]; omega⟩)
  | tokens => .ok (none, ⟨tokens, Nat.le_refl _⟩)
termination_by tokens.length * 10

/-- Reads a sum. -/
def sum (tokens : List Token) : Parsed Expr tokens :=
  match product tokens with
  | .error e => .error e
  | .ok (left, ⟨rest, h⟩) =>
    match sumMore left rest with
    | .error e => .error e
    | .ok (e, ⟨rest', h'⟩) => .ok (e, ⟨rest', by omega⟩)
termination_by tokens.length * 10 + 3

/-- Reads further members of a sum. -/
def sumMore (left : Expr) (tokens : List Token) : MaybeParsed Expr tokens :=
  match tokens with
  | .sign .plus :: rest =>
    match product rest with
    | .error e => .error e
    | .ok (right, ⟨rest', h⟩) =>
      match sumMore (.arith .add left right) rest' with
      | .error e => .error e
      | .ok (e, ⟨rest'', h'⟩) => .ok (e, ⟨rest'', by simp only [List.length_cons]; omega⟩)
  | .sign .minus :: rest =>
    match product rest with
    | .error e => .error e
    | .ok (right, ⟨rest', h⟩) =>
      match sumMore (.arith .sub left right) rest' with
      | .error e => .error e
      | .ok (e, ⟨rest'', h'⟩) => .ok (e, ⟨rest'', by simp only [List.length_cons]; omega⟩)
  | tokens => .ok (left, ⟨tokens, Nat.le_refl _⟩)
termination_by tokens.length * 10

/-- Reads a product. -/
def product (tokens : List Token) : Parsed Expr tokens :=
  match signed tokens with
  | .error e => .error e
  | .ok (left, ⟨rest, h⟩) =>
    match productMore left rest with
    | .error e => .error e
    | .ok (e, ⟨rest', h'⟩) => .ok (e, ⟨rest', by omega⟩)
termination_by tokens.length * 10 + 2

/-- Reads further members of a product. -/
def productMore (left : Expr) (tokens : List Token) : MaybeParsed Expr tokens :=
  match tokens with
  | .sign .star :: rest =>
    match signed rest with
    | .error e => .error e
    | .ok (right, ⟨rest', h⟩) =>
      match productMore (.arith .mul left right) rest' with
      | .error e => .error e
      | .ok (e, ⟨rest'', h'⟩) => .ok (e, ⟨rest'', by simp only [List.length_cons]; omega⟩)
  | .sign .slash :: rest =>
    match signed rest with
    | .error e => .error e
    | .ok (right, ⟨rest', h⟩) =>
      match productMore (.arith .div left right) rest' with
      | .error e => .error e
      | .ok (e, ⟨rest'', h'⟩) => .ok (e, ⟨rest'', by simp only [List.length_cons]; omega⟩)
  | tokens => .ok (left, ⟨tokens, Nat.le_refl _⟩)
termination_by tokens.length * 10

/-- Reads an operand with the signs in front of it. -/
def signed (tokens : List Token) : Parsed Expr tokens :=
  match tokens with
  | .sign .minus :: rest =>
    match signed rest with
    | .error e => .error e
    | .ok (e, ⟨rest', h⟩) => .ok (.negate e, ⟨rest', by simp only [List.length_cons]; omega⟩)
  | .sign .plus :: rest =>
    match signed rest with
    | .error e => .error e
    | .ok (e, ⟨rest', h⟩) => .ok (e, ⟨rest', by simp only [List.length_cons]; omega⟩)
  | tokens => operand tokens
termination_by tokens.length * 10 + 1

/-- Reads a name, a value, or an expression in parentheses. -/
def operand (tokens : List Token) : Parsed Expr tokens :=
  match tokens with
  | .sign .lparen :: rest =>
    match orLevel rest with
    | .error e => .error e
    | .ok (e, ⟨rest', h⟩) =>
      match Token.expect (.sign .rparen) rest' with
      | .error e => .error e
      | .ok (_, ⟨rest'', h'⟩) => .ok (e, ⟨rest'', by simp only [List.length_cons]; omega⟩)
  | .name n :: rest => .ok (.name n, ⟨rest, by simp⟩)
  | .string s :: rest => .ok (.literal (.string s), ⟨rest, by simp⟩)
  | .int n :: rest => .ok (.literal (.int n), ⟨rest, by simp⟩)
  | .float x :: rest => .ok (.literal (.float x), ⟨rest, by simp⟩)
  | .word .true :: rest => .ok (.literal (.bool true), ⟨rest, by simp⟩)
  | .word .false :: rest => .ok (.literal (.bool false), ⟨rest, by simp⟩)
  | .word .null :: rest => .ok (.literal .null, ⟨rest, by simp⟩)
  | tokens => .error (.unexpectedToken tokens.head?)
termination_by tokens.length * 10

end

/-- The expression that fills a list of tokens. -/
def ofTokens (tokens : List Token) : Except SelectorError Expr :=
  match orLevel tokens with
  | .error e => .error e
  | .ok (e, ⟨rest, _⟩) =>
    match rest with
    | [] => .ok e
    | t :: _ => .error (.trailingToken t)

/-- The expression that fills a text. -/
def parse (text : String) : Except SelectorError Expr :=
  match Token.scan text.toList with
  | .error e => .error e
  | .ok tokens => ofTokens tokens

end Expr

end Courier
