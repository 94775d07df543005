import Courier.Selector.Expr
import Courier.Text.Hex

/-!
# Expressions in Prefix Notation

The structure of an expression in plain sight: each operator stands in parentheses in front of
its operands. Texts stand between double quotes, and numbers that are not integers are shown by
their bits.

## Main definitions

* `Expr.inPrefix`: an expression in prefix notation.
-/

namespace Courier

namespace Notation

/-- The written form of a character between double quotes. -/
def escape (c : Char) : List Char :=
  if c = '"' then ['\\', '"']
  else if c = '\\' then ['\\', '\\']
  else if c = '\x08' then ['\\', 'b']
  else if c = '\x0c' then ['\\', 'f']
  else if c = '\n' then ['\\', 'n']
  else if c = '\r' then ['\\', 'r']
  else if c = '\t' then ['\\', 't']
  else if c.toNat < 32 then ['\\', 'u'] ++ (hexText 4 c.toNat).toList
  else [c]

/-- A text between double quotes. -/
def quoted (s : String) : String :=
  "\"" ++ String.ofList (s.toList.flatMap escape) ++ "\""

/-- An operator with its operands. -/
def form (parts : List String) : String :=
  "(" ++ " ".intercalate parts ++ ")"

end Notation

open Notation (quoted form)

/-- A literal in prefix notation. -/
def Literal.inPrefix : Literal → String
  | bool b => if b then "true" else "false"
  | int n => form ["int", toString n.toInt]
  | float x => form ["float", hexText 16 x.toBits.toNat]
  | string s => form ["str", quoted s]
  | null => "null"

/-- The word for a comparison. -/
def Comparison.word : Comparison → String
  | eq => "eq"
  | ne => "ne"
  | lt => "lt"
  | le => "le"
  | gt => "gt"
  | ge => "ge"

/-- The word for an arithmetic operation. -/
def Arithmetic.word : Arithmetic → String
  | add => "add"
  | sub => "sub"
  | mul => "mul"
  | div => "div"

/-- An expression in prefix notation. -/
def Expr.inPrefix : Expr → String
  | literal l => l.inPrefix
  | name n => form ["id", quoted n]
  | not e => form ["not", e.inPrefix]
  | and a b => form ["and", a.inPrefix, b.inPrefix]
  | or a b => form ["or", a.inPrefix, b.inPrefix]
  | compare op a b => form [op.word, a.inPrefix, b.inPrefix]
  | arith op a b => form [op.word, a.inPrefix, b.inPrefix]
  | negate e => form ["neg", e.inPrefix]
  | isNull e negated => form [if negated then "isnotnull" else "isnull", e.inPrefix]
  | oneOf e list negated =>
    form ((if negated then "notin" else "in") :: e.inPrefix :: list.map Literal.inPrefix)
  | like e pattern escape negated =>
    form [if negated then "notlike" else "like", e.inPrefix, quoted pattern,
      (escape.map fun c => quoted (String.singleton c)).getD "-"]
  | between e low high negated =>
    form [if negated then "notbetween" else "between", e.inPrefix, low.inPrefix, high.inPrefix]

end Courier
