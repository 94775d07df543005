/-!
# Selector Expressions

The expressions of the selector language, as trees. Parentheses and the unary plus leave no
trace in a tree; a negated predicate keeps its negation as a flag.

## Main definitions

* `Literal`: the values that are written out in a selector.
* `Comparison`, `Arithmetic`: the binary operators.
* `Expr`: the expressions.
-/

namespace Courier

/-- A value that is written out in a selector. -/
inductive Literal where
  | bool (b : Bool)
  | int (n : Int64)
  | float (x : Float)
  | string (s : String)
  | null
  deriving DecidableEq, Repr

/-- The comparison operators. -/
inductive Comparison where
  | eq
  | ne
  | lt
  | le
  | gt
  | ge
  deriving DecidableEq, Repr

/-- The arithmetic operators. -/
inductive Arithmetic where
  | add
  | sub
  | mul
  | div
  deriving DecidableEq, Repr

/-- An expression. -/
inductive Expr where
  /-- A value. -/
  | literal (value : Literal)
  /-- The value of a property or header. -/
  | name (name : String)
  /-- Logical negation. -/
  | not (e : Expr)
  /-- Logical conjunction. -/
  | and (left right : Expr)
  /-- Logical disjunction. -/
  | or (left right : Expr)
  /-- A comparison of two values. -/
  | compare (op : Comparison) (left right : Expr)
  /-- An arithmetic operation on two numbers. -/
  | arith (op : Arithmetic) (left right : Expr)
  /-- The negative of a number. -/
  | negate (e : Expr)
  /-- Whether there is no value. -/
  | isNull (e : Expr) (negated : Bool)
  /-- Whether a value is one of a list. -/
  | oneOf (e : Expr) (list : List Literal) (negated : Bool)
  /-- Whether a text matches a pattern. -/
  | like (e : Expr) (pattern : String) (escape : Option Char) (negated : Bool)
  /-- Whether a value lies between two others. -/
  | between (e low high : Expr) (negated : Bool)
  deriving DecidableEq, Repr

end Courier
