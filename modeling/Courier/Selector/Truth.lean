import Courier.Glob
import Courier.Selector.Expr

/-!
# Truth of Selector Expressions

Expressions are evaluated in three-valued logic. What has no value is `none`: a name that is
not set, null, an operation between kinds that do not go together, a division of integers by
zero. A truth value that is `none` is unknown, and conjunction, disjunction and negation treat
it as a third value between false and true.

Integers stay integers as long as the exact result fits in 64 bits; a sum, difference or
product that does not fit is computed in floating point. A comparison between numbers of
different kinds is made in floating point, too.

## Main definitions

* `SelectorValue`, `Context`: the values, and what names stand for.
* `Comparison.apply`, `Arithmetic.apply`: the binary operators.
* `Like.parts`, `Like.matches`: patterns on text, which are globs over characters.
* `Expr.eval`, `Expr.truth`: the value of an expression, and its truth value.
-/

namespace Courier

/-- A value of the selector language. -/
inductive SelectorValue where
  | bool (b : Bool)
  | int (n : Int64)
  | float (x : Float)
  | string (s : String)
  deriving DecidableEq, Repr

/-- What the names in an expression stand for. -/
abbrev Context : Type := String → Option SelectorValue

namespace SelectorValue

/-- A number in floating point. -/
def toFloat? : SelectorValue → Option Float
  | int n => some n.toFloat
  | float x => some x
  | _ => none

end SelectorValue

/-- The value of a literal; null has none. -/
def Literal.value? : Literal → Option SelectorValue
  | .bool b => some (.bool b)
  | .int n => some (.int n)
  | .float x => some (.float x)
  | .string s => some (.string s)
  | .null => none

/-! ### Comparisons -/

/-- How two floating-point numbers compare; what is no number compares with nothing. -/
def compareFloat (a b : Float) : Option Ordering :=
  if a < b then some .lt
  else if b < a then some .gt
  else if a == b then some .eq
  else none

namespace Comparison

/-- Whether a comparison holds between numbers that compare in some way. -/
def holds : Comparison → Ordering → Bool
  | eq, o => o = .eq
  | ne, o => o ≠ .eq
  | lt, o => o = .lt
  | le, o => o ≠ .gt
  | gt, o => o = .gt
  | ge, o => o ≠ .lt

/-- Whether a comparison holds between values that are only told apart. -/
def holdsFor : Comparison → Bool → Option Bool
  | eq, same => some same
  | ne, same => some (!same)
  | _, _ => none

/-- A comparison of two values. Texts and truth values can only be equal or not, and values of
different kinds do not compare unless both are numbers. -/
def apply (op : Comparison) : SelectorValue → SelectorValue → Option Bool
  | .int a, .int b => some (op.holds (compare a.toInt b.toInt))
  | .string a, .string b => op.holdsFor (a = b)
  | .bool a, .bool b => op.holdsFor (a = b)
  | a, b => do
    let x ← a.toFloat?
    let y ← b.toFloat?
    let o ← compareFloat x y
    return op.holds o

end Comparison

/-! ### Arithmetic -/

/-- The integer of 64 bits with an exact value, if there is one. -/
def int64? (n : Int) : Option Int64 :=
  if Int64.minValue.toInt ≤ n ∧ n ≤ Int64.maxValue.toInt then some (Int64.ofInt n) else none

namespace Arithmetic

/-- An operation on integers, with an exact result that fits. A quotient is cut toward zero. -/
def ofInts? (op : Arithmetic) (a b : Int) : Option Int64 :=
  match op with
  | add => int64? (a + b)
  | sub => int64? (a - b)
  | mul => int64? (a * b)
  | div => if b = 0 then none else int64? (a.tdiv b)

/-- An operation on floating-point numbers. -/
def onFloats : Arithmetic → Float → Float → Float
  | add, a, b => a + b
  | sub, a, b => a - b
  | mul, a, b => a * b
  | div, a, b => a / b

/-- An operation in floating point on numbers of either kind. -/
def inexact (op : Arithmetic) (a b : SelectorValue) : Option SelectorValue := do
  let x ← a.toFloat?
  let y ← b.toFloat?
  return .float (op.onFloats x y)

/-- An operation on two numbers. Only a quotient of integers has no value when the exact one
does not fit. -/
def apply (op : Arithmetic) : SelectorValue → SelectorValue → Option SelectorValue
  | .int a, .int b =>
    match op.ofInts? a.toInt b.toInt with
    | some n => some (.int n)
    | none => if op = div then none else op.inexact (.int a) (.int b)
  | a, b => op.inexact a b

end Arithmetic

/-- The negative of a number. The least integer has none. -/
def SelectorValue.negate? : SelectorValue → Option SelectorValue
  | int n => (int64? (-n.toInt)).map int
  | float x => some (float (-x))
  | _ => none

/-! ### Patterns -/

namespace Like

/-- A pattern as a glob over characters: a percent sign is a run, an underscore any character,
and the character after an escape stands for itself, as does an escape at the end. -/
def parts (escape : Option Char) : List Char → List (Glob.Part Char)
  | [] => []
  | c :: rest =>
    if some c = escape then
      match rest with
      | [] => [.literal c]
      | q :: rest => .literal q :: parts escape rest
    else if c = '%' then .run :: parts escape rest
    else if c = '_' then .single :: parts escape rest
    else .literal c :: parts escape rest

/-- Whether a pattern matches the whole of a text. -/
def «matches» (escape : Option Char) (pattern text : String) : Bool :=
  Glob.matches (parts escape pattern.toList) text.toList

end Like

/-! ### Expressions -/

/-- The conjunction of truth values. -/
def kleeneAnd : Option Bool → Option Bool → Option Bool
  | some false, _ => some false
  | _, some false => some false
  | some true, some true => some true
  | _, _ => none

/-- The disjunction of truth values. -/
def kleeneOr : Option Bool → Option Bool → Option Bool
  | some true, _ => some true
  | _, some true => some true
  | some false, some false => some false
  | _, _ => none

/-- The truth value that a value is, if it is one. -/
def SelectorValue.truth? : SelectorValue → Option Bool
  | bool b => some b
  | _ => none

namespace Expr

/-- The value of an expression, if it has one. A predicate over a missing value has none, except
for the test for a missing value. -/
def eval (context : Context) : Expr → Option SelectorValue
  | literal l => l.value?
  | name n => context n
  | not e => ((e.eval context).bind (·.truth?)).map fun b => .bool !b
  | and l r =>
    (kleeneAnd ((l.eval context).bind (·.truth?)) ((r.eval context).bind (·.truth?))).map .bool
  | or l r =>
    (kleeneOr ((l.eval context).bind (·.truth?)) ((r.eval context).bind (·.truth?))).map .bool
  | compare op l r => do
    let a ← l.eval context
    let b ← r.eval context
    return .bool (← op.apply a b)
  | arith op l r => do
    let a ← l.eval context
    let b ← r.eval context
    op.apply a b
  | negate e => (e.eval context).bind (·.negate?)
  | isNull e negated => some (.bool ((e.eval context).isNone != negated))
  | oneOf e list negated => do
    let v ← e.eval context
    let found := (list.filterMap Literal.value?).any fun w => Comparison.eq.apply v w = some true
    return .bool (found != negated)
  | like e pattern escape negated => do
    match ← e.eval context with
    | .string s => return .bool (Like.matches escape pattern s != negated)
    | _ => none
  | between e low high negated => do
    let v ← e.eval context
    let a ← low.eval context
    let b ← high.eval context
    let inside ← if ← Comparison.ge.apply v a then Comparison.le.apply v b else some false
    return .bool (inside != negated)

/-- The truth value of an expression; what has no value, or none that is a truth value, is
unknown. -/
def truth (context : Context) (e : Expr) : Option Bool :=
  (e.eval context).bind (·.truth?)

end Expr

end Courier
