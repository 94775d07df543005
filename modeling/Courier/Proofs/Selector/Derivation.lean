import Courier.Selector.Grammar

/-!
# What Tokens Mean

The grammar of selectors as a relation between tokens and expressions, without a word about how
tokens are read. From the loosest to the tightest, the levels are

* a disjunction: conjunctions with `OR` between them;
* a conjunction: negations with `AND` between them;
* a negation: `NOT` and a negation, or a predicate;
* a predicate: a sum, alone or compared with another one, or followed by `IS [NOT] NULL`,
  `[NOT] IN` and a list, `[NOT] LIKE` and a pattern with an optional escape, or `[NOT] BETWEEN` and
  two sums with `AND` between them;
* a sum: products with `+` or `-` between them;
* a product: signed operands with `*` or `/` between them;
* a signed operand: a sign and a signed operand, or an operand;
* an operand: a disjunction in parentheses, a name, a literal or `NULL`.

Binary operators group to the left, and a plus sign in front leaves no trace.

## Main definitions

* `Level`, `Level.next?`, `Level.join?`: the levels and the operators between their members.
* `DerivesLiterals`: the lists of literals.
* `Derives`: the expressions.

## Main results

* `Derives.starts`: how the tokens of an expression start.
-/

namespace Courier

/-- The levels of the grammar. -/
inductive Level where
  | disjunction
  | conjunction
  | negation
  | predicate
  | sum
  | product
  | signed
  | operand
  deriving DecidableEq, Repr

namespace Level

/-- The next tighter level, which something of a level may come down to. -/
def next? : Level → Option Level
  | disjunction => some conjunction
  | conjunction => some negation
  | negation => some predicate
  | predicate => some sum
  | sum => some product
  | product => some signed
  | signed => some operand
  | operand => none

/-- The binary operator that a token stands for between members of a level. -/
def join? : Level → Token → Option (Expr → Expr → Expr)
  | disjunction, .word .or => some .or
  | conjunction, .word .and => some .and
  | sum, .sign .plus => some (.arith .add)
  | sum, .sign .minus => some (.arith .sub)
  | product, .sign .star => some (.arith .mul)
  | product, .sign .slash => some (.arith .div)
  | _, _ => none

end Level

/-- The sign of a comparison. -/
def Comparison.sign : Comparison → Sign
  | .eq => .eq
  | .ne => .ne
  | .lt => .lt
  | .le => .le
  | .gt => .gt
  | .ge => .ge

/-- The literal that one token stands for. -/
def Token.literal? : Token → Option Literal
  | .string s => some (.string s)
  | .int n => some (.int n)
  | .float x => some (.float x)
  | .word .true => some (.bool true)
  | .word .false => some (.bool false)
  | _ => none

/-- The literals of lists: a literal token, or a minus sign and a number. The negative of an
integer is meant as a number. -/
inductive DerivesLiteral : List Token → Literal → Prop
  | token {t : Token} {v : Literal} : t.literal? = some v → DerivesLiteral [t] v
  | minusInt {n v : Int64} : v.toInt = -n.toInt → DerivesLiteral [.sign .minus, .int n] (.int v)
  | minusFloat (x : Float) : DerivesLiteral [.sign .minus, .float x] (.float (-x))

/-- Literals with commas between them. -/
inductive DerivesLiterals : List Token → List Literal → Prop
  | single {ts : List Token} {v : Literal} : DerivesLiteral ts v → DerivesLiterals ts [v]
  | comma {front ts : List Token} {list : List Literal} {v : Literal} :
      DerivesLiterals front list → DerivesLiteral ts v →
        DerivesLiterals (front ++ .sign .comma :: ts) (list ++ [v])

/-- The tokens of an optional negation. -/
def negation (negated : Bool) : List Token :=
  if negated then [.word .not] else []

/-- The tokens of an optional escape. -/
def escaping : Option Char → List Token
  | none => []
  | some c => [.word .escape, .string (String.singleton c)]

/-- What tokens mean on a level of the grammar. -/
inductive Derives : Level → List Token → Expr → Prop
  | alone {level next : Level} {ts : List Token} {e : Expr} : level.next? = some next →
      Derives next ts e → Derives level ts e
  | join {level next : Level} {ls rs : List Token} {t : Token} {f : Expr → Expr → Expr}
      {left right : Expr} : level.next? = some next → level.join? t = some f →
      Derives level ls left → Derives next rs right → Derives level (ls ++ t :: rs) (f left right)
  | not {ts : List Token} {e : Expr} : Derives .negation ts e →
      Derives .negation (.word .not :: ts) (.not e)
  | compare {ls rs : List Token} {left right : Expr} (op : Comparison) : Derives .sum ls left →
      Derives .sum rs right →
      Derives .predicate (ls ++ .sign op.sign :: rs) (.compare op left right)
  | isNull {ls : List Token} {left : Expr} (negated : Bool) : Derives .sum ls left →
      Derives .predicate (ls ++ .word .is :: (negation negated ++ [.word .null]))
        (.isNull left negated)
  | oneOf {ls ts : List Token} {left : Expr} {list : List Literal} (negated : Bool) :
      Derives .sum ls left → DerivesLiterals ts list →
      Derives .predicate
        (ls ++ (negation negated ++ .word .oneOf :: .sign .lparen :: (ts ++ [.sign .rparen])))
        (.oneOf left list negated)
  | like {ls : List Token} {left : Expr} (pattern : String) (escape : Option Char)
      (negated : Bool) : Derives .sum ls left →
      Derives .predicate
        (ls ++ (negation negated ++ .word .like :: .string pattern :: escaping escape))
        (.like left pattern escape negated)
  | between {ls ms hs : List Token} {left low high : Expr} (negated : Bool) :
      Derives .sum ls left → Derives .sum ms low → Derives .sum hs high →
      Derives .predicate
        (ls ++ (negation negated ++ .word .between :: (ms ++ .word .and :: hs)))
        (.between left low high negated)
  | minus {ts : List Token} {e : Expr} : Derives .signed ts e →
      Derives .signed (.sign .minus :: ts) (.negate e)
  | plus {ts : List Token} {e : Expr} : Derives .signed ts e →
      Derives .signed (.sign .plus :: ts) e
  | parens {ts : List Token} {e : Expr} : Derives .disjunction ts e →
      Derives .operand (.sign .lparen :: (ts ++ [.sign .rparen])) e
  | name (n : String) : Derives .operand [.name n] (.name n)
  | literal {t : Token} {v : Literal} : t.literal? = some v → Derives .operand [t] (.literal v)
  | null : Derives .operand [.word .null] (.literal .null)

/-- Whether something of a level may start with a token. -/
def Level.startsWith : Level → Token → Bool
  | .disjunction, _ | .conjunction, _ | .negation, _ => true
  | .operand, .sign .plus | .operand, .sign .minus => false
  | _, t => t ≠ .word .not

theorem Level.startsWith_of_next {level next : Level} {t : Token} (h : level.next? = some next)
    (ht : next.startsWith t) : level.startsWith t := by
  cases level <;> cases h
  case signed =>
    unfold startsWith at ht ⊢
    split at ht <;> simp_all
  all_goals first | rfl | exact ht

theorem Token.startsWith_of_literal {t : Token} {v : Literal} (h : t.literal? = some v) :
    Level.operand.startsWith t := by
  cases t with
  | name | sign => cases h
  | string | int | float => rfl
  | word k => cases k <;> first | rfl | cases h

/-- The tokens of an expression start with one that its level may start with. -/
theorem Derives.starts {level : Level} {ts : List Token} {e : Expr} (h : Derives level ts e) :
    ∃ t rest, ts = t :: rest ∧ level.startsWith t := by
  induction h with
  | alone hnext _ ih =>
      obtain ⟨t, rest, rfl, ht⟩ := ih
      exact ⟨t, rest, rfl, Level.startsWith_of_next hnext ht⟩
  | join _ _ _ _ ih =>
      obtain ⟨t, rest, rfl, ht⟩ := ih
      exact ⟨t, _, rfl, ht⟩
  | compare _ _ _ ih | between _ _ _ _ ih =>
      obtain ⟨t, rest, rfl, ht⟩ := ih
      exact ⟨t, _, rfl, ht⟩
  | isNull _ _ ih | oneOf _ _ _ ih | like _ _ _ _ ih =>
      obtain ⟨t, rest, rfl, ht⟩ := ih
      exact ⟨t, _, rfl, ht⟩
  | literal h => exact ⟨_, _, rfl, Token.startsWith_of_literal h⟩
  | not | minus | plus | parens | name | null => exact ⟨_, _, rfl, rfl⟩

end Courier
