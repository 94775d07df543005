import Mathlib.Data.Option.Basic
import Courier.Selector.Truth

/-!
# Negations Pushed Inward

A negation can be pushed through the connectives of an expression down to its predicates, and
these have an opposite each: a comparison the opposite operator, the others their negated form.
Only expressions that are no predicates keep a negation in front of them. Nothing of this changes
the truth value of an expression, whatever the names in it stand for, since each operator is
unknown in the same cases as its opposite.

## Conventions

Truth values lie on a line: false is `-1`, unknown is `0` and true is `1`. Conjunction is the least
of two of them, disjunction the greatest, and negation turns the line round.

## Main definitions

* `truthLevel`: the place of a truth value.
* `Comparison.opposite`, `Expr.opposite?`: the opposites of operators and of predicates.
* `Expr.pushed`, `Expr.negationNormal`: an expression with its negations pushed inward.
* `Expr.IsNegationNormal`: negations stand in front of atoms only.
* `KleeneTruth`: the laws of the connectives and of the negated predicates.

## Main results

* `Comparison.apply_opposite`, `Expr.truth_of_opposite?`: opposites have opposite truth values.
* `Expr.truth_pushed`: pushing a negation inward keeps the truth value.
* `Expr.truth_negationNormal`: the laws of the connectives, and the negation normal form of an
  expression has its truth value.
-/

namespace Courier

/-! ### Truth values on a line -/

/-- The place of a truth value on the line from false to true, with the unknown one between
them. -/
def truthLevel : Option Bool → Int
  | some false => -1
  | none => 0
  | some true => 1

theorem truthLevel_injective : Function.Injective truthLevel := by
  rintro (_ | _ | _) (_ | _ | _) h <;> first | rfl | cases h

theorem truthLevel_not (a : Option Bool) : truthLevel (a.map (!·)) = -truthLevel a := by
  rcases a with _ | _ | _ <;> rfl

theorem truthLevel_kleeneAnd (a b : Option Bool) :
    truthLevel (kleeneAnd a b) = min (truthLevel a) (truthLevel b) := by
  rcases a with _ | _ | _ <;> rcases b with _ | _ | _ <;> rfl

theorem truthLevel_kleeneOr (a b : Option Bool) :
    truthLevel (kleeneOr a b) = max (truthLevel a) (truthLevel b) := by
  rcases a with _ | _ | _ <;> rcases b with _ | _ | _ <;> rfl

theorem kleeneAnd_not (a b : Option Bool) :
    kleeneAnd (a.map (!·)) (b.map (!·)) = (kleeneOr a b).map (!·) := by
  rcases a with _ | _ | _ <;> rcases b with _ | _ | _ <;> rfl

theorem kleeneOr_not (a b : Option Bool) :
    kleeneOr (a.map (!·)) (b.map (!·)) = (kleeneAnd a b).map (!·) := by
  rcases a with _ | _ | _ <;> rcases b with _ | _ | _ <;> rfl

theorem map_not_not (a : Option Bool) : (a.map (!·)).map (!·) = a := by
  rcases a with _ | _ | _ <;> rfl

/-! ### Opposite comparisons -/

namespace Comparison

/-- The comparison that holds where another one does not. -/
def opposite : Comparison → Comparison
  | eq => ne
  | ne => eq
  | lt => ge
  | le => gt
  | gt => le
  | ge => lt

theorem holds_opposite (op : Comparison) (o : Ordering) : op.opposite.holds o = !op.holds o := by
  cases op <;> cases o <;> rfl

theorem holdsFor_opposite (op : Comparison) (same : Bool) :
    op.opposite.holdsFor same = (op.holdsFor same).map (!·) := by
  cases op <;> cases same <;> rfl

/-- The opposite of a comparison is unknown where the comparison is: between values of different
kinds, in the order of texts and truth values, and next to what is no number. -/
theorem apply_opposite (op : Comparison) (a b : SelectorValue) :
    op.opposite.apply a b = (op.apply a b).map (!·) := by
  cases a <;> cases b <;>
    simp only [apply, holds_opposite, holdsFor_opposite, Option.bind_eq_bind, Option.map_bind,
      Option.map_some, Function.comp_def, Option.pure_def]

end Comparison

namespace Expr

/-! ### The truth of an expression -/

variable (context : Context)

theorem eval_not (e : Expr) :
    (not e).eval context = (e.truth context).map fun b => .bool !b := rfl

/-- A connective has no other value than its truth value. -/
theorem eval_and (l r : Expr) :
    (and l r).eval context = (kleeneAnd (l.truth context) (r.truth context)).map .bool := rfl

theorem eval_or (l r : Expr) :
    (or l r).eval context = (kleeneOr (l.truth context) (r.truth context)).map .bool := rfl

theorem truth_not (e : Expr) : (not e).truth context = (e.truth context).map (!·) := by
  rw [truth, eval_not]
  cases e.truth context <;> rfl

theorem truth_and (l r : Expr) :
    (and l r).truth context = kleeneAnd (l.truth context) (r.truth context) := by
  rw [truth, eval_and]
  cases kleeneAnd (l.truth context) (r.truth context) <;> rfl

theorem truth_or (l r : Expr) :
    (or l r).truth context = kleeneOr (l.truth context) (r.truth context) := by
  rw [truth, eval_or]
  cases kleeneOr (l.truth context) (r.truth context) <;> rfl

/-! ### Opposite predicates -/

/-- The opposite of a predicate, over the same operands. -/
def opposite? : Expr → Option Expr
  | compare op l r => some (compare op.opposite l r)
  | isNull e negated => some (isNull e !negated)
  | oneOf e list negated => some (oneOf e list !negated)
  | like e pattern escape negated => some (like e pattern escape !negated)
  | between e low high negated => some (between e low high !negated)
  | _ => none

/-- A predicate that is negated by a flag, which only turns round what it finds. -/
theorem truth_flipped {form : Bool → Expr} {found? : Option Bool}
    (h : ∀ negated, (form negated).eval context =
      found?.map fun found => .bool (found != negated)) (negated : Bool) :
    (form !negated).truth context = ((form negated).truth context).map (!·) := by
  rw [truth, truth, h, h]
  cases found? with
  | none => rfl
  | some found => cases found <;> cases negated <;> rfl

theorem eval_isNull (e : Expr) (negated : Bool) :
    (isNull e negated).eval context =
      (some (e.eval context).isNone).map fun found => .bool (found != negated) :=
  rfl

theorem eval_oneOf (e : Expr) (list : List Literal) (negated : Bool) :
    (oneOf e list negated).eval context =
      ((e.eval context).map fun v => (list.filterMap Literal.value?).any fun w =>
        Comparison.eq.apply v w = some true).map fun found => .bool (found != negated) := by
  change (e.eval context).bind _ = _
  cases e.eval context <;> rfl

theorem eval_like (e : Expr) (pattern : String) (escape : Option Char) (negated : Bool) :
    (like e pattern escape negated).eval context =
      ((e.eval context).bind fun
        | .string s => some (Like.matches escape pattern s)
        | _ => none).map fun found => .bool (found != negated) := by
  change (e.eval context).bind _ = _
  rcases e.eval context with _ | (_ | _ | _ | _) <;> rfl

theorem eval_between (e low high : Expr) (negated : Bool) :
    (between e low high negated).eval context =
      (do
        let v ← e.eval context
        let a ← low.eval context
        let b ← high.eval context
        if ← Comparison.ge.apply v a then Comparison.le.apply v b else some false).map
          fun inside => .bool (inside != negated) := by
  change (e.eval context).bind _ = _
  rcases e.eval context with _ | v
  · rfl
  rcases low.eval context with _ | a
  · rfl
  rcases high.eval context with _ | b
  · rfl
  simp only [Option.bind_eq_bind, Option.bind_some]
  rcases Comparison.ge.apply v a with _ | _ | _
  · rfl
  · rfl
  · simp only [Option.bind_some, if_true]
    cases Comparison.le.apply v b <;> rfl

theorem truth_compare_opposite (op : Comparison) (l r : Expr) :
    (compare op.opposite l r).truth context = ((compare op l r).truth context).map (!·) := by
  rw [truth, truth]
  change ((l.eval context).bind _).bind _ = (((l.eval context).bind _).bind _).map _
  rcases l.eval context with _ | a
  · rfl
  rcases r.eval context with _ | b
  · rfl
  simp only [Option.bind_eq_bind, Option.bind_some, Comparison.apply_opposite]
  cases op.apply a b <;> rfl

/-- **A predicate and its opposite** have opposite truth values, and are unknown together. -/
theorem truth_of_opposite? {e opposite : Expr} (h : e.opposite? = some opposite) :
    opposite.truth context = (e.truth context).map (!·) := by
  cases e with
  | compare op l r =>
      cases h
      exact truth_compare_opposite context op l r
  | isNull e negated =>
      cases h
      exact truth_flipped context (eval_isNull context e) negated
  | oneOf e list negated =>
      cases h
      exact truth_flipped context (eval_oneOf context e list) negated
  | like e pattern escape negated =>
      cases h
      exact truth_flipped context (eval_like context e pattern escape) negated
  | between e low high negated =>
      cases h
      exact truth_flipped context (eval_between context e low high) negated
  | _ => cases h

theorem truth_opposite?_getD (e : Expr) :
    (e.opposite?.getD (not e)).truth context = (e.truth context).map (!·) := by
  cases h : e.opposite? with
  | none => exact truth_not context e
  | some opposite => exact truth_of_opposite? context h

/-! ### Negation normal forms -/

/-- An expression, or its negation, with the negations pushed inward. -/
def pushed (negated : Bool) : Expr → Expr
  | not e => e.pushed (!negated)
  | and l r =>
    if negated then or (l.pushed true) (r.pushed true) else and (l.pushed false) (r.pushed false)
  | or l r =>
    if negated then and (l.pushed true) (r.pushed true) else or (l.pushed false) (r.pushed false)
  | e => if negated then e.opposite?.getD (not e) else e

/-- An expression with the negations pushed inward. The operands of predicates stay as they
are. -/
def negationNormal (e : Expr) : Expr :=
  e.pushed false

/-- Whether an expression is neither made by a connective nor a predicate with an opposite. -/
def isAtom : Expr → Bool
  | literal _ | name _ | arith _ _ _ | negate _ => true
  | _ => false

/-- Negations stand in front of atoms only. -/
def IsNegationNormal : Expr → Prop
  | not e => e.isAtom
  | and l r | or l r => l.IsNegationNormal ∧ r.IsNegationNormal
  | _ => True

theorem isNegationNormal_pushed (negated : Bool) (e : Expr) :
    (e.pushed negated).IsNegationNormal := by
  induction e generalizing negated with
  | not e ih => exact ih _
  | and l r ihl ihr =>
      rw [pushed]
      split
      · exact ⟨ihl true, ihr true⟩
      · exact ⟨ihl false, ihr false⟩
  | or l r ihl ihr =>
      rw [pushed]
      split
      · exact ⟨ihl true, ihr true⟩
      · exact ⟨ihl false, ihr false⟩
  | _ => cases negated <;> trivial

/-- **Pushing a negation inward** keeps the truth value. -/
theorem truth_pushed (negated : Bool) (e : Expr) :
    (e.pushed negated).truth context =
      if negated then (e.truth context).map (!·) else e.truth context := by
  induction e generalizing negated with
  | not e ih =>
      rw [pushed, ih, truth_not]
      cases negated with
      | false => rfl
      | true => exact (map_not_not _).symm
  | and l r ihl ihr =>
      cases negated with
      | false =>
          change (and (l.pushed false) (r.pushed false)).truth context = _
          rw [truth_and, ihl, ihr, truth_and]
          rfl
      | true =>
          change (or (l.pushed true) (r.pushed true)).truth context = _
          rw [truth_or, ihl, ihr, truth_and]
          exact kleeneOr_not _ _
  | or l r ihl ihr =>
      cases negated with
      | false =>
          change (or (l.pushed false) (r.pushed false)).truth context = _
          rw [truth_or, ihl, ihr, truth_or]
          rfl
      | true =>
          change (and (l.pushed true) (r.pushed true)).truth context = _
          rw [truth_and, ihl, ihr, truth_or]
          exact kleeneAnd_not _ _
  | _ =>
      cases negated with
      | false => rfl
      | true =>
          rw [if_pos rfl, ← truth_opposite?_getD]
          rfl

/-! ### The laws of the connectives -/

end Expr

/-- The laws of three-valued logic, for the expressions over a context. -/
structure KleeneTruth (context : Context) : Prop where
  /-- No two truth values share a place. -/
  level_injective : Function.Injective truthLevel
  /-- Negation turns the line round. -/
  level_not : ∀ e : Expr, truthLevel (e.not.truth context) = -truthLevel (e.truth context)
  /-- Conjunction is the least of the two. -/
  level_and : ∀ l r : Expr, truthLevel ((l.and r).truth context) =
    min (truthLevel (l.truth context)) (truthLevel (r.truth context))
  /-- Disjunction is the greatest of the two. -/
  level_or : ∀ l r : Expr, truthLevel ((l.or r).truth context) =
    max (truthLevel (l.truth context)) (truthLevel (r.truth context))
  /-- The order of two operands makes no difference. -/
  and_comm : ∀ l r : Expr, (l.and r).eval context = (r.and l).eval context
  or_comm : ∀ l r : Expr, (l.or r).eval context = (r.or l).eval context
  /-- One operand that is false decides a conjunction, whatever the other one is. -/
  and_of_false : ∀ l r : Expr, l.truth context = some false →
    (l.and r).eval context = some (.bool false) ∧ (r.and l).eval context = some (.bool false)
  /-- One operand that is true decides a disjunction, whatever the other one is. -/
  or_of_true : ∀ l r : Expr, l.truth context = some true →
    (l.or r).eval context = some (.bool true) ∧ (r.or l).eval context = some (.bool true)
  /-- The opposite of a predicate is its negation. -/
  level_opposite : ∀ e opposite : Expr, e.opposite? = some opposite →
    truthLevel (opposite.truth context) = -truthLevel (e.truth context)

namespace Expr

variable (context : Context)

theorem kleeneTruth : KleeneTruth context := by
  have level_and : ∀ l r : Expr, truthLevel ((l.and r).truth context) =
      min (truthLevel (l.truth context)) (truthLevel (r.truth context)) := fun l r => by
    rw [truth_and, truthLevel_kleeneAnd]
  have level_or : ∀ l r : Expr, truthLevel ((l.or r).truth context) =
      max (truthLevel (l.truth context)) (truthLevel (r.truth context)) := fun l r => by
    rw [truth_or, truthLevel_kleeneOr]
  have and_comm : ∀ l r : Expr, (l.and r).eval context = (r.and l).eval context := fun l r => by
    have hcomm : kleeneAnd (l.truth context) (r.truth context) =
        kleeneAnd (r.truth context) (l.truth context) :=
      truthLevel_injective (by rw [truthLevel_kleeneAnd, truthLevel_kleeneAnd, Int.min_comm])
    rw [eval_and, eval_and, hcomm]
  have or_comm : ∀ l r : Expr, (l.or r).eval context = (r.or l).eval context := fun l r => by
    have hcomm : kleeneOr (l.truth context) (r.truth context) =
        kleeneOr (r.truth context) (l.truth context) :=
      truthLevel_injective (by rw [truthLevel_kleeneOr, truthLevel_kleeneOr, Int.max_comm])
    rw [eval_or, eval_or, hcomm]
  refine ⟨truthLevel_injective, fun e => ?_, level_and, level_or, and_comm, or_comm,
    fun l r h => ?_, fun l r h => ?_, fun e opposite h => ?_⟩
  · rw [truth_not, truthLevel_not]
  · have hand : (l.and r).eval context = some (.bool false) := by
      rw [eval_and, h]
      rfl
    exact ⟨hand, and_comm l r ▸ hand⟩
  · have hor : (l.or r).eval context = some (.bool true) := by
      rw [eval_or, h]
      rfl
    exact ⟨hor, or_comm l r ▸ hor⟩
  · rw [truth_of_opposite? context h, truthLevel_not]

/-- **Negations can be pushed inward.** The connectives follow three-valued logic and every
predicate is the negation of its opposite, so that an expression has the truth value of its
negation normal form, whatever the names in it stand for. -/
theorem truth_negationNormal :
    KleeneTruth context ∧ ∀ e : Expr,
      e.negationNormal.IsNegationNormal ∧ e.negationNormal.truth context = e.truth context :=
  ⟨kleeneTruth context, fun e => ⟨isNegationNormal_pushed false e, truth_pushed context false e⟩⟩

/-- De Morgan, a double negation, and a negated predicate. -/
example (a b c : Expr) :
    (not (and (not (name "flag")) (or (compare .lt a b) (between a b c true)))).negationNormal =
      or (name "flag") (and (compare .ge a b) (between a b c false)) :=
  rfl

end Expr

end Courier
