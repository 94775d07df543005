import Courier.Proofs.Selector.Information
import Courier.Proofs.Selector.Negation

/-!
# Ranges and Lists, Written Out

A test for a range says in short that a value lies within two bounds, and a test for a list that it
is equal to one of the members. Both can be written out with comparisons and connectives, and as
long as all the comparisons are known the short form has the truth value of the long one. The
connectives, however, come to a result without the comparisons that do not matter to it, and the
short forms do not do that in every case.

A test for a range wants the values of both bounds, and gives up where the comparison with the low
bound is unknown, even if the value is above the high bound in any case. A test for a list takes a
member that does not compare with the value for one that differs from it. The first is unknown too
often, the second not often enough.

## Main definitions

* `Expr.withinBounds`, `Expr.oneByOne`: the two tests, written out.
* `Expr.RuledOutUnseen`: one bound decides, and the test for a range does not see it.
* `Expr.DiffersUnknowingly`: a member is taken to differ, which is not known.

## Main results

* `Expr.truth_between`: the truth value of a test for a range, by the two comparisons.
* `Expr.truth_oneOf_eq_true_iff`, `Expr.truth_oneByOne_eq_true_iff` and those for false: what
  decides a list, in short and written out.
* `Expr.truth_between_eq_iff`: when a test for a range has the truth value of its long form.
* `Expr.truth_oneOf_eq_iff`: when a test for a list has the truth value of its long form.
-/

namespace Courier.Expr

variable (context : Context)

/-! ### Comparisons and flags -/

theorem truth_compare (op : Comparison) (l r : Expr) :
    (compare op l r).truth context =
      (l.eval context).bind fun a => (r.eval context).bind fun b => op.apply a b := by
  rw [truth]
  change ((l.eval context).bind _).bind _ = _
  rcases l.eval context with _ | a
  · rfl
  rcases r.eval context with _ | b
  · rfl
  simp only [Option.bind_eq_bind, Option.bind_some]
  cases op.apply a b <;> rfl

/-- A test that a flag turns round, with its flag and without it. -/
theorem truth_flag (form : Bool → Expr)
    (h : (form true).truth context = ((form false).truth context).map (!·)) (negated : Bool) :
    (form negated).truth context = ((form false).truth context).map (· != negated) := by
  cases negated with
  | false => simp
  | true => simpa using h

/-- Two forms of a test agree with their flags exactly as they do without. -/
theorem flag_eq_iff {short long : Option Bool} {apart : Prop} (hapart : apart → short ≠ long)
    (hsame : ¬apart → short = long) (negated : Bool) :
    short.map (· != negated) = long.map (· != negated) ↔ ¬apart := by
  have hinjective : Function.Injective fun found : Bool => found != negated := by
    intro a b h
    cases negated <;> simpa using h
  rw [(Option.map_injective hinjective).eq_iff]
  exact ⟨fun heq h => hapart h heq, hsame⟩

/-! ### Ranges -/

/-- A test for a range, written out: the value lies within both bounds or, negated, outside one of
them. -/
def withinBounds (e low high : Expr) : Bool → Expr
  | false => and (compare .ge e low) (compare .le e high)
  | true => or (compare .lt e low) (compare .gt e high)

/-- One bound rules the value out, and that is not seen because of the other one: the value is
below the low bound, and the high bound has no value, or the comparison with the low bound is
unknown, and the value is above the high bound. -/
def RuledOutUnseen (e low high : Expr) : Prop :=
  (compare .ge e low).truth context = some false ∧ high.eval context = none ∨
    (compare .ge e low).truth context = none ∧ (compare .le e high).truth context = some false

variable {e low high : Expr}

theorem truth_withinBounds_true :
    (withinBounds e low high true).truth context =
      ((withinBounds e low high false).truth context).map (!·) := by
  rw [withinBounds, withinBounds, truth_or, truth_and, ← kleeneOr_not,
    ← truth_compare_opposite, ← truth_compare_opposite]
  rfl

/-- The truth value of a test for a range. Where the value is below the low bound, the high bound
is not compared, but it has to have a value. -/
theorem truth_between :
    (between e low high false).truth context =
      ((compare .ge e low).truth context).bind fun above => (high.eval context).bind fun _ =>
        if above then (compare .le e high).truth context else some false := by
  rw [truth, eval_between, truth_compare, truth_compare]
  rcases e.eval context with _ | v
  · rfl
  rcases low.eval context with _ | a
  · rfl
  rcases high.eval context with _ | b
  · simp only [Option.bind_eq_bind, Option.bind_some, Option.bind_none, Option.map_none,
      Option.bind_fun_none]
  simp only [Option.bind_eq_bind, Option.bind_some]
  rcases Comparison.ge.apply v a with _ | _ | _
  · rfl
  · rfl
  · simp only [Option.bind_some, if_true]
    rcases Comparison.le.apply v b with _ | _ | _ <;> rfl

theorem truth_between_of_ruledOutUnseen (h : RuledOutUnseen context e low high) :
    (between e low high false).truth context = none ∧
      (withinBounds e low high false).truth context = some false := by
  rw [truth_between, withinBounds, truth_and]
  rcases h with ⟨hlow, hhigh⟩ | ⟨hlow, hhigh⟩
  · rw [hlow, hhigh]
    exact ⟨rfl, rfl⟩
  · rw [hlow, hhigh]
    exact ⟨rfl, rfl⟩

theorem truth_between_of_not_ruledOutUnseen (h : ¬RuledOutUnseen context e low high) :
    (between e low high false).truth context = (withinBounds e low high false).truth context := by
  rw [RuledOutUnseen, not_or, not_and, not_and] at h
  obtain ⟨hbelow, habove⟩ := h
  rw [truth_between, withinBounds, truth_and]
  cases hlow : (compare .ge e low).truth context with
  | none =>
      rcases hhigh : (compare .le e high).truth context with _ | _ | _
      · rfl
      · exact absurd hhigh (habove hlow)
      · rfl
  | some within =>
      cases within with
      | false =>
          obtain ⟨b, hb⟩ := Option.ne_none_iff_exists'.mp (hbelow hlow)
          rw [hb]
          cases (compare .le e high).truth context <;> rfl
      | true =>
          -- without a value for the high bound, the comparison with it is unknown as well
          have hmissing : high.eval context = none →
              (compare .le e high).truth context = none := by
            intro hnone
            rw [truth_compare, hnone]
            exact Option.bind_fun_none _
          cases hb : high.eval context with
          | none =>
              rw [hmissing hb]
              rfl
          | some b => rcases (compare .le e high).truth context with _ | _ | _ <;> rfl

variable (e low high) in
/-- **A test for a range has the truth value of its long form**, negated or not, unless one bound
alone rules the value out and the other one keeps that from being seen. In that case the long form
is decided and the test for a range is unknown. -/
theorem truth_between_eq_iff (negated : Bool) :
    ((between e low high negated).truth context =
        (withinBounds e low high negated).truth context ↔
      ¬RuledOutUnseen context e low high) ∧
    (RuledOutUnseen context e low high →
      (between e low high negated).truth context = none ∧
      (withinBounds e low high negated).truth context = some negated) := by
  rw [truth_flag context (between e low high)
      (truth_flipped context (eval_between context e low high) false),
    truth_flag context (withinBounds e low high) (truth_withinBounds_true context)]
  refine ⟨flag_eq_iff (fun h => ?_) (truth_between_of_not_ruledOutUnseen context) negated,
    fun h => ?_⟩
  · obtain ⟨hshort, hlong⟩ := truth_between_of_ruledOutUnseen context h
    rw [hshort, hlong]
    exact (Option.some_ne_none false).symm
  · obtain ⟨hshort, hlong⟩ := truth_between_of_ruledOutUnseen context h
    rw [hshort, hlong]
    simp

/-- What the names stand for when only a quantity of three is known. -/
def threePieces : Context := fun n =>
  if n = "quantity" then some (.int 3) else none

/-- **A quantity above a range is not seen to be outside of it** where the low bound is missing. -/
theorem truth_between_ne_threePieces :
    ¬∀ (context : Context) (e low high : Expr) (negated : Bool),
      (between e low high negated).truth context =
        (withinBounds e low high negated).truth context := by
  intro hall
  have h := hall threePieces (name "quantity") (name "least") (literal (.int 2)) true
  cases h

/-! ### Lists -/

/-- A test for a list of at least one member, written out: the value is equal to one member after
another or, negated, not so. -/
def oneByOne (e : Expr) (first : Literal) (rest : List Literal) (negated : Bool) : Expr :=
  let found := rest.foldl (fun found l => or found (compare .eq e (literal l)))
    (compare .eq e (literal first))
  if negated then not found else found

/-- A value is equal to no member of a list that it compares with, and there are members that it
does not compare with. -/
def DiffersUnknowingly (e : Expr) (list : List Literal) : Prop :=
  e.eval context ≠ none ∧
    (∀ l ∈ list, (compare .eq e (literal l)).truth context ≠ some true) ∧
    ∃ l ∈ list, (compare .eq e (literal l)).truth context = none

variable {first : Literal} {list rest : List Literal}

theorem truth_oneByOne_true :
    (oneByOne e first rest true).truth context =
      ((oneByOne e first rest false).truth context).map (!·) :=
  truth_not context _

/-- One member that the value is equal to decides a list. -/
theorem truth_oneByOne_eq_true_iff :
    (oneByOne e first rest false).truth context = some true ↔
      ∃ l ∈ first :: rest, (compare .eq e (literal l)).truth context = some true := by
  have hfold : ∀ start : Expr,
      (rest.foldl (fun found l => or found (compare .eq e (literal l))) start).truth context =
          some true ↔
        start.truth context = some true ∨
          ∃ l ∈ rest, (compare .eq e (literal l)).truth context = some true := by
    induction rest with
    | nil => simp
    | cons l rest ih =>
        intro start
        rw [List.foldl_cons, ih, truth_or, kleeneOr_eq_some_iff]
        simp [or_assoc]
  rw [oneByOne, if_neg Bool.false_ne_true, hfold]
  simp

/-- To be outside a list, a value has to differ from every member. -/
theorem truth_oneByOne_eq_false_iff :
    (oneByOne e first rest false).truth context = some false ↔
      ∀ l ∈ first :: rest, (compare .eq e (literal l)).truth context = some false := by
  have hfold : ∀ start : Expr,
      (rest.foldl (fun found l => or found (compare .eq e (literal l))) start).truth context =
          some false ↔
        start.truth context = some false ∧
          ∀ l ∈ rest, (compare .eq e (literal l)).truth context = some false := by
    induction rest with
    | nil => simp
    | cons l rest ih =>
        intro start
        rw [List.foldl_cons, ih, truth_or, kleeneOr_eq_some_iff]
        simp [and_assoc]
  rw [oneByOne, if_neg Bool.false_ne_true, hfold]
  simp

/-- The truth value of a test for a list: without a value there is none, and otherwise the value
is equal to a member or it is not. -/
theorem truth_oneOf :
    (oneOf e list false).truth context =
      (e.eval context).map fun _ =>
        list.any fun l => (compare .eq e (literal l)).truth context = some true := by
  rw [truth, eval_oneOf]
  cases he : e.eval context with
  | none => rfl
  | some v =>
      have hequal : ∀ l : Literal, (compare .eq e (literal l)).truth context =
          l.value?.bind fun w => Comparison.eq.apply v w := fun l => by
        rw [truth_compare, he]
        rfl
      simp only [Option.map_some, Option.bind_some, hequal, List.any_filterMap]
      rw [SelectorValue.truth?, Bool.bne_false]
      congr 2
      funext l
      cases l.value? <;> rfl

theorem truth_oneOf_eq_true_iff :
    (oneOf e list false).truth context = some true ↔
      ∃ l ∈ list, (compare .eq e (literal l)).truth context = some true := by
  rw [truth_oneOf]
  cases he : e.eval context with
  | none => simp [truth_compare, he]
  | some v => simp

theorem truth_oneOf_eq_false_iff :
    (oneOf e list false).truth context = some false ↔
      e.eval context ≠ none ∧
        ∀ l ∈ list, (compare .eq e (literal l)).truth context ≠ some true := by
  rw [truth_oneOf]
  cases e.eval context with
  | none => simp
  | some v => simp

theorem truth_oneOf_of_differsUnknowingly (h : DiffersUnknowingly context e (first :: rest)) :
    (oneOf e (first :: rest) false).truth context = some false ∧
      (oneByOne e first rest false).truth context = none := by
  obtain ⟨hvalue, hdiffers, l, hl, hunknown⟩ := h
  refine ⟨(truth_oneOf_eq_false_iff context).mpr ⟨hvalue, hdiffers⟩, ?_⟩
  refine Option.eq_none_iff_forall_ne_some.mpr fun found hfound => ?_
  cases found with
  | true =>
      obtain ⟨l, hl, hequal⟩ := (truth_oneByOne_eq_true_iff context).mp hfound
      exact hdiffers l hl hequal
  | false =>
      have hknown := (truth_oneByOne_eq_false_iff context).mp hfound l hl
      rw [hunknown] at hknown
      cases hknown

theorem truth_oneOf_of_not_differsUnknowingly
    (h : ¬DiffersUnknowingly context e (first :: rest)) :
    (oneOf e (first :: rest) false).truth context =
      (oneByOne e first rest false).truth context := by
  refine Option.ext fun found => ?_
  cases found with
  | true => rw [truth_oneOf_eq_true_iff, truth_oneByOne_eq_true_iff]
  | false =>
      rw [truth_oneOf_eq_false_iff, truth_oneByOne_eq_false_iff]
      constructor
      · rintro ⟨hvalue, hdiffers⟩ l hl
        rcases hknown : (compare .eq e (literal l)).truth context with _ | _ | _
        · exact absurd ⟨hvalue, hdiffers, l, hl, hknown⟩ h
        · rfl
        · exact absurd hknown (hdiffers l hl)
      · intro hall
        refine ⟨fun hnone => ?_, fun l hl => by simp [hall l hl]⟩
        have hfirst := hall first (.head _)
        rw [truth_compare, hnone] at hfirst
        cases hfirst

variable (e first rest) in
/-- **A test for a list has the truth value of its long form**, negated or not, unless the value is
equal to no member and there are members that it does not compare with. In that case the long form
is unknown, and the test for a list takes the value for one that is not in it. -/
theorem truth_oneOf_eq_iff (negated : Bool) :
    ((oneOf e (first :: rest) negated).truth context =
        (oneByOne e first rest negated).truth context ↔
      ¬DiffersUnknowingly context e (first :: rest)) ∧
    (DiffersUnknowingly context e (first :: rest) →
      (oneOf e (first :: rest) negated).truth context = some negated ∧
      (oneByOne e first rest negated).truth context = none) := by
  rw [truth_flag context (oneOf e (first :: rest))
      (truth_flipped context (eval_oneOf context e (first :: rest)) false),
    truth_flag context (oneByOne e first rest) (truth_oneByOne_true context)]
  refine ⟨flag_eq_iff (fun h => ?_) (truth_oneOf_of_not_differsUnknowingly context) negated,
    fun h => ?_⟩
  · obtain ⟨hshort, hlong⟩ := truth_oneOf_of_differsUnknowingly context h
    rw [hshort, hlong]
    exact Option.some_ne_none false
  · obtain ⟨hshort, hlong⟩ := truth_oneOf_of_differsUnknowingly context h
    rw [hshort, hlong]
    simp

/-- What the names stand for when only a colour is known. -/
def redPaint : Context := fun n =>
  if n = "colour" then some (.string "red") else none

/-- **A text is taken to differ from a number**, with which it does not compare. -/
theorem truth_oneOf_ne_redPaint :
    ¬∀ (context : Context) (e : Expr) (first : Literal) (rest : List Literal) (negated : Bool),
      (oneOf e (first :: rest) negated).truth context =
        (oneByOne e first rest negated).truth context := by
  intro hall
  have h := hall redPaint (name "colour") (.int 1) [] true
  cases h

end Courier.Expr
