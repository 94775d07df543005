import Mathlib.Data.Option.Basic
import Courier.Selector.Truth

/-!
# Arithmetic on Integers

An expression over integers has an exact value, the one that it has in unbounded arithmetic with
quotients cut toward zero, unless there is a division by zero in it. The evaluator computes with 64
bits. It comes to an integer only if everything on the way to it does, and then that integer is the
exact value. A result that does not fit is never cut to 64 bits: a sum, a difference or a product is
computed in floating point instead, and a quotient or a negative has no value at all. What has left
the integers does not come back to them, even where the exact value of the whole expression would
fit again.

## Main definitions

* `FitsInt64`: an integer has 64 bits.
* `Arithmetic.Gives`: the exact result of an operation.
* `Expr.IsArithmetic`: an expression over integers.
* `Expr.Amounts`: the exact value of an expression.
* `Expr.subterms`, `Expr.StaysInt64`: the exact values on the way fit.

## Main results

* `int64?_eq_some_iff`: an integer of 64 bits with an exact value has that value.
* `Arithmetic.apply_eq_int_iff`: an operation that gives an integer gives the exact one.
* `Expr.eval_eq_int_iff`: which expressions come to an integer, and to which one.
* `Expr.exists_int_of_mem_subterms`: what has left the integers does not come back.
* `Expr.eval_of_isArithmetic`: the value of an expression over integers.
-/

namespace Courier

/-! ### Integers of 64 bits -/

/-- An integer is one of 64 bits. -/
def FitsInt64 (n : Int) : Prop :=
  Int64.minValue.toInt ≤ n ∧ n ≤ Int64.maxValue.toInt

theorem fitsInt64_toInt (v : Int64) : FitsInt64 v.toInt :=
  ⟨v.minValue_le_toInt, v.toInt_le⟩

theorem FitsInt64.exists_toInt_eq {n : Int} (h : FitsInt64 n) : ∃ v : Int64, v.toInt = n := by
  obtain ⟨hlow, hhigh⟩ := h
  rw [Int64.toInt_minValue] at hlow
  rw [Int64.toInt_maxValue] at hhigh
  exact ⟨Int64.ofInt n, Int64.toInt_ofInt_of_le hlow (by omega)⟩

/-- **No integer is cut to 64 bits**: the one with an exact value has that value. -/
theorem int64?_eq_some_iff {n : Int} {v : Int64} : int64? n = some v ↔ v.toInt = n := by
  rw [int64?]
  split
  · next hfits =>
      obtain ⟨w, rfl⟩ := FitsInt64.exists_toInt_eq hfits
      rw [Int64.ofInt_toInt, Option.some.injEq, Int64.toInt_inj]
      exact eq_comm
  · next hfits =>
      constructor
      · intro h
        cases h
      · rintro rfl
        exact absurd (fitsInt64_toInt v) hfits

/-! ### Operations -/

namespace Arithmetic

/-- The exact result of an operation on integers. There is no quotient by zero, and other quotients
are cut toward zero. -/
inductive Gives : Arithmetic → Int → Int → Int → Prop where
  /-- A sum. -/
  | add (a b : Int) : Gives .add a b (a + b)
  /-- A difference. -/
  | sub (a b : Int) : Gives .sub a b (a - b)
  /-- A product. -/
  | mul (a b : Int) : Gives .mul a b (a * b)
  /-- A quotient. -/
  | div {a b : Int} : b ≠ 0 → Gives .div a b (a.tdiv b)

variable {op : Arithmetic}

theorem Gives.unique {a b m n : Int} (hm : op.Gives a b m) (hn : op.Gives a b n) : m = n := by
  cases hm <;> cases hn <;> rfl

theorem ofInts?_eq_some_iff {a b : Int} {v : Int64} :
    op.ofInts? a b = some v ↔ op.Gives a b v.toInt := by
  constructor
  · intro h
    cases op with
    | add => exact int64?_eq_some_iff.mp h ▸ .add a b
    | sub => exact int64?_eq_some_iff.mp h ▸ .sub a b
    | mul => exact int64?_eq_some_iff.mp h ▸ .mul a b
    | div =>
        rw [ofInts?] at h
        split at h
        · cases h
        · next hb => exact int64?_eq_some_iff.mp h ▸ .div hb
  · intro h
    generalize hn : v.toInt = n at h
    cases h with
    | add | sub | mul => exact int64?_eq_some_iff.mpr hn
    | div hb =>
        rw [ofInts?, if_neg hb]
        exact int64?_eq_some_iff.mpr hn

theorem exists_float_of_inexact {a b w : SelectorValue} (h : op.inexact a b = some w) :
    ∃ x, w = .float x := by
  simp only [inexact, Option.bind_eq_bind, Option.pure_def, Option.bind_eq_some_iff,
    Option.some.injEq] at h
  obtain ⟨x, -, y, -, rfl⟩ := h
  exact ⟨_, rfl⟩

/-- An operation gives the exact integer, or it gives a number in floating point. -/
theorem apply_eq_some {a b w : SelectorValue} (h : op.apply a b = some w) :
    (∃ m n v : Int64, a = .int m ∧ b = .int n ∧ w = .int v ∧
        op.Gives m.toInt n.toInt v.toInt) ∨
      ∃ x, w = .float x := by
  rw [apply.eq_def] at h
  split at h
  · next m n =>
      split at h
      · next v hv =>
          cases h
          exact .inl ⟨m, n, v, rfl, rfl, rfl, ofInts?_eq_some_iff.mp hv⟩
      · split at h
        · cases h
        · exact .inr (exists_float_of_inexact h)
  · exact .inr (exists_float_of_inexact h)

/-- **An operation that gives an integer gives the exact one**, from integers. -/
theorem apply_eq_int_iff {a b : SelectorValue} {v : Int64} :
    op.apply a b = some (.int v) ↔
      ∃ m n : Int64, a = .int m ∧ b = .int n ∧ op.Gives m.toInt n.toInt v.toInt := by
  constructor
  · intro h
    rcases apply_eq_some h with ⟨m, n, w, rfl, rfl, hw, hgives⟩ | ⟨x, hx⟩
    · cases hw
      exact ⟨m, n, rfl, rfl, hgives⟩
    · cases hx
  · rintro ⟨m, n, rfl, rfl, hgives⟩
    rw [apply, ofInts?_eq_some_iff.mpr hgives]

end Arithmetic

/-- The negative of an integer is the exact one, and that of another number is no integer. -/
theorem SelectorValue.negate?_eq_some {a w : SelectorValue} (h : a.negate? = some w) :
    (∃ m v : Int64, a = .int m ∧ w = .int v ∧ v.toInt = -m.toInt) ∨ ∃ x, w = .float x := by
  cases a with
  | int m =>
      obtain ⟨v, hv, rfl⟩ := Option.map_eq_some_iff.mp h
      exact .inl ⟨m, v, rfl, rfl, int64?_eq_some_iff.mp hv⟩
  | float x =>
      cases h
      exact .inr ⟨_, rfl⟩
  | _ => cases h

theorem SelectorValue.negate?_eq_int_iff {a : SelectorValue} {v : Int64} :
    a.negate? = some (.int v) ↔ ∃ m : Int64, a = .int m ∧ v.toInt = -m.toInt := by
  constructor
  · intro h
    rcases negate?_eq_some h with ⟨m, w, rfl, hw, hneg⟩ | ⟨x, hx⟩
    · cases hw
      exact ⟨m, rfl, hneg⟩
    · cases hx
  · rintro ⟨m, rfl, hneg⟩
    rw [negate?, int64?_eq_some_iff.mpr hneg]
    rfl

namespace Expr

/-! ### Exact values -/

/-- An expression over the four operations and the sign whose leaves are integers, written out or
named. -/
inductive IsArithmetic (context : Context) : Expr → Prop where
  /-- An integer that is written out. -/
  | literal (n : Int64) : IsArithmetic context (.literal (.int n))
  /-- A name that stands for an integer. -/
  | name {name : String} {n : Int64} :
      context name = some (.int n) → IsArithmetic context (.name name)
  /-- A sign before an expression over integers. -/
  | negate {e : Expr} : IsArithmetic context e → IsArithmetic context (.negate e)
  /-- An operation on two of them. -/
  | arith {l r : Expr} (op : Arithmetic) :
      IsArithmetic context l → IsArithmetic context r → IsArithmetic context (.arith op l r)

/-- The exact value of an expression, without bounds on its size. -/
inductive Amounts (context : Context) : Expr → Int → Prop where
  /-- An integer that is written out. -/
  | literal (n : Int64) : Amounts context (.literal (.int n)) n.toInt
  /-- The integer that a name stands for. -/
  | name {name : String} {n : Int64} :
      context name = some (.int n) → Amounts context (.name name) n.toInt
  /-- The negative of an exact value. -/
  | negate {e : Expr} {n : Int} : Amounts context e n → Amounts context (.negate e) (-n)
  /-- The exact result of an operation on exact values. -/
  | arith {op : Arithmetic} {l r : Expr} {a b n : Int} :
      Amounts context l a → Amounts context r b → op.Gives a b n →
      Amounts context (.arith op l r) n

/-- An expression over integers and everything in it that is computed on the way. -/
def subterms : Expr → List Expr
  | negate e => negate e :: e.subterms
  | arith op l r => arith op l r :: (l.subterms ++ r.subterms)
  | e => [e]

/-- The exact value of an expression and those on the way to it have 64 bits. -/
def StaysInt64 (context : Context) (e : Expr) : Prop :=
  ∀ s ∈ e.subterms, ∃ n, s.Amounts context n ∧ FitsInt64 n

variable {context : Context} {e l r : Expr}

theorem Amounts.unique {m n : Int} (hm : e.Amounts context m) (hn : e.Amounts context n) :
    m = n := by
  induction hm generalizing n with
  | literal =>
      cases hn
      rfl
  | name h =>
      cases hn with
      | name h' =>
          rw [h] at h'
          cases h'
          rfl
  | negate _ ih =>
      cases hn with
      | negate hn => rw [ih hn]
  | arith _ _ hgives ihl ihr =>
      cases hn with
      | arith hl hr hgives' =>
          obtain rfl := ihl hl
          obtain rfl := ihr hr
          exact hgives.unique hgives'

theorem self_mem_subterms (e : Expr) : e ∈ e.subterms := by
  cases e <;> exact .head _

theorem staysInt64_negate_iff :
    (negate e).StaysInt64 context ↔
      (∃ n, (negate e).Amounts context n ∧ FitsInt64 n) ∧ e.StaysInt64 context := by
  simp only [StaysInt64, subterms, List.forall_mem_cons]

theorem staysInt64_arith_iff {op : Arithmetic} :
    (arith op l r).StaysInt64 context ↔
      (∃ n, (arith op l r).Amounts context n ∧ FitsInt64 n) ∧
        l.StaysInt64 context ∧ r.StaysInt64 context := by
  simp only [StaysInt64, subterms, List.forall_mem_cons, List.forall_mem_append]

/-- The exact value of what stays in 64 bits is an integer of 64 bits. -/
theorem StaysInt64.exists_amounts (h : e.StaysInt64 context) :
    ∃ v : Int64, e.Amounts context v.toInt := by
  obtain ⟨n, hn, hfits⟩ := h e (self_mem_subterms e)
  obtain ⟨v, rfl⟩ := hfits.exists_toInt_eq
  exact ⟨v, hn⟩

/-- No division by zero is on the way. -/
theorem StaysInt64.divisor_ne_zero (h : e.StaysInt64 context) (hdiv : arith .div l r ∈ e.subterms) :
    ∃ n, r.Amounts context n ∧ n ≠ 0 := by
  obtain ⟨n, hn, -⟩ := h _ hdiv
  cases hn with
  | arith _ hr hgives =>
      cases hgives with
      | div hb => exact ⟨_, hr, hb⟩

/-! ### The evaluator -/

theorem eval_negate_eq_int_iff {v : Int64} :
    (negate e).eval context = some (.int v) ↔
      ∃ m : Int64, e.eval context = some (.int m) ∧ v.toInt = -m.toInt := by
  rw [eval, Option.bind_eq_some_iff]
  simp only [SelectorValue.negate?_eq_int_iff]
  constructor
  · rintro ⟨_, he, m, rfl, hneg⟩
    exact ⟨m, he, hneg⟩
  · rintro ⟨m, he, hneg⟩
    exact ⟨_, he, m, rfl, hneg⟩

theorem eval_arith_eq_int_iff {op : Arithmetic} {v : Int64} :
    (arith op l r).eval context = some (.int v) ↔
      ∃ m n : Int64, l.eval context = some (.int m) ∧ r.eval context = some (.int n) ∧
        op.Gives m.toInt n.toInt v.toInt := by
  simp only [eval, Option.bind_eq_bind, Option.bind_eq_some_iff, Arithmetic.apply_eq_int_iff]
  constructor
  · rintro ⟨_, hl, _, hr, m, n, rfl, rfl, hgives⟩
    exact ⟨m, n, hl, hr, hgives⟩
  · rintro ⟨m, n, hl, hr, hgives⟩
    exact ⟨_, hl, _, hr, m, n, rfl, rfl, hgives⟩

theorem eval_leaf_eq_int_iff {n v : Int64} (hleaf : e.subterms = [e])
    (hn : e.Amounts context n.toInt) (heval : e.eval context = some (.int n)) :
    e.eval context = some (.int v) ↔ e.Amounts context v.toInt ∧ e.StaysInt64 context := by
  constructor
  · intro h
    rw [heval] at h
    cases h
    refine ⟨hn, ?_⟩
    rw [StaysInt64, hleaf, List.forall_mem_singleton]
    exact ⟨_, hn, fitsInt64_toInt n⟩
  · rintro ⟨hv, -⟩
    obtain rfl := Int64.toInt_inj.mp (hn.unique hv)
    exact heval

/-- **An expression over integers comes to an integer** if and only if that is its exact value and
all exact values on the way have 64 bits. -/
theorem eval_eq_int_iff (h : e.IsArithmetic context) {v : Int64} :
    e.eval context = some (.int v) ↔ e.Amounts context v.toInt ∧ e.StaysInt64 context := by
  induction h generalizing v with
  | literal n => exact eval_leaf_eq_int_iff rfl (.literal n) rfl
  | name hname => exact eval_leaf_eq_int_iff rfl (.name hname) hname
  | negate _ ih =>
      rw [eval_negate_eq_int_iff, staysInt64_negate_iff]
      constructor
      · rintro ⟨m, he, hneg⟩
        obtain ⟨hamounts, hstays⟩ := ih.mp he
        have hvalue := hneg ▸ hamounts.negate
        exact ⟨hvalue, ⟨_, hvalue, fitsInt64_toInt v⟩, hstays⟩
      · rintro ⟨hvalue, -, hstays⟩
        obtain ⟨m, hm⟩ := hstays.exists_amounts
        exact ⟨m, ih.mpr ⟨hm, hstays⟩, hvalue.unique hm.negate⟩
  | arith op _ _ ihl ihr =>
      rw [eval_arith_eq_int_iff, staysInt64_arith_iff]
      constructor
      · rintro ⟨m, n, hl, hr, hgives⟩
        obtain ⟨hlamounts, hlstays⟩ := ihl.mp hl
        obtain ⟨hramounts, hrstays⟩ := ihr.mp hr
        have hvalue := Amounts.arith hlamounts hramounts hgives
        exact ⟨hvalue, ⟨_, hvalue, fitsInt64_toInt v⟩, hlstays, hrstays⟩
      · rintro ⟨hvalue, -, hlstays, hrstays⟩
        -- the operands come to integers of 64 bits, which are the exact values they amount to
        obtain ⟨m, hm⟩ := hlstays.exists_amounts
        obtain ⟨n, hn⟩ := hrstays.exists_amounts
        cases hvalue with
        | arith hl hr hgives =>
            obtain rfl := hl.unique hm
            obtain rfl := hr.unique hn
            exact ⟨m, n, ihl.mpr ⟨hm, hlstays⟩, ihr.mpr ⟨hn, hrstays⟩, hgives⟩

/-- **What has left the integers does not come back**: an expression comes to an integer only if
everything in it does. -/
theorem exists_int_of_mem_subterms (h : e.IsArithmetic context) {s : Expr} (hs : s ∈ e.subterms)
    {v : Int64} (heval : e.eval context = some (.int v)) :
    ∃ n, s.eval context = some (.int n) := by
  induction h generalizing v with
  | literal n =>
      obtain rfl := List.mem_singleton.mp hs
      exact ⟨v, heval⟩
  | name hname =>
      obtain rfl := List.mem_singleton.mp hs
      exact ⟨v, heval⟩
  | negate _ ih =>
      rcases List.mem_cons.mp hs with rfl | hs
      · exact ⟨v, heval⟩
      · obtain ⟨m, he, -⟩ := eval_negate_eq_int_iff.mp heval
        exact ih hs he
  | arith op _ _ ihl ihr =>
      rcases List.mem_cons.mp hs with rfl | hs
      · exact ⟨v, heval⟩
      · obtain ⟨m, n, hl, hr, -⟩ := eval_arith_eq_int_iff.mp heval
        rcases List.mem_append.mp hs with hs | hs
        · exact ihl hs hl
        · exact ihr hs hr

/-- What an expression over integers comes to, if it comes to anything, is a number. -/
theorem isNumber_of_eval (h : e.IsArithmetic context) {w : SelectorValue}
    (heval : e.eval context = some w) : (∃ v, w = .int v) ∨ ∃ x, w = .float x := by
  cases h with
  | literal n =>
      cases heval
      exact .inl ⟨n, rfl⟩
  | @name name n hname =>
      rw [eval, hname] at heval
      cases heval
      exact .inl ⟨n, rfl⟩
  | negate _ =>
      obtain ⟨_, -, hneg⟩ := Option.bind_eq_some_iff.mp heval
      rcases SelectorValue.negate?_eq_some hneg with ⟨_, v, -, rfl, -⟩ | hfloat
      · exact .inl ⟨v, rfl⟩
      · exact .inr hfloat
  | arith op _ _ =>
      simp only [eval, Option.bind_eq_bind, Option.bind_eq_some_iff] at heval
      obtain ⟨_, -, _, -, happly⟩ := heval
      rcases Arithmetic.apply_eq_some happly with ⟨_, _, v, -, -, rfl, -⟩ | hfloat
      · exact .inl ⟨v, rfl⟩
      · exact .inr hfloat

/-- **Integers never wrap.** If an expression over integers comes to an integer, that is its exact
value, no division by zero is on the way to it, and everything on the way comes to an integer and
has an exact value of 64 bits. If all exact values have 64 bits it does come to an integer, and
otherwise to a number in floating point or to nothing. -/
theorem eval_of_isArithmetic (h : e.IsArithmetic context) :
    (∀ v, e.eval context = some (.int v) →
      e.Amounts context v.toInt ∧ e.StaysInt64 context ∧
      (∀ s ∈ e.subterms, ∃ n, s.eval context = some (.int n)) ∧
      ∀ l r, arith .div l r ∈ e.subterms → ∃ n, r.Amounts context n ∧ n ≠ 0) ∧
    (e.StaysInt64 context → ∃ v, e.eval context = some (.int v)) ∧
    (¬e.StaysInt64 context →
      e.eval context = none ∨ ∃ x, e.eval context = some (.float x)) := by
  refine ⟨fun v heval => ?_, fun hstays => ?_, fun hleaves => ?_⟩
  · obtain ⟨hvalue, hstays⟩ := (eval_eq_int_iff h).mp heval
    exact ⟨hvalue, hstays, fun s hs => exists_int_of_mem_subterms h hs heval,
      fun l r hdiv => hstays.divisor_ne_zero hdiv⟩
  · obtain ⟨v, hv⟩ := hstays.exists_amounts
    exact ⟨v, (eval_eq_int_iff h).mpr ⟨hv, hstays⟩⟩
  · cases heval : e.eval context with
    | none => exact .inl rfl
    | some w =>
        rcases isNumber_of_eval h heval with ⟨v, rfl⟩ | ⟨x, rfl⟩
        · exact absurd ((eval_eq_int_iff h).mp heval).2 hleaves
        · exact .inr ⟨x, rfl⟩

/-- What the names stand for in a stock of five boxes, in which there is room for as many as can be
counted. -/
def boxes : Context := fun n =>
  if n = "boxes" then some (.int 5) else if n = "room" then some (.int Int64.maxValue) else none

/-- Half of what is left of three times the boxes, counted as missing. -/
def missingHalf : Expr :=
  arith .div
    (negate (arith .sub (arith .mul (name "boxes") (literal (.int 3))) (literal (.int 2))))
    (literal (.int 2))

/-- One more than there is room for, and one less again. -/
def overAndBack : Expr :=
  arith .sub (arith .add (name "room") (literal (.int 1))) (literal (.int 1))

/-- A quotient that is cut toward zero, and a sum that has left the integers: its exact value would
be the room again, but it comes to a number in floating point. -/
theorem eval_of_isArithmetic_boxes :
    (missingHalf.IsArithmetic boxes ∧ missingHalf.eval boxes = some (.int (-6)) ∧
      missingHalf.Amounts boxes (-6) ∧ missingHalf.StaysInt64 boxes) ∧
    (overAndBack.IsArithmetic boxes ∧ overAndBack.Amounts boxes Int64.maxValue.toInt ∧
      ¬overAndBack.StaysInt64 boxes ∧ ∃ x, overAndBack.eval boxes = some (.float x)) := by
  have hboxes : boxes "boxes" = some (.int 5) := rfl
  have hroom : boxes "room" = some (.int Int64.maxValue) := rfl
  have hmissing : missingHalf.IsArithmetic boxes :=
    .arith _ (.negate (.arith _ (.arith _ (.name hboxes) (.literal 3)) (.literal 2))) (.literal 2)
  have hover : overAndBack.IsArithmetic boxes :=
    .arith _ (.arith _ (.name hroom) (.literal 1)) (.literal 1)
  have heval : missingHalf.eval boxes = some (.int (-6)) := by decide
  have hfloat : ∃ x, overAndBack.eval boxes = some (.float x) := ⟨_, rfl⟩
  obtain ⟨hexact, -, -⟩ := eval_of_isArithmetic hmissing
  obtain ⟨hamounts, hstays, -⟩ := hexact (-6) heval
  obtain ⟨-, hinteger, -⟩ := eval_of_isArithmetic hover
  have hback : overAndBack.Amounts boxes Int64.maxValue.toInt :=
    .arith (.arith (.name hroom) (.literal 1) (.add _ _)) (.literal 1) (.sub _ _)
  refine ⟨⟨hmissing, heval, hamounts, hstays⟩, hover, hback, fun h => ?_, hfloat⟩
  obtain ⟨v, hv⟩ := hinteger h
  obtain ⟨x, hx⟩ := hfloat
  rw [hv] at hx
  cases hx

end Expr

end Courier
