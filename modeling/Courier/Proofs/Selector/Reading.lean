import Courier.Proofs.Selector.Derivation

/-!
# How Tokens Are Read

Each level of the grammar is read from the front of some tokens. What is read is looked at here
without the proofs that come with it and without the errors, one equation for each step that a
level can take.

## Main definitions

* `gives?`: what was read, with the tokens left.
* `Level.read?`, `Level.more?`: what is read on a level, and what is read of its further members.

## Main results

* `Level.read?_of_joins`, `Level.more?_of_join`, `Level.more?_of_stop`: the levels whose members
  have operators between them.
-/

namespace Courier

variable {α : Type}

/-- What was read, with the tokens left, if something was. -/
def gives? {p : List Token → Prop} :
    Except SelectorError (α × { rest : List Token // p rest }) → Option (α × List Token)
  | .ok (a, rest) => some (a, rest.1)
  | .error _ => none

theorem gives?_expect (t : Token) (ts : List Token) :
    gives? (Token.expect t (t :: ts)) = some ((), ts) := by
  rw [Token.expect, if_pos rfl]
  rfl

theorem gives?_expect_eq_some {t : Token} {ts rest : List Token} {u : Unit}
    (h : gives? (Token.expect t ts) = some (u, rest)) : ts = t :: rest := by
  unfold Token.expect at h
  split at h
  · split at h
    · next heq =>
        cases h
        rw [heq]
    · cases h
  · cases h

namespace Level

/-- What is read on a level from the front of some tokens. -/
def read? : Level → List Token → Option (Expr × List Token)
  | disjunction, ts => gives? (Expr.orLevel ts)
  | conjunction, ts => gives? (Expr.andLevel ts)
  | negation, ts => gives? (Expr.notLevel ts)
  | predicate, ts => gives? (Expr.predicate ts)
  | sum, ts => gives? (Expr.sum ts)
  | product, ts => gives? (Expr.product ts)
  | signed, ts => gives? (Expr.signed ts)
  | operand, ts => gives? (Expr.operand ts)

/-- What is read after the first members of a level. -/
def more? : Level → Expr → List Token → Option (Expr × List Token)
  | disjunction, left, ts => gives? (Expr.orMore left ts)
  | conjunction, left, ts => gives? (Expr.andMore left ts)
  | sum, left, ts => gives? (Expr.sumMore left ts)
  | product, left, ts => gives? (Expr.productMore left ts)
  | _, left, ts => some (left, ts)

/-- Whether the members of a level have operators between them. -/
def joins : Level → Bool
  | disjunction | conjunction | sum | product => true
  | _ => false

/-! ### Levels with operators between their members -/

theorem read?_disjunction (ts : List Token) :
    disjunction.read? ts = (conjunction.read? ts).bind fun p => disjunction.more? p.1 p.2 := by
  rw [read?, Expr.orLevel, read?]
  rcases Expr.andLevel ts with _ | ⟨left, rest, -⟩
  · rfl
  · simp only [gives?, Option.bind_some, more?]
    rcases Expr.orMore left rest with _ | _ <;> rfl

theorem read?_conjunction (ts : List Token) :
    conjunction.read? ts = (negation.read? ts).bind fun p => conjunction.more? p.1 p.2 := by
  rw [read?, Expr.andLevel, read?]
  rcases Expr.notLevel ts with _ | ⟨left, rest, -⟩
  · rfl
  · simp only [gives?, Option.bind_some, more?]
    rcases Expr.andMore left rest with _ | _ <;> rfl

theorem read?_sum (ts : List Token) :
    sum.read? ts = (product.read? ts).bind fun p => sum.more? p.1 p.2 := by
  rw [read?, Expr.sum, read?]
  rcases Expr.product ts with _ | ⟨left, rest, -⟩
  · rfl
  · simp only [gives?, Option.bind_some, more?]
    rcases Expr.sumMore left rest with _ | _ <;> rfl

theorem read?_product (ts : List Token) :
    product.read? ts = (signed.read? ts).bind fun p => product.more? p.1 p.2 := by
  rw [read?, Expr.product, read?]
  rcases Expr.signed ts with _ | ⟨left, rest, -⟩
  · rfl
  · simp only [gives?, Option.bind_some, more?]
    rcases Expr.productMore left rest with _ | _ <;> rfl

/-- A first member is read, and then further ones. -/
theorem read?_of_joins {level next : Level} (h : level.joins) (hnext : level.next? = some next)
    (ts : List Token) :
    level.read? ts = (next.read? ts).bind fun p => level.more? p.1 p.2 := by
  cases level <;> cases h <;> cases hnext
  case disjunction => exact read?_disjunction ts
  case conjunction => exact read?_conjunction ts
  case sum => exact read?_sum ts
  case product => exact read?_product ts

/-- After an operator a member is read, and then further ones. -/
theorem more?_of_join {level next : Level} {t : Token} {f : Expr → Expr → Expr}
    (h : level.join? t = some f) (hnext : level.next? = some next) (left : Expr)
    (ts : List Token) :
    level.more? left (t :: ts) =
      (next.read? ts).bind fun p => level.more? (f left p.1) p.2 := by
  unfold join? at h
  split at h <;> cases h <;> cases hnext
  · rw [more?, Expr.orMore, read?]
    rcases Expr.andLevel ts with _ | ⟨right, rest, -⟩
    · rfl
    · simp only [gives?, Option.bind_some, more?]
      rcases Expr.orMore (.or left right) rest with _ | _ <;> rfl
  · rw [more?, Expr.andMore, read?]
    rcases Expr.notLevel ts with _ | ⟨right, rest, -⟩
    · rfl
    · simp only [gives?, Option.bind_some, more?]
      rcases Expr.andMore (.and left right) rest with _ | _ <;> rfl
  · rw [more?, Expr.sumMore, read?]
    rcases Expr.product ts with _ | ⟨right, rest, -⟩
    · rfl
    · simp only [gives?, Option.bind_some, more?]
      rcases Expr.sumMore (.arith .add left right) rest with _ | _ <;> rfl
  · rw [more?, Expr.sumMore, read?]
    rcases Expr.product ts with _ | ⟨right, rest, -⟩
    · rfl
    · simp only [gives?, Option.bind_some, more?]
      rcases Expr.sumMore (.arith .sub left right) rest with _ | _ <;> rfl
  · rw [more?, Expr.productMore, read?]
    rcases Expr.signed ts with _ | ⟨right, rest, -⟩
    · rfl
    · simp only [gives?, Option.bind_some, more?]
      rcases Expr.productMore (.arith .mul left right) rest with _ | _ <;> rfl
  · rw [more?, Expr.productMore, read?]
    rcases Expr.signed ts with _ | ⟨right, rest, -⟩
    · rfl
    · simp only [gives?, Option.bind_some, more?]
      rcases Expr.productMore (.arith .div left right) rest with _ | _ <;> rfl

/-- Without an operator nothing more is read. -/
theorem more?_of_stop {level : Level} {ts : List Token}
    (h : ∀ t ∈ ts.head?, level.join? t = none) (left : Expr) :
    level.more? left ts = some (left, ts) := by
  cases level
  case disjunction =>
    rw [more?]
    unfold Expr.orMore
    split
    · cases h _ rfl
    · rfl
  case conjunction =>
    rw [more?]
    unfold Expr.andMore
    split
    · cases h _ rfl
    · rfl
  case sum =>
    rw [more?]
    unfold Expr.sumMore
    split
    · cases h _ rfl
    · cases h _ rfl
    · rfl
  case product =>
    rw [more?]
    unfold Expr.productMore
    split
    · cases h _ rfl
    · cases h _ rfl
    · rfl
  all_goals rfl

/-! ### The other levels -/

theorem read?_not (ts : List Token) :
    negation.read? (.word .not :: ts) =
      (negation.read? ts).map fun p => (.not p.1, p.2) := by
  rw [read?, Expr.notLevel, read?]
  rcases Expr.notLevel ts with _ | _ <;> rfl

theorem read?_negation {ts : List Token} (h : ts.head? ≠ some (.word .not)) :
    negation.read? ts = predicate.read? ts := by
  rw [read?, read?]
  unfold Expr.notLevel
  split
  · cases h rfl
  · rfl

theorem read?_predicate (ts : List Token) :
    predicate.read? ts =
      (sum.read? ts).bind fun p => gives? (Expr.predicateOf p.1 p.2) := by
  rw [read?, Expr.predicate, read?]
  rcases Expr.sum ts with _ | ⟨left, rest, -⟩
  · rfl
  · simp only [gives?, Option.bind_some]
    rcases Expr.predicateOf left rest with _ | _ <;> rfl

theorem read?_minus (ts : List Token) :
    signed.read? (.sign .minus :: ts) =
      (signed.read? ts).map fun p => (.negate p.1, p.2) := by
  rw [read?, Expr.signed, read?]
  rcases Expr.signed ts with _ | _ <;> rfl

theorem read?_plus (ts : List Token) :
    signed.read? (.sign .plus :: ts) = signed.read? ts := by
  rw [read?, Expr.signed, read?]
  rcases Expr.signed ts with _ | _ <;> rfl

theorem read?_signed {ts : List Token} (hminus : ts.head? ≠ some (.sign .minus))
    (hplus : ts.head? ≠ some (.sign .plus)) : signed.read? ts = operand.read? ts := by
  rw [read?, read?]
  unfold Expr.signed
  split
  · cases hminus rfl
  · cases hplus rfl
  · rfl

theorem read?_parens (ts : List Token) :
    operand.read? (.sign .lparen :: ts) =
      (disjunction.read? ts).bind fun p =>
        (gives? (Token.expect (.sign .rparen) p.2)).map fun q => (p.1, q.2) := by
  change gives? (Expr.operand _) = (gives? (Expr.orLevel ts)).bind _
  rw [Expr.operand]
  rcases Expr.orLevel ts with _ | ⟨e, rest, -⟩
  · rfl
  · simp only [gives?, Option.bind_some]
    rcases Token.expect (.sign .rparen) rest with _ | _ <;> rfl

theorem read?_name (n : String) (ts : List Token) :
    operand.read? (.name n :: ts) = some (.name n, ts) := by
  rw [read?, Expr.operand]
  rfl

theorem read?_null (ts : List Token) :
    operand.read? (.word .null :: ts) = some (.literal .null, ts) := by
  rw [read?, Expr.operand]
  rfl

theorem read?_literal {t : Token} {v : Literal} (h : t.literal? = some v) (ts : List Token) :
    operand.read? (t :: ts) = some (.literal v, ts) := by
  cases t with
  | name | sign => cases h
  | string | int | float =>
      cases h
      rw [read?, Expr.operand]
      rfl
  | word k =>
      cases k <;> cases h
      all_goals
        rw [read?, Expr.operand]
        rfl

/-- No operand starts with another token. -/
theorem read?_operand_eq_none {t : Token} {ts : List Token} (hparen : t ≠ .sign .lparen)
    (hname : ∀ n, t ≠ .name n) (hliteral : t.literal? = none) (hnull : t ≠ .word .null) :
    operand.read? (t :: ts) = none := by
  cases t with
  | name n => exact absurd rfl (hname n)
  | string | int | float => cases hliteral
  | word k =>
      cases k
      case true | false => cases hliteral
      case null => exact absurd rfl hnull
      all_goals
        rw [read?, Expr.operand.eq_def]
        rfl
  | sign s =>
      cases s
      case lparen => exact absurd rfl hparen
      all_goals
        rw [read?, Expr.operand.eq_def]
        rfl

/-- What an operand starts with says what it is. -/
theorem read?_operand_eq_some {ts rest : List Token} {e : Expr}
    (h : operand.read? ts = some (e, rest)) :
    (∃ inner, ts = .sign .lparen :: inner ∧
        disjunction.read? inner = some (e, .sign .rparen :: rest)) ∨
      ∃ t, ts = t :: rest ∧ Derives .operand [t] e := by
  rcases ts with _ | ⟨t, ts⟩
  · simp [read?, Expr.operand, gives?] at h
  by_cases hparen : t = .sign .lparen
  · subst hparen
    rw [read?_parens] at h
    obtain ⟨⟨e', mid⟩, hinner, h⟩ := Option.bind_eq_some_iff.mp h
    obtain ⟨⟨_, rest'⟩, hexpect, heq⟩ := Option.map_eq_some_iff.mp h
    cases heq
    have hmid : mid = _ := gives?_expect_eq_some hexpect
    exact .inl ⟨ts, rfl, hmid ▸ hinner⟩
  by_cases hname : ∃ n, t = .name n
  · obtain ⟨n, rfl⟩ := hname
    rw [read?_name] at h
    cases h
    exact .inr ⟨_, rfl, .name n⟩
  by_cases hnull : t = .word .null
  · subst hnull
    rw [read?_null] at h
    cases h
    exact .inr ⟨_, rfl, .null⟩
  cases hliteral : t.literal? with
  | none =>
      rw [read?_operand_eq_none hparen (fun n hn => hname ⟨n, hn⟩) hliteral hnull] at h
      cases h
  | some v =>
      rw [read?_literal hliteral] at h
      cases h
      exact .inr ⟨_, rfl, .literal hliteral⟩

end Level

/-! ### Literals and their lists -/

namespace Literal

theorem gives?_read_token {t : Token} {v : Literal} (h : t.literal? = some v)
    (ts : List Token) : gives? (read (t :: ts)) = some (v, ts) := by
  cases t with
  | name | sign => cases h
  | string | int | float =>
      cases h
      rfl
  | word k => cases k <;> cases h <;> rfl

theorem gives?_readList (ts : List Token) :
    gives? (readList ts) =
      (gives? (Token.expect (.sign .lparen) ts)).bind fun p =>
        (gives? (read p.2)).bind fun q => gives? (readMore [q.1] q.2) := by
  rw [readList]
  rcases Token.expect (.sign .lparen) ts with _ | ⟨_, rest, -⟩
  · rfl
  · simp only [gives?, Option.bind_some]
    rcases read rest with _ | ⟨v, rest', -⟩
    · rfl
    · simp only [Option.bind_some]
      rcases readMore [v] rest' with _ | _ <;> rfl

theorem gives?_readMore_rparen (found : List Literal) (ts : List Token) :
    gives? (readMore found (.sign .rparen :: ts)) = some (found, ts) := by
  rw [readMore]
  rfl

/-- A list goes on with a comma or ends with a parenthesis. -/
theorem gives?_readMore_of_ne (found : List Literal) {ts : List Token}
    (hrparen : ts.head? ≠ some (.sign .rparen)) (hcomma : ts.head? ≠ some (.sign .comma)) :
    gives? (readMore found ts) = none := by
  unfold readMore
  split
  · cases hrparen rfl
  · cases hcomma rfl
  · rfl

theorem gives?_readMore_comma (found : List Literal) (ts : List Token) :
    gives? (readMore found (.sign .comma :: ts)) =
      (gives? (read ts)).bind fun p => gives? (readMore (found ++ [p.1]) p.2) := by
  rw [readMore]
  rcases read ts with _ | ⟨v, rest, -⟩
  · rfl
  · simp only [gives?, Option.bind_some]
    rcases readMore (found ++ [v]) rest with _ | _ <;> rfl

end Literal

/-! ### What is said of a sum -/

namespace Expr

theorem gives?_readNullTest_not (left : Expr) (ts : List Token) :
    gives? (readNullTest left (.word .not :: ts)) =
      (gives? (Token.expect (.word .null) ts)).map fun p => (.isNull left true, p.2) := by
  rw [readNullTest]
  rcases Token.expect (.word .null) ts with _ | _ <;> rfl

theorem gives?_readNullTest_of_ne (left : Expr) {ts : List Token}
    (h : ts.head? ≠ some (.word .not)) :
    gives? (readNullTest left ts) =
      (gives? (Token.expect (.word .null) ts)).map fun p => (.isNull left false, p.2) := by
  unfold readNullTest
  split
  · cases h rfl
  · rcases Token.expect (.word .null) ts with _ | _ <;> rfl

theorem gives?_readNullTest (left : Expr) (negated : Bool) (ts : List Token) :
    gives? (readNullTest left (negation negated ++ .word .null :: ts)) =
      some (.isNull left negated, ts) := by
  cases negated with
  | true =>
      change gives? (readNullTest left (.word .not :: .word .null :: ts)) = _
      rw [gives?_readNullTest_not, gives?_expect]
      rfl
  | false =>
      rw [gives?_readNullTest_of_ne left (by simp [negation])]
      change (gives? (Token.expect (.word .null) (.word .null :: ts))).map _ = _
      rw [gives?_expect]
      rfl

theorem gives?_readNullTest_eq_some {left e : Expr} {ts rest : List Token}
    (h : gives? (readNullTest left ts) = some (e, rest)) :
    ∃ negated, ts = negation negated ++ .word .null :: rest ∧ e = .isNull left negated := by
  by_cases hnot : ts.head? = some (.word .not)
  · obtain ⟨ts, rfl⟩ := List.head?_eq_some_iff.mp hnot
    rw [gives?_readNullTest_not] at h
    obtain ⟨_, hexpect, heq⟩ := Option.map_eq_some_iff.mp h
    cases heq
    exact ⟨true, congrArg _ (gives?_expect_eq_some hexpect), rfl⟩
  · rw [gives?_readNullTest_of_ne left hnot] at h
    obtain ⟨_, hexpect, heq⟩ := Option.map_eq_some_iff.mp h
    cases heq
    exact ⟨false, gives?_expect_eq_some hexpect, rfl⟩

theorem gives?_readString_eq_some {ts rest : List Token} {s : String}
    (h : gives? (readString ts) = some (s, rest)) : ts = .string s :: rest := by
  unfold readString at h
  split at h <;> cases h
  rfl

theorem gives?_readEscape_none {ts : List Token} (h : ts.head? ≠ some (.word .escape)) :
    gives? (readEscape ts) = some (none, ts) := by
  unfold readEscape
  split
  · cases h rfl
  · rfl

theorem gives?_readEscape (c : Char) (ts : List Token) :
    gives? (readEscape (.word .escape :: .string (String.singleton c) :: ts)) =
      some (some c, ts) := by
  simp [readEscape, readString, gives?]

theorem gives?_readEscape_eq_some {ts rest : List Token} {escape : Option Char}
    (h : gives? (readEscape ts) = some (escape, rest)) : ts = escaping escape ++ rest := by
  by_cases hescape : ts.head? = some (.word .escape)
  · obtain ⟨ts, rfl⟩ := List.head?_eq_some_iff.mp hescape
    rw [readEscape] at h
    rcases hstring : readString ts with _ | ⟨s, mid, hmid⟩
    · rw [hstring] at h
      cases h
    · rw [hstring] at h
      simp only at h
      split at h
      · next c hc =>
          cases h
          have hs : s = String.singleton c := String.toList_injective (by simp [hc])
          have hts : gives? (readString ts) = some (s, mid) := by
            rw [hstring]
            rfl
          have hcontent : ts = .string (String.singleton c) :: mid :=
            hs ▸ gives?_readString_eq_some hts
          exact congrArg _ hcontent
      · cases h
  · rw [gives?_readEscape_none hescape] at h
    cases h
    rfl

theorem gives?_readPattern_eq (ts : List Token) :
    gives? (readPattern ts) =
      (gives? (readString ts)).bind fun p =>
        (gives? (readEscape p.2)).map fun q => ((p.1, q.1), q.2) := by
  rw [readPattern]
  rcases readString ts with _ | ⟨pattern, rest, -⟩
  · rfl
  · simp only [gives?, Option.bind_some]
    rcases readEscape rest with _ | _ <;> rfl

theorem gives?_readPattern (pattern : String) (escape : Option Char) {ts : List Token}
    (h : ts.head? ≠ some (.word .escape)) :
    gives? (readPattern (.string pattern :: (escaping escape ++ ts))) =
      some ((pattern, escape), ts) := by
  rw [gives?_readPattern_eq]
  cases escape with
  | none =>
      change (gives? (readEscape ts)).map _ = _
      rw [gives?_readEscape_none h]
      rfl
  | some c =>
      change (gives? (readEscape (.word .escape :: .string (String.singleton c) :: ts))).map _ = _
      rw [gives?_readEscape]
      rfl

theorem gives?_readPattern_eq_some {ts rest : List Token} {pattern : String}
    {escape : Option Char} (h : gives? (readPattern ts) = some ((pattern, escape), rest)) :
    ts = .string pattern :: (escaping escape ++ rest) := by
  rw [gives?_readPattern_eq] at h
  obtain ⟨⟨s, mid⟩, hstring, h⟩ := Option.bind_eq_some_iff.mp h
  obtain ⟨⟨escape', rest'⟩, hescape, heq⟩ := Option.map_eq_some_iff.mp h
  cases heq
  have hmid : mid = _ := gives?_readEscape_eq_some hescape
  rw [gives?_readString_eq_some hstring, hmid]

theorem gives?_negatable_oneOf (left : Expr) (negated : Bool) (ts : List Token) :
    gives? (negatable left negated (.word .oneOf :: ts)) =
      (gives? (Literal.readList ts)).map fun p => (some (.oneOf left p.1 negated), p.2) := by
  rw [negatable]
  rcases Literal.readList ts with _ | _ <;> rfl

theorem gives?_negatable_like (left : Expr) (negated : Bool) (ts : List Token) :
    gives? (negatable left negated (.word .like :: ts)) =
      (gives? (readPattern ts)).map fun p =>
        (some (.like left p.1.1 p.1.2 negated), p.2) := by
  rw [negatable]
  rcases readPattern ts with _ | _ <;> rfl

theorem gives?_negatable_between (left : Expr) (negated : Bool) (ts : List Token) :
    gives? (negatable left negated (.word .between :: ts)) =
      (Level.sum.read? ts).bind fun low =>
        (gives? (Token.expect (.word .and) low.2)).bind fun p =>
          (Level.sum.read? p.2).map fun high =>
            (some (.between left low.1 high.1 negated), high.2) := by
  rw [negatable, Level.read?]
  rcases Expr.sum ts with _ | ⟨low, rest, -⟩
  · rfl
  · simp only [gives?, Option.bind_some]
    rcases Token.expect (.word .and) rest with _ | ⟨_, rest', -⟩
    · rfl
    · simp only [Option.bind_some, Level.read?]
      rcases Expr.sum rest' with _ | _ <;> rfl

/-- The words that predicates with a negated form start with. -/
def isNegatable : Token → Bool
  | .word .oneOf | .word .like | .word .between => true
  | _ => false

theorem gives?_negatable_of_ne (left : Expr) (negated : Bool) {ts : List Token}
    (h : ∀ t ∈ ts.head?, isNegatable t = false) :
    gives? (negatable left negated ts) = some (none, ts) := by
  unfold negatable
  split
  · cases h _ rfl
  · cases h _ rfl
  · cases h _ rfl
  · rfl

theorem gives?_predicateOf_is (left : Expr) (ts : List Token) :
    gives? (predicateOf left (.word .is :: ts)) = gives? (readNullTest left ts) := by
  rw [predicateOf]
  rcases readNullTest left ts with _ | _ <;> rfl

theorem gives?_predicateOf_not (left : Expr) (ts : List Token) :
    gives? (predicateOf left (.word .not :: ts)) =
      (gives? (negatable left true ts)).bind fun p => p.1.map fun e => (e, p.2) := by
  rw [predicateOf]
  rcases negatable left true ts with _ | ⟨_ | _, _⟩ <;> rfl

theorem gives?_predicateOf_sign (left : Expr) (s : Sign) (ts : List Token) :
    gives? (predicateOf left (.sign s :: ts)) =
      match Comparison.ofSign? s with
      | some op => (Level.sum.read? ts).map fun p => (.compare op left p.1, p.2)
      | none => some (left, .sign s :: ts) := by
  rw [predicateOf]
  cases Comparison.ofSign? s with
  | none => rfl
  | some op =>
      rw [Level.read?]
      simp only
      rcases Expr.sum ts with _ | _ <;> rfl

/-- Without a sign or one of the words `IS` and `NOT`, only a predicate with a negated form may
follow a sum. -/
theorem gives?_predicateOf_of_ne (left : Expr) {ts : List Token}
    (his : ts.head? ≠ some (.word .is)) (hnot : ts.head? ≠ some (.word .not))
    (hsign : ∀ s, ts.head? ≠ some (.sign s)) :
    gives? (predicateOf left ts) =
      (gives? (negatable left false ts)).map fun p =>
        match p.1 with
        | some e => (e, p.2)
        | none => (left, ts) := by
  unfold predicateOf
  split
  · cases his rfl
  · cases hnot rfl
  · cases hsign _ rfl
  · rcases negatable left false ts with _ | ⟨_ | _, _⟩ <;> rfl

end Expr

end Courier
