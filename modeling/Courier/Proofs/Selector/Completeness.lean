import Courier.Proofs.Selector.Soundness

/-!
# Reading Follows the Grammar

Tokens that the grammar derives an expression from are read as that expression, whatever stands
behind them, as long as it does not go on with something tighter: its first token tells. Together
with the other direction, tokens are read as an expression exactly when the grammar derives it.

## Main definitions

* `Token.rank`, `Level.reach`, `Level.Ends`: what may stand behind something of a level.

## Main results

* `Derives.read?_eq`: what is derived is read.
* `Expr.ofTokens_iff_derives`: both directions for all tokens of a selector.
* `Expr.parse_eq_ok_iff`: the expressions that texts are read as.
-/

namespace Courier

/-- How tightly a token ties what follows to what stands before, from `OR` up. -/
def Token.rank : Token → Nat
  | .word .or => 1
  | .word .and => 2
  | .word .is | .word .not | .word .oneOf | .word .like | .word .between | .word .escape => 3
  | .sign .eq | .sign .ne | .sign .lt | .sign .le | .sign .gt | .sign .ge => 3
  | .sign .plus | .sign .minus => 4
  | .sign .star | .sign .slash => 5
  | _ => 0

namespace Level

/-- The rank from which on tokens go on with the first member of a level. -/
def reach : Level → Nat
  | disjunction => 2
  | conjunction | negation | predicate => 3
  | sum => 5
  | product | signed | operand => 6

/-- What may stand behind something of a level without going on with its last member. -/
def Ends (level : Level) (rest : List Token) : Prop :=
  ∀ t ∈ rest.head?, t.rank < level.reach

theorem ends_cons {level : Level} {t : Token} {ts : List Token} :
    level.Ends (t :: ts) ↔ t.rank < level.reach := by
  simp [Ends]

theorem Ends.next {level next : Level} {rest : List Token} (h : level.Ends rest)
    (hnext : level.next? = some next) : next.Ends rest := by
  have hreach : level.reach ≤ next.reach := by
    cases level <;> cases hnext <;> decide
  exact fun t ht => Nat.lt_of_lt_of_le (h t ht) hreach

theorem rank_of_join {level : Level} {t : Token} {f : Expr → Expr → Expr}
    (h : level.join? t = some f) : level.joins ∧ t.rank + 1 = level.reach := by
  unfold join? at h
  split at h <;> cases h <;> exact ⟨rfl, rfl⟩

/-- Nothing more of a tighter level is read at the end. -/
theorem Ends.more?_next {level next : Level} {rest : List Token} (h : level.Ends rest)
    (hnext : level.next? = some next) (e : Expr) : next.more? e rest = some (e, rest) := by
  refine more?_of_stop (fun t ht => ?_) e
  cases hjoin : next.join? t with
  | none => rfl
  | some f =>
      obtain ⟨hjoins, hrank⟩ := rank_of_join hjoin
      have hreach : level.reach < next.reach := by
        revert hjoins
        cases level <;> cases hnext <;> decide
      have := h t ht
      omega

end Level

/-! ### Literals -/

theorem eq_neg_of_toInt {n v : Int64} (h : v.toInt = -n.toInt) : v = -n := by
  refine Int64.toInt_inj.mp ?_
  rw [Int64.toInt_neg, ← h, Int64.toInt_bmod]

theorem DerivesLiteral.gives?_read {ts : List Token} {v : Literal} (h : DerivesLiteral ts v)
    (rest : List Token) : gives? (Literal.read (ts ++ rest)) = some (v, rest) := by
  cases h with
  | token h => exact Literal.gives?_read_token h rest
  | minusInt h =>
      rw [eq_neg_of_toInt h]
      rfl
  | minusFloat => rfl

/-- A list that is derived is read up to where it may go on. -/
theorem DerivesLiterals.gives?_read {ts : List Token} {list : List Literal}
    (h : DerivesLiterals ts list) (rest : List Token) :
    ((gives? (Literal.read (ts ++ rest))).bind fun p => gives? (Literal.readMore [p.1] p.2)) =
      gives? (Literal.readMore list rest) := by
  induction h generalizing rest with
  | single h =>
      rw [h.gives?_read]
      rfl
  | comma _ h ih =>
      rw [List.append_assoc, ih, List.cons_append, Literal.gives?_readMore_comma, h.gives?_read]
      rfl

theorem DerivesLiterals.gives?_readList {ts : List Token} {list : List Literal}
    (h : DerivesLiterals ts list) (rest : List Token) :
    gives? (Literal.readList (.sign .lparen :: (ts ++ .sign .rparen :: rest))) =
      some (list, rest) := by
  rw [Literal.gives?_readList, gives?_expect]
  exact (h.gives?_read _).trans (Literal.gives?_readMore_rparen list rest)

/-! ### What is derived is read -/

namespace Expr

theorem gives?_predicateOf_negation {left e : Expr} {negated : Bool} {t : Token}
    {ts rest : List Token} (ht : isNegatable t)
    (h : gives? (negatable left negated (t :: ts)) = some (some e, rest)) :
    gives? (predicateOf left (negation negated ++ t :: ts)) = some (e, rest) := by
  cases negated with
  | true =>
      change gives? (predicateOf left (.word .not :: t :: ts)) = _
      rw [gives?_predicateOf_not, h]
      rfl
  | false =>
      change gives? (predicateOf left (t :: ts)) = _
      rw [gives?_predicateOf_of_ne left, h]
      · rfl
      · rintro heq
        cases heq
        cases ht
      · rintro heq
        cases heq
        cases ht
      · rintro s heq
        cases heq
        cases ht

theorem rank_of_isNegatable {t : Token} (h : isNegatable t) : t.rank = 3 := by
  unfold isNegatable at h
  split at h
  · rfl
  · rfl
  · rfl
  · cases h

/-- Nothing is said of a sum at the end of a predicate. -/
theorem gives?_predicateOf_of_ends {left : Expr} {rest : List Token}
    (h : Level.predicate.Ends rest) :
    gives? (predicateOf left rest) = some (left, rest) := by
  cases rest with
  | nil =>
      rw [gives?_predicateOf_of_ne left (by simp) (by simp) (by simp),
        gives?_negatable_of_ne left false (by simp)]
      rfl
  | cons t rest =>
      have hrank : t.rank < 3 := Level.ends_cons.mp h
      by_cases hsign : ∃ s, t = .sign s
      · obtain ⟨s, rfl⟩ := hsign
        have hop : Comparison.ofSign? s = none := by
          cases s <;> first | rfl | exact absurd hrank (by decide)
        rw [gives?_predicateOf_sign, hop]
      · have hne : isNegatable t = false := by
          refine Bool.eq_false_iff.mpr fun hnegatable => ?_
          rw [rank_of_isNegatable hnegatable] at hrank
          exact Nat.lt_irrefl _ hrank
        rw [gives?_predicateOf_of_ne left, gives?_negatable_of_ne left false]
        · rfl
        · simpa using hne
        · rintro heq
          cases heq
          exact absurd hrank (by decide)
        · rintro heq
          cases heq
          exact absurd hrank (by decide)
        · rintro s heq
          cases heq
          exact hsign ⟨s, rfl⟩

/-- A sum that is not the end of a predicate is read before what is said of it. -/
theorem read?_predicate_of_sum {ls rest : List Token} {left : Expr}
    (hleft : ∀ {more : List Token}, Level.sum.Ends more →
      Level.sum.read? (ls ++ more) = Level.sum.more? left more)
    (hrest : ∀ t ∈ rest.head?, t.rank < 4) :
    Level.predicate.read? (ls ++ rest) = gives? (predicateOf left rest) := by
  have hends : Level.sum.Ends rest := fun t ht => Nat.lt_succ_of_lt (hrest t ht)
  have hstop : ∀ t ∈ rest.head?, Level.sum.join? t = none := by
    intro t ht
    cases hjoin : Level.sum.join? t with
    | none => rfl
    | some f =>
        have hrank : t.rank + 1 = 5 := (Level.rank_of_join hjoin).2
        have := hrest t ht
        omega
  rw [Level.read?_predicate, hleft hends, Level.more?_of_stop hstop]
  rfl

/-- A predicate with a negated form is read behind its sum, negated or not. -/
theorem read?_negatable {ls : List Token} {left e : Expr} {negated : Bool} {t : Token}
    {ts rest : List Token}
    (hleft : ∀ {more : List Token}, Level.sum.Ends more →
      Level.sum.read? (ls ++ more) = Level.sum.more? left more)
    (ht : isNegatable t)
    (h : gives? (negatable left negated (t :: (ts ++ rest))) = some (some e, rest)) :
    Level.predicate.read? (ls ++ (negation negated ++ t :: ts) ++ rest) = some (e, rest) := by
  have hrank : ∀ u ∈ (negation negated ++ t :: (ts ++ rest)).head?, u.rank < 4 := by
    cases negated with
    | true => simp [negation, Token.rank]
    | false => simp [negation, rank_of_isNegatable ht]
  rw [List.append_assoc, List.append_assoc, List.cons_append, read?_predicate_of_sum hleft hrank]
  exact gives?_predicateOf_negation ht h

end Expr

/-- Where the next tighter level is read to its end, nothing else is read. -/
theorem Level.read?_of_next {level next : Level} (hnext : level.next? = some next)
    {t : Token} {ts rest : List Token} {e : Expr} (ht : next.startsWith t)
    (hrest : level.Ends rest) (hread : next.read? (t :: ts) = some (e, rest)) :
    level.read? (t :: ts) = level.more? e rest := by
  cases level <;> cases hnext
  case negation =>
    refine (read?_negation ?_).trans hread
    rintro heq
    cases heq
    cases ht
  case predicate =>
    rw [read?_predicate, hread]
    exact Expr.gives?_predicateOf_of_ends hrest
  case signed =>
    refine (read?_signed ?_ ?_).trans hread
    · rintro heq
      cases heq
      cases ht
    · rintro heq
      cases heq
      cases ht
  all_goals
    rw [read?_of_joins rfl rfl, hread]
    rfl

/-- **What is derived is read**, and reading goes on behind it with further members. -/
theorem Derives.read?_eq {level : Level} {ts rest : List Token} {e : Expr}
    (h : Derives level ts e) (hrest : level.Ends rest) :
    level.read? (ts ++ rest) = level.more? e rest := by
  induction h generalizing rest with
  | @alone level next ts e hnext hderives ih =>
      have hread := (ih (hrest.next hnext)).trans (hrest.more?_next hnext e)
      obtain ⟨t, ts, rfl, ht⟩ := hderives.starts
      exact Level.read?_of_next hnext ht hrest hread
  | @join level next ls rs t f left right hnext hjoin _ _ ihleft ihright =>
      obtain ⟨-, hrank⟩ := Level.rank_of_join hjoin
      have hends : level.Ends (t :: (rs ++ rest)) := Level.ends_cons.mpr (by omega)
      rw [List.append_assoc, List.cons_append, ihleft hends, Level.more?_of_join hjoin hnext,
        ihright (hrest.next hnext), hrest.more?_next hnext]
      rfl
  | not _ ih =>
      rw [List.cons_append, Level.read?_not, ih hrest]
      rfl
  | @compare ls rs left right op _ _ ihleft ihright =>
      have hright := (ihright (hrest.next rfl)).trans (hrest.more?_next rfl right)
      have hsign : (Token.sign op.sign).rank < 4 := by cases op <;> decide
      rw [List.append_assoc, Expr.read?_predicate_of_sum ihleft (by simpa using hsign),
        List.cons_append, Expr.gives?_predicateOf_sign, Comparison.ofSign?_sign, hright]
      rfl
  | @isNull ls left negated _ ih =>
      rw [List.append_assoc, Expr.read?_predicate_of_sum ih (by simp [Token.rank]),
        List.cons_append, Expr.gives?_predicateOf_is, List.append_assoc]
      exact Expr.gives?_readNullTest left negated rest
  | @oneOf ls ts left list negated _ hlist ih =>
      refine Expr.read?_negatable ih rfl ?_
      have hread := hlist.gives?_readList rest
      rw [Expr.gives?_negatable_oneOf, List.cons_append, List.append_assoc]
      exact congrArg (Option.map _) hread
  | @like ls left pattern escape negated _ ih =>
      have hescape : rest.head? ≠ some (.word .escape) := by
        intro heq
        exact absurd (hrest _ heq) (by decide)
      refine Expr.read?_negatable ih rfl ?_
      rw [Expr.gives?_negatable_like, List.cons_append, Expr.gives?_readPattern _ _ hescape]
      rfl
  | @between ls ms hs left low high negated _ _ _ ihleft ihlow ihhigh =>
      have hand : Level.sum.Ends (.word .and :: (hs ++ rest)) := Level.ends_cons.mpr (by decide)
      have hlow := (ihlow hand).trans (Level.more?_of_stop (by simp [Level.join?]) low)
      have hhigh := (ihhigh (hrest.next rfl)).trans (hrest.more?_next rfl high)
      refine Expr.read?_negatable ihleft rfl ?_
      rw [Expr.gives?_negatable_between, List.append_assoc, List.cons_append, hlow,
        Option.bind_some, gives?_expect, Option.bind_some, hhigh]
      rfl
  | minus _ ih =>
      rw [List.cons_append, Level.read?_minus, ih hrest]
      rfl
  | plus _ ih =>
      rw [List.cons_append, Level.read?_plus, ih hrest]
  | @parens ts e _ ih =>
      have hparen : Level.disjunction.Ends (.sign .rparen :: rest) :=
        Level.ends_cons.mpr (by decide)
      have hread := (ih hparen).trans (Level.more?_of_stop (by simp [Level.join?]) e)
      rw [List.cons_append, List.append_assoc, Level.read?_parens, List.singleton_append, hread,
        Option.bind_some, gives?_expect]
      rfl
  | name n => exact Level.read?_name n rest
  | literal h => exact Level.read?_literal h rest
  | null => exact Level.read?_null rest

/-! ### All tokens of a selector -/

namespace Token

/-- Numbers are read without a sign. -/
theorem toInt_nonneg_of_number {c : Char} {text rest : List Char} {n : Int64}
    (h : number c text = .ok (.int n, rest)) : 0 ≤ n.toInt := by
  simp only [number] at h
  split at h
  · split at h
    · next hlt =>
        cases h
        rw [Int64.toInt_ofNat_of_lt hlt]
        exact Int.natCast_nonneg _
    · cases h
  · cases h

theorem toInt_nonneg_of_first {position : Nat} {c : Char} {text rest : List Char} {n : Int64}
    (h : first position c text = .ok (.int n, rest)) : 0 ≤ n.toInt := by
  unfold first at h
  split at h
  · cases h
  · split at h
    · split at h <;> cases h
    · split at h
      · exact toInt_nonneg_of_number h
      · split at h
        · next name _ =>
            unfold ofName at h
            split at h <;> cases h
        · cases h

theorem nonNegative_of_scanFrom {length : Nat} {text : List Char} {ts : List Token}
    (h : scanFrom length text = .ok ts) : NonNegative ts := by
  fun_induction scanFrom length text generalizing ts with
  | case1 =>
      cases h
      exact fun n hn => absurd hn List.not_mem_nil
  | case2 _ _ _ ih => exact ih h
  | case3 => cases h
  | case4 => cases h
  | case5 _ _ _ _ _ hfirst _ hscan ih =>
      cases h
      intro n hn
      rcases List.mem_cons.mp hn with rfl | hn
      · exact toInt_nonneg_of_first hfirst
      · exact ih hscan n hn

/-- The tokens of a text hold no negative integers. -/
theorem nonNegative_of_scan {text : List Char} {ts : List Token} (h : scan text = .ok ts) :
    NonNegative ts :=
  nonNegative_of_scanFrom h

end Token

namespace Expr

theorem ofTokens_eq_ok_iff_read? {ts : List Token} {e : Expr} :
    ofTokens ts = .ok e ↔ Level.disjunction.read? ts = some (e, []) := by
  rw [ofTokens, Level.read?]
  rcases orLevel ts with _ | ⟨e', _ | ⟨t, rest⟩, _⟩ <;> simp [gives?]

theorem ofTokens_of_derives {ts : List Token} {e : Expr} (h : Derives .disjunction ts e) :
    ofTokens ts = .ok e := by
  have hends : Level.disjunction.Ends [] := fun t ht => by cases ht
  have hread := h.read?_eq hends
  rw [List.append_nil, Level.more?_of_stop fun t ht => by cases ht] at hread
  exact ofTokens_eq_ok_iff_read?.mpr hread

theorem derives_of_ofTokens {ts : List Token} {e : Expr} (hts : NonNegative ts)
    (h : ofTokens ts = .ok e) : Derives .disjunction ts e := by
  have hread := ofTokens_eq_ok_iff_read?.mp h
  obtain ⟨used, rfl, hused⟩ := Level.disjunction.read?_sound ts hts e [] hread
  rwa [List.append_nil]

/-- **Tokens are read as the grammar says.** The tokens of a text hold no negative integers. Of
tokens without negative integers every negative is in range, and they are read as an expression
exactly when the grammar derives it from all of them. -/
theorem ofTokens_iff_derives :
    (∀ text ts, Token.scan text = .ok ts → NonNegative ts) ∧
      ∀ ts, NonNegative ts →
        (∀ n, .int n ∈ ts → (-n).toInt = -n.toInt) ∧
          ∀ e, ofTokens ts = .ok e ↔ Derives .disjunction ts e :=
  ⟨fun _ _ => Token.nonNegative_of_scan, fun _ h =>
    ⟨fun n hn => toInt_neg_of_nonneg (h n hn), fun _ =>
      ⟨derives_of_ofTokens h, ofTokens_of_derives⟩⟩⟩

theorem eq_ok_of_toOption {ε α : Type} {x : Except ε α} {a : α} (h : x.toOption = some a) :
    x = .ok a := by
  cases x with
  | error => cases h
  | ok => exact congrArg _ (Option.some.inj h)

/-- The tokens of `NOT a NOT BETWEEN 1 AND 2 AND b IN (-5, 'x')`. -/
def twofoldTokens : List Token :=
  [.word .not, .name "a", .word .not, .word .between, .int 1, .word .and, .int 2, .word .and,
    .name "b", .word .oneOf, .sign .lparen, .sign .minus, .int 5, .sign .comma, .string "x",
    .sign .rparen]

/-- The first `AND` belongs to the range and the second one is the connective; the first `NOT`
negates and the second one belongs to the range. -/
theorem ofTokens_twofold :
    Token.scan "NOT a NOT BETWEEN 1 AND 2 AND b IN (-5, 'x')".toList = .ok twofoldTokens ∧
      ofTokens twofoldTokens = .ok (.and
        (.not (.between (.name "a") (.literal (.int 1)) (.literal (.int 2)) true))
        (.oneOf (.name "b") [.int (-5), .string "x"] false)) := by
  have hscan : Token.scan "NOT a NOT BETWEEN 1 AND 2 AND b IN (-5, 'x')".toList =
      .ok twofoldTokens :=
    eq_ok_of_toOption (by decide +kernel)
  have hnonneg := ofTokens_iff_derives.1 _ _ hscan
  have sum_of_operand {ts : List Token} {e : Expr} (h : Derives .operand ts e) :
      Derives .sum ts e := .alone rfl (.alone rfl (.alone rfl h))
  have hrange := Derives.between true (sum_of_operand (.name "a"))
    (sum_of_operand (.literal (t := .int 1) rfl)) (sum_of_operand (.literal (t := .int 2) rfl))
  have hleft : Derives .conjunction _ _ := .alone rfl (.not (.alone rfl hrange))
  have hfive : DerivesLiteral [.sign .minus, .int 5] (.int (-5)) := .minusInt (by decide)
  have hlist := (DerivesLiterals.single hfive).comma (.token (t := .string "x") rfl)
  have hright : Derives .negation _ _ :=
    .alone rfl (.oneOf false (sum_of_operand (.name "b")) hlist)
  have hall := Derives.join (t := .word .and) rfl rfl hleft hright
  exact ⟨hscan, ((ofTokens_iff_derives.2 twofoldTokens hnonneg).2 _).mpr (.alone rfl hall)⟩

/-- A text is read as an expression exactly when the grammar derives it from the tokens of the
text. -/
theorem parse_eq_ok_iff {text : String} {e : Expr} :
    parse text = .ok e ↔
      ∃ ts, Token.scan text.toList = .ok ts ∧ Derives .disjunction ts e := by
  rw [parse]
  cases hscan : Token.scan text.toList with
  | error => simp
  | ok ts =>
      have hts := Token.nonNegative_of_scan hscan
      constructor
      · exact fun h => ⟨ts, rfl, derives_of_ofTokens hts h⟩
      · rintro ⟨ts, heq, h⟩
        cases heq
        exact ofTokens_of_derives h

end Expr

end Courier
