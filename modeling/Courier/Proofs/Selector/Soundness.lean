import Courier.Proofs.Selector.Reading

/-!
# What Is Read Is Derived

What is read on a level of the grammar was derived from the tokens that it took. The levels call
one another on fewer tokens, except that each calls the next tighter one on all tokens that it
has. The proof is therefore by induction on the number of tokens, and for one number from the
tightest level to the loosest. Further members of a level are read by a loop that carries what was
derived from the tokens before.

## Main definitions

* `NonNegative`: tokens without negative integers.
* `SoundAt`, `SoundBelow`: what is read on a level was derived.

## Main results

* `Level.more?_sound`: the loop over further members, for all levels that have one.
* `Level.read?_sound`: all levels.
-/

namespace Courier

/-- No integer is negative, as it is with the tokens of a text. -/
def NonNegative (ts : List Token) : Prop := ∀ n, .int n ∈ ts → 0 ≤ n.toInt

theorem NonNegative.of_append {front ts : List Token} (h : NonNegative (front ++ ts)) :
    NonNegative ts :=
  fun n hn => h n (List.mem_append_right front hn)

theorem NonNegative.tail {t : Token} {ts : List Token} (h : NonNegative (t :: ts)) :
    NonNegative ts :=
  fun n hn => h n (.tail t hn)

/-- The negative of an integer that is not negative is in range. -/
theorem toInt_neg_of_nonneg {n : Int64} (h : 0 ≤ n.toInt) : (-n).toInt = -n.toInt := by
  have hlt : n.toInt < 2 ^ 63 := n.toInt_lt
  rw [Int64.toInt_neg, Int.bmod_eq_of_le]
  · omega
  · omega

theorem Literal.read_sound {ts rest : List Token} {v : Literal} (hts : NonNegative ts)
    (h : gives? (read ts) = some (v, rest)) :
    ∃ used, ts = used ++ rest ∧ DerivesLiteral used v := by
  unfold read at h
  split at h <;> cases h
  case h_6 => exact ⟨_, rfl, .minusInt (toInt_neg_of_nonneg (hts _ (.tail _ (.head _))))⟩
  case h_7 => exact ⟨_, rfl, .minusFloat _⟩
  all_goals exact ⟨[_], rfl, .token rfl⟩

theorem Literal.readMore_sound {ts rest : List Token} {found list : List Literal}
    (hts : NonNegative ts) (h : gives? (readMore found ts) = some (list, rest)) :
    ∃ used, ts = used ++ .sign .rparen :: rest ∧
      ∀ front, DerivesLiterals front found → DerivesLiterals (front ++ used) list := by
  induction hlength : ts.length using Nat.strongRecOn generalizing ts found with
    | ind n ih => ?_
  by_cases hrparen : ts.head? = some (.sign .rparen)
  · obtain ⟨ts, rfl⟩ := List.head?_eq_some_iff.mp hrparen
    rw [gives?_readMore_rparen] at h
    cases h
    exact ⟨[], rfl, fun front hfront => by rwa [List.append_nil]⟩
  by_cases hcomma : ts.head? = some (.sign .comma)
  · obtain ⟨ts, rfl⟩ := List.head?_eq_some_iff.mp hcomma
    rw [gives?_readMore_comma] at h
    obtain ⟨⟨v, mid⟩, hread, hmore⟩ := Option.bind_eq_some_iff.mp h
    obtain ⟨used, rfl, hv⟩ := read_sound hts.tail hread
    have hshorter : mid.length < n := by
      rw [← hlength, List.length_cons, List.length_append]
      omega
    obtain ⟨others, rfl, hlist⟩ := ih mid.length hshorter hts.tail.of_append hmore rfl
    refine ⟨.sign .comma :: used ++ others, by simp, fun front hfront => ?_⟩
    have hlonger := hlist _ (hfront.comma hv)
    rwa [List.append_assoc] at hlonger
  · rw [gives?_readMore_of_ne found hrparen hcomma] at h
    cases h

theorem Literal.readList_sound {ts rest : List Token} {list : List Literal}
    (hts : NonNegative ts) (h : gives? (readList ts) = some (list, rest)) :
    ∃ used, ts = .sign .lparen :: (used ++ .sign .rparen :: rest) ∧ DerivesLiterals used list := by
  rw [gives?_readList] at h
  obtain ⟨⟨_, inner⟩, hexpect, hinner⟩ := Option.bind_eq_some_iff.mp h
  obtain rfl := gives?_expect_eq_some hexpect
  obtain ⟨⟨v, mid⟩, hread, hmore⟩ := Option.bind_eq_some_iff.mp hinner
  obtain ⟨used, rfl, hv⟩ := read_sound hts.tail hread
  obtain ⟨others, rfl, hlist⟩ := readMore_sound hts.tail.of_append hmore
  exact ⟨used ++ others, by simp, hlist used (.single hv)⟩

/-- What is read on a level from some tokens was derived from those that it took. -/
def SoundAt (level : Level) (ts : List Token) : Prop :=
  NonNegative ts → ∀ e rest, level.read? ts = some (e, rest) →
    ∃ used, ts = used ++ rest ∧ Derives level used e

/-- What is read on a level from fewer tokens than a number was derived. -/
def SoundBelow (level : Level) (n : Nat) : Prop :=
  ∀ ts, ts.length < n → SoundAt level ts

theorem SoundBelow.mono {level : Level} {m n : Nat} (h : SoundBelow level n) (hle : m ≤ n) :
    SoundBelow level m :=
  fun ts hts => h ts (Nat.lt_of_lt_of_le hts hle)

/-- What is read of further members goes on with what was derived before. -/
theorem Level.more?_sound {level next : Level} (hnext : level.next? = some next)
    {ts rest front : List Token} {left e : Expr}
    (hread : SoundBelow next ts.length) (hts : NonNegative ts)
    (hfront : Derives level front left) (h : level.more? left ts = some (e, rest)) :
    ∃ used, ts = used ++ rest ∧ Derives level (front ++ used) e := by
  induction hlength : ts.length using Nat.strongRecOn generalizing ts left front with
    | ind n ih => ?_
  cases ts with
  | nil =>
      rw [more?_of_stop fun t ht => by cases ht] at h
      cases h
      exact ⟨[], rfl, by rwa [List.append_nil]⟩
  | cons t ts =>
      cases hjoin : level.join? t with
      | none =>
          rw [more?_of_stop fun u hu => Option.some.inj hu ▸ hjoin] at h
          cases h
          exact ⟨[], rfl, by rwa [List.append_nil]⟩
      | some f =>
          rw [more?_of_join hjoin hnext] at h
          obtain ⟨⟨right, mid⟩, hright, hmore⟩ := Option.bind_eq_some_iff.mp h
          obtain ⟨used, rfl, hused⟩ := hread ts (by simp) hts.tail right mid hright
          have hshorter : mid.length < (t :: (used ++ mid)).length := by
            rw [List.length_cons, List.length_append]
            omega
          obtain ⟨others, rfl, hderives⟩ :=
            ih mid.length (hlength ▸ hshorter) (hread.mono (Nat.le_of_lt hshorter))
              hts.tail.of_append (.join hnext hjoin hfront hused) hmore rfl
          refine ⟨t :: used ++ others, by simp, ?_⟩
          rwa [List.append_assoc] at hderives

theorem SoundAt.of_joins {level next : Level} (hjoins : level.joins)
    (hnext : level.next? = some next) {ts : List Token}
    (hread : SoundBelow next (ts.length + 1)) : SoundAt level ts := by
  intro hts e rest h
  rw [Level.read?_of_joins hjoins hnext] at h
  obtain ⟨⟨left, mid⟩, hleft, hmore⟩ := Option.bind_eq_some_iff.mp h
  obtain ⟨front, rfl, hfront⟩ := hread ts (Nat.lt_succ_self _) hts left mid hleft
  have hle : mid.length ≤ (front ++ mid).length + 1 := by
    rw [List.length_append]
    omega
  obtain ⟨used, rfl, hused⟩ :=
    Level.more?_sound hnext (hread.mono hle) hts.of_append (.alone hnext hfront) hmore
  exact ⟨front ++ used, by simp, hused⟩

theorem Expr.negatable_sound {ts rest : List Token} {left e : Expr} {negated : Bool}
    (hread : SoundBelow .sum ts.length) (hts : NonNegative ts)
    (h : gives? (negatable left negated ts) = some (some e, rest)) :
    ∃ used, ts = used ++ rest ∧ ∀ front, Derives .sum front left →
      Derives .predicate (front ++ (negation negated ++ used)) e := by
  by_cases hne : ∀ t ∈ ts.head?, isNegatable t = false
  · rw [gives?_negatable_of_ne left negated hne] at h
    cases h
  cases ts with
  | nil => exact absurd (fun t ht => by cases ht) hne
  | cons t ts =>
      have ht : isNegatable t := by
        refine Bool.of_not_eq_false fun hfalse => hne fun u hu => ?_
        exact Option.some.inj hu ▸ hfalse
      unfold isNegatable at ht
      split at ht
      · rw [gives?_negatable_oneOf] at h
        obtain ⟨⟨list, mid⟩, hlist, heq⟩ := Option.map_eq_some_iff.mp h
        cases heq
        obtain ⟨used, rfl, hused⟩ := Literal.readList_sound hts.tail hlist
        refine ⟨_, ?_, fun front hfront => .oneOf negated hfront hused⟩
        simp
      · rw [gives?_negatable_like] at h
        obtain ⟨⟨⟨pattern, escape⟩, mid⟩, hpattern, heq⟩ := Option.map_eq_some_iff.mp h
        cases heq
        refine ⟨_, ?_, fun front hfront => .like pattern escape negated hfront⟩
        rw [gives?_readPattern_eq_some hpattern]
        rfl
      · rw [gives?_negatable_between] at h
        obtain ⟨⟨low, mid⟩, hlow, hmore⟩ := Option.bind_eq_some_iff.mp h
        obtain ⟨⟨_, mid'⟩, hand, hmore'⟩ := Option.bind_eq_some_iff.mp hmore
        obtain ⟨⟨high, mid''⟩, hhigh, heq⟩ := Option.map_eq_some_iff.mp hmore'
        cases heq
        obtain ⟨ms, rfl, hms⟩ := hread ts (by simp) hts.tail low mid hlow
        obtain rfl := gives?_expect_eq_some hand
        have hshorter : mid'.length < (.word .between :: (ms ++ .word .and :: mid')).length := by
          simp only [List.length_cons, List.length_append]
          omega
        obtain ⟨hs, rfl, hhs⟩ := hread mid' hshorter hts.tail.of_append.tail high mid'' hhigh
        refine ⟨_, ?_, fun front hfront => .between negated hfront hms hhs⟩
        simp
      · cases ht

theorem Comparison.ofSign?_eq_some {s : Sign} {op : Comparison} (h : ofSign? s = some op) :
    s = op.sign := by
  unfold ofSign? at h
  split at h <;> cases h <;> rfl

@[simp] theorem Comparison.ofSign?_sign (op : Comparison) : ofSign? op.sign = some op := by
  cases op <;> rfl

theorem Expr.predicateOf_sound {ts rest : List Token} {left e : Expr}
    (hread : SoundBelow .sum ts.length) (hts : NonNegative ts)
    (h : gives? (predicateOf left ts) = some (e, rest)) :
    ∃ used, ts = used ++ rest ∧ ∀ front, Derives .sum front left →
      Derives .predicate (front ++ used) e := by
  have hnothing : e = left → ts = rest → ∃ used, ts = used ++ rest ∧
      ∀ front, Derives .sum front left → Derives .predicate (front ++ used) e := by
    rintro rfl rfl
    exact ⟨[], rfl, fun front hfront => by
      rw [List.append_nil]
      exact .alone rfl hfront⟩
  by_cases his : ts.head? = some (.word .is)
  · obtain ⟨ts, rfl⟩ := List.head?_eq_some_iff.mp his
    rw [gives?_predicateOf_is] at h
    obtain ⟨negated, rfl, rfl⟩ := gives?_readNullTest_eq_some h
    refine ⟨_, ?_, fun front hfront => .isNull negated hfront⟩
    simp
  by_cases hnot : ts.head? = some (.word .not)
  · obtain ⟨ts, rfl⟩ := List.head?_eq_some_iff.mp hnot
    rw [gives?_predicateOf_not] at h
    obtain ⟨⟨found, mid⟩, hfound, heq⟩ := Option.bind_eq_some_iff.mp h
    obtain ⟨e', rfl, heq⟩ := Option.map_eq_some_iff.mp heq
    cases heq
    obtain ⟨used, rfl, hused⟩ :=
      negatable_sound (hread.mono (Nat.le_succ _)) hts.tail hfound
    exact ⟨.word .not :: used, rfl, hused⟩
  by_cases hsign : ∃ s, ts.head? = some (.sign s)
  · obtain ⟨s, hs⟩ := hsign
    obtain ⟨ts, rfl⟩ := List.head?_eq_some_iff.mp hs
    rw [gives?_predicateOf_sign] at h
    cases hop : Comparison.ofSign? s with
    | none =>
        rw [hop] at h
        cases h
        exact hnothing rfl rfl
    | some op =>
        rw [hop] at h
        obtain ⟨⟨right, mid⟩, hright, heq⟩ := Option.map_eq_some_iff.mp h
        cases heq
        obtain ⟨used, rfl, hused⟩ := hread ts (by simp) hts.tail right mid hright
        obtain rfl := Comparison.ofSign?_eq_some hop
        exact ⟨.sign op.sign :: used, rfl, fun front hfront => .compare op hfront hused⟩
  rw [gives?_predicateOf_of_ne left his hnot fun s hs => hsign ⟨s, hs⟩] at h
  obtain ⟨⟨found, mid⟩, hfound, heq⟩ := Option.map_eq_some_iff.mp h
  cases found with
  | none =>
      cases heq
      exact hnothing rfl rfl
  | some e' =>
      cases heq
      exact negatable_sound hread hts hfound

theorem SoundAt.predicate {ts : List Token}
    (hread : SoundBelow .sum (ts.length + 1)) : SoundAt .predicate ts := by
  intro hts e rest h
  rw [Level.read?_predicate] at h
  obtain ⟨⟨left, mid⟩, hleft, hmore⟩ := Option.bind_eq_some_iff.mp h
  obtain ⟨front, rfl, hfront⟩ := hread ts (Nat.lt_succ_self _) hts left mid hleft
  have hle : mid.length ≤ (front ++ mid).length + 1 := by
    rw [List.length_append]
    omega
  obtain ⟨used, rfl, hused⟩ := Expr.predicateOf_sound (hread.mono hle) hts.of_append hmore
  exact ⟨front ++ used, by simp, hused front hfront⟩

theorem SoundAt.negation {ts : List Token} (hself : SoundBelow .negation ts.length)
    (hread : SoundAt .predicate ts) : SoundAt .negation ts := by
  intro hts e rest h
  by_cases hnot : ts.head? = some (.word .not)
  · obtain ⟨ts, rfl⟩ := List.head?_eq_some_iff.mp hnot
    rw [Level.read?_not] at h
    obtain ⟨⟨e', mid⟩, he', heq⟩ := Option.map_eq_some_iff.mp h
    cases heq
    obtain ⟨used, rfl, hused⟩ := hself ts (by simp) hts.tail e' mid he'
    exact ⟨.word .not :: used, rfl, .not hused⟩
  · rw [Level.read?_negation hnot] at h
    obtain ⟨used, rfl, hused⟩ := hread hts e rest h
    exact ⟨used, rfl, .alone rfl hused⟩

theorem SoundAt.signed {ts : List Token} (hself : SoundBelow .signed ts.length)
    (hread : SoundAt .operand ts) : SoundAt .signed ts := by
  intro hts e rest h
  by_cases hminus : ts.head? = some (.sign .minus)
  · obtain ⟨ts, rfl⟩ := List.head?_eq_some_iff.mp hminus
    rw [Level.read?_minus] at h
    obtain ⟨⟨e', mid⟩, he', heq⟩ := Option.map_eq_some_iff.mp h
    cases heq
    obtain ⟨used, rfl, hused⟩ := hself ts (by simp) hts.tail e' mid he'
    exact ⟨.sign .minus :: used, rfl, .minus hused⟩
  by_cases hplus : ts.head? = some (.sign .plus)
  · obtain ⟨ts, rfl⟩ := List.head?_eq_some_iff.mp hplus
    rw [Level.read?_plus] at h
    obtain ⟨used, rfl, hused⟩ := hself ts (by simp) hts.tail e rest h
    exact ⟨.sign .plus :: used, rfl, .plus hused⟩
  · rw [Level.read?_signed hminus hplus] at h
    obtain ⟨used, rfl, hused⟩ := hread hts e rest h
    exact ⟨used, rfl, .alone rfl hused⟩

theorem SoundAt.operand {ts : List Token} (hread : SoundBelow .disjunction ts.length) :
    SoundAt .operand ts := by
  intro hts e rest h
  rcases Level.read?_operand_eq_some h with ⟨inner, rfl, hinner⟩ | ⟨t, rfl, ht⟩
  · obtain ⟨used, rfl, hused⟩ := hread inner (by simp) hts.tail e _ hinner
    exact ⟨.sign .lparen :: (used ++ [.sign .rparen]), by simp, .parens hused⟩
  · exact ⟨[t], rfl, ht⟩

/-- **What is read is derived** on every level, by induction on the number of tokens and then from
the tightest level to the loosest. -/
theorem Level.read?_sound (level : Level) (ts : List Token) : SoundAt level ts := by
  induction hlength : ts.length using Nat.strongRecOn generalizing level ts with
    | ind n ih => ?_
  have hfewer (l : Level) {us : List Token} (hus : us.length < n + 1) : SoundBelow l us.length :=
    fun vs hvs => ih vs.length (Nat.lt_of_lt_of_le hvs (Nat.le_of_lt_succ hus)) l vs rfl
  have hoperand : SoundBelow .operand (n + 1) := fun us hus => .operand (hfewer .disjunction hus)
  have hsigned : SoundBelow .signed (n + 1) :=
    fun us hus => .signed (hfewer .signed hus) (hoperand us hus)
  have hproduct : SoundBelow .product (n + 1) :=
    fun us hus => .of_joins rfl rfl (hsigned.mono hus)
  have hsum : SoundBelow .sum (n + 1) := fun us hus => .of_joins rfl rfl (hproduct.mono hus)
  have hpredicate : SoundBelow .predicate (n + 1) := fun us hus => .predicate (hsum.mono hus)
  have hnegation : SoundBelow .negation (n + 1) :=
    fun us hus => .negation (hfewer .negation hus) (hpredicate us hus)
  have hconjunction : SoundBelow .conjunction (n + 1) :=
    fun us hus => .of_joins rfl rfl (hnegation.mono hus)
  have hdisjunction : SoundBelow .disjunction (n + 1) :=
    fun us hus => .of_joins rfl rfl (hconjunction.mono hus)
  have hts : ts.length < n + 1 := hlength ▸ Nat.lt_succ_self _
  cases level with
  | disjunction => exact hdisjunction ts hts
  | conjunction => exact hconjunction ts hts
  | negation => exact hnegation ts hts
  | predicate => exact hpredicate ts hts
  | sum => exact hsum ts hts
  | product => exact hproduct ts hts
  | signed => exact hsigned ts hts
  | operand => exact hoperand ts hts

end Courier
