import Courier.Proofs.Selector.Completeness
import Courier.Proofs.Text.Classes

/-!
# Selectors Within Selectors

A selector in parentheses may be made part of a longer one. Two things could go wrong with that:
its last token could swallow what was put after it, or the reader could carry on past it. A token
takes as many characters as it can, but there are characters that no token goes on with, and a
closing parenthesis is one of them. So the tokens of the longer text are those of its parts, and
the grammar says what they mean.

## Main definitions

* `Token.closes`, `Token.Closed`: characters that end the token before them, whatever it is.
* `Token.Scans`: the tokens of a text, without a word about positions.

## Main results

* `Token.first_append`, `Token.Scans.append`: a token, and all tokens, in front of a closed text.
* `Token.scan_eq_ok_iff`: `Token.scan` finds the tokens of a text.
* `Expr.parse_inParens`: conjunctions, disjunctions and negations of texts.
-/

namespace Courier

variable {α : Type}

namespace Token

/-! ### Where every token ends -/

/-- Whether every token ends before a character: no name and no number goes on with it, it doubles
no quote, and it makes no other sign of the sign before it. -/
def closes (c : Char) : Bool :=
  !continuesName c && ['\'', '.', '+', '-', '=', '>'].all (· ≠ c)

/-- A text that no token in front of it goes on with. -/
def Closed (tail : List Char) : Prop := ∀ c ∈ tail.head?, closes c

theorem closed_nil : Closed [] := fun _ h => by cases h

theorem closed_cons {c : Char} {tail : List Char} : Closed (c :: tail) ↔ closes c := by
  simp [Closed]

theorem ne_of_closes {c d : Char} (h : closes c) (hd : closes d = false) : c ≠ d := by
  rintro rfl
  simp [h] at hd

theorem continuesName_eq_false {c : Char} (h : closes c) : continuesName c = false := by
  rw [closes, Bool.and_eq_true, Bool.not_eq_true'] at h
  exact h.1

theorem continuesName_of_isDigit {c : Char} (h : c.isDigit) : continuesName c := by
  have hbounds : 0x30 ≤ c.toNat ∧ c.toNat ≤ 0x39 := by
    simpa [Char.isDigit, UInt32.le_iff_toNat_le] using h
  have hnumeric : Text.inRanges CodeRanges.numeric c.toNat :=
    Text.inRanges_cons_of_le hbounds.1 hbounds.2
  simp [continuesName, Text.isAlphanumeric, hnumeric]

theorem isDigit_eq_false {c : Char} (h : closes c) : c.isDigit = false := by
  rw [Bool.eq_false_iff]
  intro hdigit
  have hfalse := continuesName_eq_false h
  simp [continuesName_of_isDigit hdigit] at hfalse

/-- What was read of a text, with a tail behind what is left. -/
def before (tail : List Char) (read : α × List Char) : α × List Char :=
  (read.1, read.2 ++ tail)

section Append

variable {tail : List Char}

/-- What has to stop at a closed text stops there. -/
theorem Closed.takeWhile_append {p : Char → Bool} (h : Closed tail)
    (hp : ∀ c, closes c → p c = false) (text : List Char) :
    (text ++ tail).takeWhile p = text.takeWhile p := by
  induction text with
  | nil =>
      cases tail with
      | nil => rfl
      | cons c tail => simp [hp c (closed_cons.mp h)]
  | cons c text ih =>
      rw [List.cons_append, List.takeWhile_cons, List.takeWhile_cons, ih]

theorem Closed.dropWhile_append {p : Char → Bool} (h : Closed tail)
    (hp : ∀ c, closes c → p c = false) (text : List Char) :
    (text ++ tail).dropWhile p = text.dropWhile p ++ tail := by
  induction text with
  | nil =>
      cases tail with
      | nil => rfl
      | cons c tail => simp [hp c (closed_cons.mp h)]
  | cons c text ih =>
      rw [List.cons_append, List.dropWhile_cons, List.dropWhile_cons, ih]
      split <;> rfl

theorem Closed.takeWhile_isDigit (h : Closed tail) (text : List Char) :
    (text ++ tail).takeWhile Char.isDigit = text.takeWhile Char.isDigit :=
  h.takeWhile_append (fun _ => isDigit_eq_false) text

theorem Closed.dropWhile_isDigit (h : Closed tail) (text : List Char) :
    (text ++ tail).dropWhile Char.isDigit = text.dropWhile Char.isDigit ++ tail :=
  h.dropWhile_append (fun _ => isDigit_eq_false) text

/-- A closed text starts with no other character. -/
theorem Closed.ne_cons (h : Closed tail) {c : Char} (hc : closes c = false) (rest : List Char) :
    tail ≠ c :: rest := by
  rintro rfl
  simp [closed_cons.mp h] at hc

/-- A text in front of a closed one starts with another character only if it did so alone. -/
theorem Closed.not_append_eq_cons (h : Closed tail) {c : Char} (hc : closes c = false)
    {text : List Char} (htext : ∀ rest, text = c :: rest → False) (rest : List Char) :
    text ++ tail = c :: rest → False := by
  intro heq
  cases text with
  | nil => exact h.ne_cons hc rest heq
  | cons d text => exact htext text (by rw [(List.cons.inj heq).1])

theorem quoted?_append {text : List Char} {read : List Char × List Char} (h : Closed tail)
    (hread : quoted? text = some read) : quoted? (text ++ tail) = some (before tail read) := by
  fun_induction quoted? text generalizing read with
  | case1 => cases hread
  | case2 text ih =>
      obtain ⟨read, hquoted, rfl⟩ := Option.map_eq_some_iff.mp hread
      simp [quoted?, ih hquoted, before]
  | case3 text hsingle =>
      cases hread
      rw [List.cons_append, quoted?]
      · rfl
      · exact h.not_append_eq_cons (by decide) hsingle
  | case4 c text hpair hquote ih =>
      obtain ⟨read, hquoted, rfl⟩ := Option.map_eq_some_iff.mp hread
      rw [List.cons_append, quoted?, ih hquoted]
      · rfl
      · exact fun _ hc => absurd hc hquote
      · exact hquote

theorem fraction_append (h : Closed tail) (text : List Char) :
    fraction (text ++ tail) = before tail (fraction text) := by
  fun_cases fraction text with
  | case1 rest =>
      rw [List.cons_append, fraction, h.takeWhile_isDigit, h.dropWhile_isDigit]
      rfl
  | case2 _ hpoint =>
      rw [fraction]
      · rfl
      · exact h.not_append_eq_cons (by decide) hpoint

theorem exponentSign_append (h : Closed tail) (text : List Char) :
    exponentSign (text ++ tail) = before tail (exponentSign text) := by
  fun_cases exponentSign text with
  | case1 digits => rfl
  | case2 digits => rfl
  | case3 _ hplus hminus =>
      rw [exponentSign]
      · rfl
      · exact h.not_append_eq_cons (by decide) hplus
      · exact h.not_append_eq_cons (by decide) hminus

theorem exponent_append (h : Closed tail) (text : List Char) :
    exponent (text ++ tail) = before tail (exponent text) := by
  cases text with
  | nil =>
      cases tail with
      | nil => rfl
      | cons c tail =>
          have hc := closed_cons.mp h
          have hmark : ¬(c = 'e' ∨ c = 'E') :=
            not_or.mpr ⟨ne_of_closes hc (by decide), ne_of_closes hc (by decide)⟩
          simp [exponent, hmark, before]
  | cons c text =>
      rw [List.cons_append, exponent, exponent, exponentSign_append h]
      simp only [before, h.takeWhile_isDigit, h.dropWhile_isDigit]
      split <;> rfl

theorem dropSuffix_append {letters : List Char} (h : Closed tail)
    (hletters : ∀ c ∈ letters, closes c = false) (text : List Char) :
    dropSuffix letters (text ++ tail) = dropSuffix letters text ++ tail := by
  cases text with
  | nil =>
      cases tail with
      | nil => rfl
      | cons c tail =>
          have hc : c ∉ letters := fun hmem => ne_of_closes (closed_cons.mp h) (hletters c hmem) rfl
          exact if_neg hc
  | cons c text =>
      rw [List.cons_append, dropSuffix, dropSuffix]
      split <;> rfl

theorem mantissa_append (h : Closed tail) (c : Char) (text : List Char) :
    mantissa c (text ++ tail) =
      ((mantissa c text).1, before tail (mantissa c text).2) := by
  rw [mantissa, mantissa, h.takeWhile_isDigit, h.dropWhile_isDigit, fraction_append h]
  split <;> rfl

theorem number_append (h : Closed tail) (c : Char) (text : List Char) :
    number c (text ++ tail) = (number c text).map (before tail) := by
  have hlong : ∀ c ∈ ['l', 'L'], closes c = false := by
    simp only [List.forall_mem_cons]
    exact ⟨rfl, rfl, nofun⟩
  have hdouble : ∀ c ∈ ['d', 'D', 'f', 'F'], closes c = false := by
    simp only [List.forall_mem_cons]
    exact ⟨rfl, rfl, rfl, rfl, nofun⟩
  rw [number, number, mantissa_append h]
  simp only [before, exponent_append h]
  split
  · split
    · rw [dropSuffix_append h hlong]
      rfl
    · rfl
  · rw [dropSuffix_append h hdouble]
    rfl

theorem sign?_append (h : Closed tail) (c : Char) (text : List Char) :
    sign? c (text ++ tail) = (sign? c text).map (before tail) := by
  fun_cases sign? c text
  case case11 hgt heq =>
    rw [sign?]
    · rfl
    · exact h.not_append_eq_cons (by decide) hgt
    · exact h.not_append_eq_cons (by decide) heq
  case case13 heq =>
    rw [sign?]
    · rfl
    · exact h.not_append_eq_cons (by decide) heq
  case case14 => simp_all [sign?]
  all_goals rfl

theorem startsNumber_append (h : Closed tail) (c : Char) (text : List Char) :
    startsNumber c (text ++ tail) = startsNumber c text := by
  cases text with
  | nil =>
      cases tail with
      | nil => rfl
      | cons d tail => simp [startsNumber, isDigit_eq_false (closed_cons.mp h)]
  | cons d text => rfl

/-- **A token is the same in front of a closed text**, wherever it stands. -/
theorem first_append {c : Char} {text : List Char} {read : Token × List Char} (h : Closed tail)
    {position : Nat} (hread : first position c text = .ok read) (position' : Nat) :
    first position' c (text ++ tail) = .ok (before tail read) := by
  rw [first, sign?_append h]
  rw [first] at hread
  cases hsign : sign? c text with
  | some s =>
      rw [hsign] at hread
      cases hread
      rfl
  | none =>
      rw [hsign] at hread
      simp only [Option.map_none, startsNumber_append h] at hread ⊢
      split at hread
      · next hquote =>
          rw [if_pos hquote]
          split at hread
          · next hquoted =>
              cases hread
              rw [quoted?_append h hquoted]
              rfl
          · cases hread
      · next hquote =>
          rw [if_neg hquote]
          split at hread
          · next hnumber =>
              rw [if_pos hnumber, number_append h, hread]
              rfl
          · next hnumber =>
              rw [if_neg hnumber]
              split at hread
              · next hname =>
                  cases hread
                  rw [if_pos hname, h.takeWhile_append (fun _ => continuesName_eq_false),
                    h.dropWhile_append (fun _ => continuesName_eq_false)]
                  rfl
              · cases hread

end Append

/-! ### The tokens of a text -/

/-- The tokens of a text: blanks are passed over, and a token leaves the rest of the text to the
ones after it. -/
inductive Scans : List Char → List Token → Prop
  | nil : Scans [] []
  | blank {c : Char} {text : List Char} {ts : List Token} : Text.isBlank c →
      Scans text ts → Scans (c :: text) ts
  | token {n : Nat} {c : Char} {text after : List Char} {t : Token} {ts : List Token} :
      Text.isBlank c = false → first n c text = .ok (t, after) → Scans after ts →
        Scans (c :: text) (t :: ts)

theorem scans_of_scanFrom {length : Nat} {text : List Char} {ts : List Token}
    (h : scanFrom length text = .ok ts) : Scans text ts := by
  fun_induction scanFrom length text generalizing ts with
  | case1 =>
      cases h
      exact .nil
  | case2 c text hblank ih => exact .blank hblank (ih h)
  | case3 => cases h
  | case4 => cases h
  | case5 c text hblank t after hfirst ts' hscan ih =>
      cases h
      exact .token (by simpa using hblank) hfirst (ih hscan)

/-- Positions matter to the report of an error only. -/
theorem first_eq_ok_of {position : Nat} {c : Char} {text : List Char} {read : Token × List Char}
    (h : first position c text = .ok read) (position' : Nat) :
    first position' c text = .ok read := by
  have happend := first_append closed_nil h position'
  simpa [before] using happend

theorem Scans.scanFrom_eq {text : List Char} {ts : List Token} (h : Scans text ts)
    (length : Nat) : scanFrom length text = .ok ts := by
  induction h with
  | nil => rw [scanFrom]
  | blank hblank _ ih => rw [scanFrom, if_pos hblank, ih]
  | @token _ _ text _ _ _ hblank hfirst _ ih =>
      have hfirst' := first_eq_ok_of hfirst (length - (text.length + 1))
      rw [scanFrom, if_neg (by simp [hblank])]
      split
      · next herror => simp [hfirst'] at herror
      · next t' after' hok =>
          obtain ⟨rfl, rfl⟩ : _ = t' ∧ _ = after' := by simpa [hfirst'] using hok
          rw [ih]

/-- **The tokens of a text are found**, and nothing else is. -/
theorem scan_eq_ok_iff {text : List Char} {ts : List Token} :
    scan text = .ok ts ↔ Scans text ts :=
  ⟨scans_of_scanFrom, fun h => h.scanFrom_eq _⟩

namespace Scans

variable {text tail : List Char} {ts us : List Token}

/-- **The tokens of a text in front of a closed one** are its own tokens and those of the other. -/
theorem append (h : Scans text ts) (hclosed : Closed tail) (htail : Scans tail us) :
    Scans (text ++ tail) (ts ++ us) := by
  induction h with
  | nil => exact htail
  | blank hblank _ ih => exact .blank hblank ih
  | token hblank hfirst _ ih => exact .token hblank (first_append hclosed hfirst 0) ih

/-- A text in parentheses. -/
theorem inParens (h : Scans text ts) (htail : Scans tail us) :
    Scans ('(' :: (text ++ ')' :: tail)) (.sign .lparen :: (ts ++ .sign .rparen :: us)) := by
  have hclosing : Scans (')' :: tail) (.sign .rparen :: us) :=
    .token (n := 0) rfl rfl htail
  exact .token (n := 0) rfl rfl (h.append (closed_cons.mpr (by decide)) hclosing)

/-- A word with a fixed meaning in front of a blank. -/
theorem word (k : Keyword) (h : Scans tail us) :
    Scans (k.text.toList ++ ' ' :: tail) (.word k :: us) := by
  have hword : Scans k.text.toList [.word k] := by
    cases k <;> exact .token (n := 0) rfl rfl .nil
  exact hword.append (closed_cons.mpr (by decide)) (.blank rfl h)

/-- A word with blanks around it. -/
theorem spaced (k : Keyword) (h : Scans tail us) :
    Scans (' ' :: (k.text.toList ++ ' ' :: tail)) (.word k :: us) :=
  .blank rfl (h.word k)

end Scans

end Token

namespace Expr

open Token

/-- What tokens in parentheses mean, on every level. -/
theorem derives_inParens {ts : List Token} {e : Expr} (h : Derives .disjunction ts e)
    (level : Level) : Derives level (.sign .lparen :: (ts ++ [.sign .rparen])) e := by
  have hoperand : Derives .operand (.sign .lparen :: (ts ++ [.sign .rparen])) e := .parens h
  have hsigned : Derives .signed _ e := .alone rfl hoperand
  have hproduct : Derives .product _ e := .alone rfl hsigned
  have hsum : Derives .sum _ e := .alone rfl hproduct
  have hpredicate : Derives .predicate _ e := .alone rfl hsum
  have hnegation : Derives .negation _ e := .alone rfl hpredicate
  have hconjunction : Derives .conjunction _ e := .alone rfl hnegation
  have hdisjunction : Derives .disjunction _ e := .alone rfl hconjunction
  cases level <;> assumption

/-- The tokens of two texts in parentheses with a word between them. -/
theorem scans_joined {left joint right : String} {ts us : List Token} {k : Keyword}
    (hjoint : joint.toList = ')' :: ' ' :: (k.text.toList ++ [' ', '(']))
    (hleft : Scans left.toList ts) (hright : Scans right.toList us) :
    Scans ("(" ++ left ++ joint ++ right ++ ")").toList
      ((.sign .lparen :: (ts ++ [.sign .rparen])) ++
        .word k :: .sign .lparen :: (us ++ [.sign .rparen])) := by
  have hopening : "(".toList = ['('] := rfl
  have hclosing : ")".toList = [')'] := rfl
  have h := hleft.inParens ((hright.inParens .nil).spaced k)
  simpa only [String.toList_append, hopening, hjoint, hclosing, List.append_assoc,
    List.cons_append, List.nil_append] using h

/-- The tokens of a negated text in parentheses. -/
theorem scans_negated {text : String} {ts : List Token} (h : Scans text.toList ts) :
    Scans ("NOT (" ++ text ++ ")").toList
      (.word .not :: .sign .lparen :: (ts ++ [.sign .rparen])) := by
  have hopening : "NOT (".toList = ['N', 'O', 'T', ' ', '('] := rfl
  have hclosing : ")".toList = [')'] := rfl
  rw [String.toList_append, String.toList_append, hopening, hclosing, List.append_assoc]
  exact (h.inParens .nil).word .not

/-- **Parsing is compositional.** Of texts that are expressions, the conjunction, the disjunction
and the negation can be written with the texts in parentheses. -/
theorem parse_inParens {left right : String} {e₁ e₂ : Expr} (hleft : parse left = .ok e₁)
    (hright : parse right = .ok e₂) :
    parse ("(" ++ left ++ ") AND (" ++ right ++ ")") = .ok (.and e₁ e₂) ∧
      parse ("(" ++ left ++ ") OR (" ++ right ++ ")") = .ok (.or e₁ e₂) ∧
        parse ("NOT (" ++ left ++ ")") = .ok (.not e₁) := by
  obtain ⟨ts, hts, hleft⟩ := parse_eq_ok_iff.mp hleft
  obtain ⟨us, hus, hright⟩ := parse_eq_ok_iff.mp hright
  rw [scan_eq_ok_iff] at hts hus
  refine ⟨?and, ?or, ?not⟩
  case and =>
    have hjoint : ") AND (".toList = ')' :: ' ' :: (Keyword.and.text.toList ++ [' ', '(']) := rfl
    have hscan := scans_joined hjoint hts hus
    have hmeaning := Derives.join (t := .word .and) rfl rfl
      (derives_inParens hleft .conjunction) (derives_inParens hright .negation)
    exact parse_eq_ok_iff.mpr ⟨_, scan_eq_ok_iff.mpr hscan, .alone rfl hmeaning⟩
  case or =>
    have hjoint : ") OR (".toList = ')' :: ' ' :: (Keyword.or.text.toList ++ [' ', '(']) := rfl
    have hscan := scans_joined hjoint hts hus
    have hmeaning := Derives.join (t := .word .or) rfl rfl
      (derives_inParens hleft .disjunction) (derives_inParens hright .conjunction)
    exact parse_eq_ok_iff.mpr ⟨_, scan_eq_ok_iff.mpr hscan, hmeaning⟩
  case not =>
    have hmeaning := Derives.not (derives_inParens hleft .negation)
    exact parse_eq_ok_iff.mpr
      ⟨_, scan_eq_ok_iff.mpr (scans_negated hts), .alone rfl (.alone rfl hmeaning)⟩

/-- A parenthesis in a literal opens nothing, a doubled quote ends nothing, and a number keeps its
exponent and its suffix. -/
theorem parse_inParens_parcels :
    parse "label <> 'it''s (here'" = .ok (.compare .ne (.name "label")
        (.literal (.string "it's (here"))) ∧
      parse "weight < 2.5e1D" = .ok (.compare .lt (.name "weight") (.literal (.float 25.0))) ∧
        parse "(label <> 'it''s (here') AND (weight < 2.5e1D)" = .ok (.and
          (.compare .ne (.name "label") (.literal (.string "it's (here")))
          (.compare .lt (.name "weight") (.literal (.float 25.0)))) := by
  have hlabel : parse "label <> 'it''s (here'" = .ok (.compare .ne (.name "label")
      (.literal (.string "it's (here"))) := eq_ok_of_toOption (by decide +kernel)
  have hweight : parse "weight < 2.5e1D" =
      .ok (.compare .lt (.name "weight") (.literal (.float 25.0))) :=
    eq_ok_of_toOption (by decide +kernel)
  exact ⟨hlabel, hweight, (parse_inParens hlabel hweight).1⟩

end Expr

end Courier
