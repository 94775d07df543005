import Mathlib.Data.List.TakeWhile
import Courier.Proofs.Number.Integer
import Courier.Proofs.Selector.Composition

/-!
# Tokens That Are Written Out

A token can be written down: a name and a word with a fixed meaning by its letters, a string literal
in quotes with the quotes inside doubled, an integer by its decimal digits, and a sign as it is. A
text in which tokens are written with blanks between them is cut into just these tokens, whatever
blanks they are and however many.

A blank ends every token, which is what keeps a token from going on in the one behind it. All
tokens but floating-point numbers are covered.

## Main definitions

* `Token.Spells`: how a token may be written.
* `Token.Piece`: a token as it stands in a text, with the blanks behind it.

## Main results

* `Token.closes_of_isBlank`: no token goes on with a blank.
* `Token.Spells.scans`: a token that is written alone is found.
* `Token.scan_pieces`: so are tokens with blanks between them.
-/

namespace Courier

namespace Token

/-- The content of a string literal with its quotes doubled. -/
def doubled (content : List Char) : List Char :=
  content.flatMap fun c => if c = '\'' then ['\'', '\''] else [c]

/-- How a token may be written. A name is no word with a fixed meaning in any case of its ASCII
letters, and a word may be written in any case of them. -/
inductive Spells : Token → List Char → Prop
  | name {c : Char} {rest : List Char} : startsName c → rest.all continuesName →
      (∀ k : Keyword, (c :: rest).map Char.toUpper ≠ k.text.toList) →
        Spells (.name (String.ofList (c :: rest))) (c :: rest)
  | string (s : String) : Spells (.string s) ('\'' :: (doubled s.toList ++ ['\'']))
  | int {n : Int64} : 0 ≤ n.toInt → Spells (.int n) (toString n.toInt).toList
  | word {k : Keyword} {spelling : List Char} : spelling.map Char.toUpper = k.text.toList →
      Spells (.word k) spelling
  | sign (s : Sign) : Spells (.sign s) s.text.toList

/-- A token as it stands in a text, with the blanks behind it. -/
structure Piece where
  /-- The token. -/
  token : Token
  /-- The token as it is written. -/
  spelling : List Char
  /-- The blanks behind the token. -/
  gap : List Char
  spells : token.Spells spelling
  isBlank : gap.all Text.isBlank

/-- What stands in the text. -/
def Piece.text (p : Piece) : List Char := p.spelling ++ p.gap

variable {c : Char} {rest : List Char}

/-! ### Characters -/

/-- No token goes on with a blank. -/
theorem closes_of_isBlank (h : Text.isBlank c) : closes c := by
  have hmarks : ['_', '$', '\'', '.', '+', '-', '=', '>'].all (!Text.isBlank ·) := by decide
  have hne : ∀ d ∈ ['_', '$', '\'', '.', '+', '-', '=', '>'], d ≠ c := by
    rintro d hd rfl
    simpa [h] using List.all_eq_true.mp hmarks d hd
  have hname : Text.isAlphanumeric c = false := Text.isAlphanumeric_eq_false_of_isBlank h
  grind [closes, continuesName]

theorem isBlank_eq_false_of_continuesName (h : continuesName c) : Text.isBlank c = false := by
  rw [Bool.eq_false_iff]
  intro hblank
  have hfalse := continuesName_eq_false (closes_of_isBlank hblank)
  rw [h] at hfalse
  cases hfalse

theorem continuesName_of_startsName (h : startsName c) : continuesName c := by
  rw [startsName, Bool.or_assoc, Bool.or_eq_true] at h
  rw [continuesName, Text.isAlphanumeric, Bool.or_assoc, Bool.or_assoc, Bool.or_eq_true]
  exact h.imp_right fun hmark => by rw [hmark, Bool.or_true]

/-- No name starts with a character in front of the letters of ASCII, but for the dollar sign. -/
theorem startsName_eq_false_of_lt (h : c.toNat < 0x41) (hne : c ≠ '$') : startsName c = false := by
  have hline : c ≠ '_' := by
    rintro rfl
    exact absurd h (by decide)
  simp [startsName, Text.isAlphabetic_eq_false_of_lt h, hne, hline]

theorem startsName_eq_false_of_isDigit (h : c.isDigit) : startsName c = false := by
  have hbounds : 0x30 ≤ c.toNat ∧ c.toNat ≤ 0x39 := by
    simpa [Char.isDigit, UInt32.le_iff_toNat_le] using h
  refine startsName_eq_false_of_lt (by omega) ?_
  rintro rfl
  cases h

/-- The characters that signs start with. -/
def signStarts : List Char := ['(', ')', ',', '+', '-', '*', '/', '=', '<', '>']

theorem sign?_eq_none (h : c ∉ signStarts) (rest : List Char) : sign? c rest = none := by
  fun_cases sign? c rest
  case case14 => rfl
  all_goals exact absurd (by decide) h

theorem sign?_eq_none_of_startsName (h : startsName c) (rest : List Char) :
    sign? c rest = none := by
  have hnone : signStarts.all (!startsName ·) := by decide +kernel
  exact sign?_eq_none (fun hmem => by simpa [h] using List.all_eq_true.mp hnone c hmem) rest

theorem sign?_eq_none_of_isDigit (h : c.isDigit) (rest : List Char) : sign? c rest = none := by
  have hnone : signStarts.all (!·.isDigit) := by decide
  exact sign?_eq_none (fun hmem => by simpa [h] using List.all_eq_true.mp hnone c hmem) rest

theorem startsNumber_eq_false_of_startsName (h : startsName c) (rest : List Char) :
    startsNumber c rest = false := by
  have hdigit : c.isDigit = false := by
    rw [Bool.eq_false_iff]
    intro hdigit
    cases (startsName_eq_false_of_isDigit hdigit).symm.trans h
  have hpoint : c ≠ '.' := by
    rintro rfl
    cases (startsName_eq_false_of_lt (by decide) (by decide)).symm.trans h
  simp [startsNumber, hdigit, hpoint]

/-! ### One token -/

theorem scans_of_first {t : Token} (hblank : Text.isBlank c = false)
    (h : first 0 c rest = .ok (t, [])) : Scans (c :: rest) [t] :=
  .token hblank h .nil

/-- A name or a word with a fixed meaning is found by its letters. -/
theorem scans_ofName (hstart : startsName c) (hrest : rest.all continuesName) :
    Scans (c :: rest) [ofName (c :: rest)] := by
  have hquote : c ≠ '\'' := by
    rintro rfl
    cases (startsName_eq_false_of_lt (by decide) (by decide)).symm.trans hstart
  refine scans_of_first (isBlank_eq_false_of_continuesName (continuesName_of_startsName hstart)) ?_
  rw [first, sign?_eq_none_of_startsName hstart]
  simp only [if_neg hquote, startsNumber_eq_false_of_startsName hstart, if_pos hstart,
    Bool.false_eq_true, if_false, List.takeWhile_eq_self_iff.mpr (List.all_eq_true.mp hrest),
    List.dropWhile_eq_nil_iff.mpr (List.all_eq_true.mp hrest)]

/-- The content of a string literal is read back up to its closing quote. -/
theorem quoted?_doubled (content : List Char) :
    quoted? (doubled content ++ ['\'']) = some (content, []) := by
  induction content with
  | nil => rfl
  | cons c content ih =>
      by_cases hc : c = '\''
      · subst hc
        change quoted? ('\'' :: '\'' :: (doubled content ++ ['\''])) = _
        rw [quoted?, ih]
        rfl
      · have hcons : doubled (c :: content) = c :: doubled content := by
          simp [doubled, hc]
        rw [hcons, List.cons_append, quoted?, ih]
        · rfl
        · exact fun _ heq => absurd heq hc
        · exact hc

theorem ofDigits_eq_magnitude (digits : List Char) :
    Decimal.ofDigits digits = Integer.magnitude digits := by
  simp only [Decimal.ofDigits, Integer.magnitude, Nat.ofDigitChars, Nat.mul_comm]

/-- Digits alone are an integer, if it is not too large. -/
theorem number_of_isDigit (h : ∀ d ∈ c :: rest, d.isDigit)
    (hfits : Integer.magnitude (c :: rest) < 1 <<< 63) :
    number c rest = .ok (.int (Int64.ofNat (Integer.magnitude (c :: rest))), []) := by
  have hpoint : c ≠ '.' := by
    rintro rfl
    cases h '.' (.head _)
  have hrest : ∀ d ∈ rest, d.isDigit := fun d hd => h d (.tail _ hd)
  have hmantissa : mantissa c rest = (c :: rest, [], []) := by
    rw [mantissa, if_neg hpoint, List.takeWhile_eq_self_iff.mpr hrest,
      List.dropWhile_eq_nil_iff.mpr hrest]
    rfl
  rw [number, hmantissa]
  simp only [exponent, ofDigits_eq_magnitude, List.isEmpty_nil, Bool.and_self, if_true,
    if_pos hfits, dropSuffix]

/-- The digits of an integer are read back. -/
theorem scans_int {n : Int64} (h : 0 ≤ n.toInt) :
    Scans (toString n.toInt).toList [.int n] := by
  obtain ⟨hne, hdigits⟩ := Integer.isMagnitude_toDigits n.toInt.toNat
  have hvalue := Integer.magnitude_toDigits n.toInt.toNat
  rw [Integer.toList_toString_of_nonneg h]
  obtain ⟨c, rest, heq⟩ := List.exists_cons_of_ne_nil hne
  rw [heq] at hdigits hvalue ⊢
  have hdigit : c.isDigit := hdigits c (.head _)
  have hquote : c ≠ '\'' := by
    rintro rfl
    cases hdigit
  have hfits : n.toInt.toNat < 1 <<< 63 := by
    have := n.toInt_lt
    omega
  have hsame : Int64.ofNat n.toInt.toNat = n := by
    rw [← Int64.toInt_inj, Int64.toInt_ofNat_of_lt hfits, Int.toNat_of_nonneg h]
  refine scans_of_first ?_ ?_
  · exact isBlank_eq_false_of_continuesName (continuesName_of_isDigit hdigit)
  · rw [first, sign?_eq_none_of_isDigit hdigit]
    simp only [if_neg hquote, startsNumber, hdigit, Bool.true_or, if_true]
    rw [number_of_isDigit hdigits (hvalue ▸ hfits), hvalue, hsame]

/-- A word with a fixed meaning is found in any case of its letters. -/
theorem ofName_of_map_toUpper {k : Keyword} {spelling : List Char}
    (h : spelling.map Char.toUpper = k.text.toList) : ofName spelling = .word k := by
  have hfound : Keyword.ofName? spelling = some k := by
    rw [Keyword.ofName?, h]
    cases k <;> rfl
  rw [ofName, hfound]

/-- A name that is no word with a fixed meaning stands for itself. -/
theorem ofName_of_forall_ne {spelling : List Char}
    (h : ∀ k : Keyword, spelling.map Char.toUpper ≠ k.text.toList) :
    ofName spelling = .name (String.ofList spelling) := by
  have hnone : Keyword.ofName? spelling = none := by
    simpa [Keyword.ofName?] using fun k _ => (h k).symm
  rw [ofName, hnone]

/-- A word with a fixed meaning is found by its letters. -/
theorem scans_word {k : Keyword} {spelling : List Char}
    (h : spelling.map Char.toUpper = k.text.toList) : Scans spelling [.word k] := by
  have hupper : k.text.toList.all Char.isUpper := by cases k <;> decide
  have hletters : ∀ d ∈ spelling, Text.isAlphabetic d := fun d hd =>
    Text.isAlphabetic_of_isUpper_toUpper
      (List.all_eq_true.mp hupper _ (h ▸ List.mem_map_of_mem hd))
  have hstarts : ∀ d ∈ spelling, startsName d := fun d hd => by simp [startsName, hletters d hd]
  cases spelling with
  | nil => cases k <;> cases h
  | cons c rest =>
      rw [← ofName_of_map_toUpper h]
      exact scans_ofName (hstarts c (.head _)) (List.all_eq_true.mpr fun d hd =>
        continuesName_of_startsName (hstarts d (.tail _ hd)))

/-- **A token that is written alone is found.** -/
theorem Spells.scans {t : Token} {spelling : List Char} (h : t.Spells spelling) :
    Scans spelling [t] := by
  cases h with
  | name hstart hrest hword => exact ofName_of_forall_ne hword ▸ scans_ofName hstart hrest
  | string s =>
      refine scans_of_first rfl ?_
      rw [first, sign?_eq_none (by decide)]
      simp only [if_true, quoted?_doubled, String.ofList_toList]
  | int hn => exact scans_int hn
  | word hk => exact scans_word hk
  | sign s => cases s <;> exact scans_of_first rfl rfl

/-! ### Tokens with blanks between them -/

/-- Blanks in front of a text are passed over. -/
theorem Scans.behind_blanks {gap text : List Char} {ts : List Token}
    (hgap : gap.all Text.isBlank) (h : Scans text ts) : Scans (gap ++ text) ts := by
  induction gap with
  | nil => exact h
  | cons c gap ih =>
      rw [List.all_cons, Bool.and_eq_true] at hgap
      exact .blank hgap.1 (ih hgap.2)

/-- Tokens are found if there are blanks behind each of them but the last one. -/
theorem scans_pieces {pieces : List Piece} (hgaps : ∀ p ∈ pieces.dropLast, p.gap ≠ []) :
    Scans (pieces.flatMap Piece.text) (pieces.map Piece.token) := by
  induction pieces with
  | nil => exact .nil
  | cons p pieces ih =>
      have hrest : Scans (pieces.flatMap Piece.text) (pieces.map Piece.token) := by
        refine ih fun other hother => hgaps other ?_
        cases pieces with
        | nil => cases hother
        | cons => exact .tail _ hother
      -- what is behind the token starts with a blank, or there is nothing
      have hclosed : Closed (p.gap ++ pieces.flatMap Piece.text) := by
        cases hgap : p.gap with
        | cons c gap =>
            have hblank := List.all_eq_true.mp p.isBlank c (by simp [hgap])
            exact closed_cons.mpr (closes_of_isBlank hblank)
        | nil =>
            cases pieces with
            | nil => exact closed_nil
            | cons => exact absurd hgap (hgaps p (.head _))
      have h := p.spells.scans.append hclosed (.behind_blanks p.isBlank hrest)
      rw [List.flatMap_cons, Piece.text, List.append_assoc]
      exact h

/-- **Tokens are read as they were written.** A text that starts with any blanks, or none, and goes
on with tokens that are written out, with blanks behind each of them but the last one, and behind
that one or not, is cut into these tokens. -/
theorem scan_pieces {start : List Char} {pieces : List Piece}
    (hstart : start.all Text.isBlank) (hgaps : ∀ p ∈ pieces.dropLast, p.gap ≠ []) :
    scan (start ++ pieces.flatMap Piece.text) = .ok (pieces.map Piece.token) :=
  scan_eq_ok_iff.mpr (.behind_blanks hstart (scans_pieces hgaps))

/-- A condition on parcels as it stands in a text: with a letter beyond ASCII and a digit in a name,
quotes inside a literal and at its end, a word in mixed case, and several kinds of blanks. -/
def inspection : List Piece :=
  [⟨.name (String.ofList ['m', 'a', 'ß', '2']), ['m', 'a', 'ß', '2'], [' '],
      .name (by decide +kernel) (by decide +kernel) (by rintro ⟨⟩ <;> decide), by decide⟩,
    ⟨.sign .ge, Sign.ge.text.toList, ['\t', ' '], .sign .ge, by decide⟩,
    ⟨.int 10, (toString (10 : Int64).toInt).toList, ['\u00a0'], .int (by decide), by decide⟩,
    ⟨.word .and, ['a', 'N', 'd'], [' ', '\n'], .word (by decide), by decide⟩,
    ⟨.string "it's '", '\'' :: (doubled "it's '".toList ++ ['\'']), [' '], .string _, by decide⟩,
    ⟨.sign .ne, Sign.ne.text.toList, [' '], .sign .ne, by decide⟩,
    ⟨.name (String.ofList ['$']), ['$'], [],
      .name (by decide +kernel) (by decide +kernel) (by rintro ⟨⟩ <;> decide), by decide⟩]

theorem scan_pieces_inspection :
    ['\n', ' '].all Text.isBlank ∧ (∀ p ∈ inspection.dropLast, p.gap ≠ []) ∧
      scan "\n maß2 >=\t 10\u00a0aNd \n'it''s ''' <> $".toList =
        .ok [.name "maß2", .sign .ge, .int 10, .word .and, .string "it's '", .sign .ne,
          .name "$"] := by
  have hblanks : ['\n', ' '].all Text.isBlank := by decide
  have hgaps : ∀ p ∈ inspection.dropLast, p.gap ≠ [] := by decide
  have htext : "\n maß2 >=\t 10\u00a0aNd \n'it''s ''' <> $".toList =
      ['\n', ' '] ++ inspection.flatMap Piece.text := by decide +kernel
  refine ⟨hblanks, hgaps, ?_⟩
  rw [htext]
  exact scan_pieces hblanks hgaps

end Token

end Courier
