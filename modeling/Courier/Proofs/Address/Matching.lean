import Mathlib.Data.List.Forall2
import Courier.Address
import Courier.Proofs.Glob
import Courier.Proofs.Glob.Sweep

/-!
# Addresses That a Pattern Matches

A text reads as words in one way only: they hold no delimiter, and joined by delimiters they give
the text. A pattern is read word by word, and a word stands for a wildcard exactly when it is that
wildcard's character and wildcards have a meaning. The matcher decides whether the segments of the
pattern match the words of the address, as the relation `Glob.Matches` has it. Without wildcards it
decides whether the two texts are the same.

## Main definitions

* `Wildcards.Splits`: some words are the words of a text.
* `Wildcards.StandsFor`, `Wildcards.Reads`: what a word of a pattern and a pattern stand for.
* `Wildcards.Decides`: what the matcher is to decide for a pattern and an address.

## Main results

* `Wildcards.words_eq_iff`, `Wildcards.segments_eq_iff`: the words of a text and the segments of a
  pattern, each as the only ones.
* `Wildcards.matches_decides`: the matcher decides the relation.
-/

namespace Courier.Wildcards

variable {w : Wildcards} {text word : String} {segment : Segment}

/-- Some words, at least one, are those between the delimiters of a text. -/
structure Splits (w : Wildcards) (text : String) (words : List String) : Prop where
  ne_nil : words ≠ []
  delimiter_notMem : ∀ word ∈ words, w.delimiter ∉ word.toList
  join_eq : [w.delimiter].intercalate (words.map String.toList) = text.toList

/-- What a word of a pattern stands for. The wildcard for runs of words comes first, should both
wildcards be one character. -/
inductive StandsFor (w : Wildcards) : String → Segment → Prop where
  /-- The wildcard for any run of words. -/
  | run {word : String} : w.enabled = true → word.toList = [w.anyWords] → StandsFor w word .run
  /-- The wildcard for any one word. -/
  | single {word : String} : w.enabled = true → word.toList = [w.singleWord] →
      w.singleWord ≠ w.anyWords → StandsFor w word .single
  /-- Any other word is itself. -/
  | literal {word : String} :
      ¬ (w.enabled = true ∧ (word.toList = [w.anyWords] ∨ word.toList = [w.singleWord])) →
      StandsFor w word (.literal word)

/-- Some segments are what the words of a text stand for, one by one. -/
def Reads (w : Wildcards) (text : String) (segments : List Segment) : Prop :=
  ∃ words, w.Splits text words ∧ List.Forall₂ w.StandsFor words segments

/-! ### The words of a text -/

theorem notMem_of_mem_splitOn {delimiter : Char} {chars piece : List Char}
    (h : piece ∈ chars.splitOn delimiter) : delimiter ∉ piece := by
  induction chars generalizing piece with
  | nil =>
      obtain rfl := List.mem_singleton.mp (List.splitOn_nil delimiter ▸ h)
      exact List.not_mem_nil
  | cons c chars ih =>
      rw [List.splitOn_cons_eq_if_modifyHead] at h
      split at h
      · rcases List.mem_cons.mp h with rfl | hrest
        · exact List.not_mem_nil
        · exact ih hrest
      · next hne =>
          obtain ⟨first, rest, hsplit⟩ :=
            List.exists_cons_of_ne_nil (List.splitOn_ne_nil delimiter chars)
          rw [hsplit, List.modifyHead_cons] at h
          rcases List.mem_cons.mp h with rfl | hrest
          · have hfirst : delimiter ∉ first := ih (hsplit ▸ .head _)
            have hc : delimiter ≠ c := fun heq => hne (beq_iff_eq.mpr heq.symm)
            exact fun hmem => (List.mem_cons.mp hmem).elim hc hfirst
          · exact ih (hsplit ▸ hrest.tail _)

/-- **A text splits into its words**, and into no others. -/
theorem words_eq_iff {words : List String} : w.words text = words ↔ w.Splits text words := by
  have hlist : ∀ pieces : List (List Char),
      (pieces.map String.ofList).map String.toList = pieces := fun pieces => by simp
  constructor
  · rintro rfl
    refine ⟨?_, ?_, ?_⟩
    · rw [Wildcards.words, Ne, List.map_eq_nil_iff]
      exact List.splitOn_ne_nil w.delimiter text.toList
    · intro word hword
      obtain ⟨piece, hpiece, rfl⟩ := List.mem_map.mp hword
      rw [String.toList_ofList]
      exact notMem_of_mem_splitOn hpiece
    · rw [Wildcards.words, hlist, List.intercalate_splitOn]
  · intro h
    have hpieces : ∀ piece ∈ words.map String.toList, w.delimiter ∉ piece := by
      intro piece hpiece
      obtain ⟨word, hword, rfl⟩ := List.mem_map.mp hpiece
      exact h.delimiter_notMem word hword
    rw [Wildcards.words, ← h.join_eq,
      List.splitOn_intercalate _ hpieces (by simpa using h.ne_nil)]
    simp

/-! ### The segments of a pattern -/

theorem segment_eq_iff : w.segment word = segment ↔ w.StandsFor word segment := by
  constructor
  · rintro rfl
    rw [Wildcards.segment]
    split
    · next henabled =>
        split
        · next hany => exact .run henabled hany
        · next hany =>
            split
            · next hsingle =>
                exact .single henabled hsingle fun h => hany (h ▸ hsingle)
            · next hsingle => exact .literal fun h => h.2.elim hany hsingle
    · next hdisabled => exact .literal fun h => hdisabled h.1
  · intro h
    cases h with
    | run henabled hany => rw [Wildcards.segment, if_pos henabled, if_pos hany]
    | single henabled hsingle hne =>
        rw [Wildcards.segment, if_pos henabled, if_neg (by simpa [hsingle] using hne),
          if_pos hsingle]
    | literal hother =>
        rw [Wildcards.segment]
        split
        · next henabled =>
            rw [if_neg fun h => hother ⟨henabled, .inl h⟩,
              if_neg fun h => hother ⟨henabled, .inr h⟩]
        · rfl

/-- **A pattern reads as its segments**, and as no others. -/
theorem segments_eq_iff {segments : List Segment} :
    w.segments text = segments ↔ w.Reads text segments := by
  have hword : ∀ words : List String,
      words.map w.segment = segments ↔ List.Forall₂ w.StandsFor words segments := fun words => by
    rw [← List.forall₂_eq_eq_eq, List.forall₂_map_left_iff]
    simp only [segment_eq_iff]
  constructor
  · intro h
    exact ⟨w.words text, words_eq_iff.mp rfl, (hword _).mp h⟩
  · rintro ⟨words, hsplits, hsegments⟩
    obtain rfl := words_eq_iff.mpr hsplits
    exact (hword _).mpr hsegments

/-! ### The matcher -/

/-- What the matcher is to decide for a pattern and an address. -/
structure Decides (w : Wildcards) (pattern address : String) : Prop where
  /-- The words of the address are the only ones it splits into. -/
  words_eq_iff : ∀ words, w.words address = words ↔ w.Splits address words
  /-- The segments of the pattern are the only ones it reads as. -/
  segments_eq_iff : ∀ segments, w.segments pattern = segments ↔ w.Reads pattern segments
  /-- With wildcards, the segments are to match the words. -/
  matches_of_enabled : w.enabled = true →
    (w.matches pattern address = true ↔ Glob.Matches (w.segments pattern) (w.words address))
  /-- A sweep over the positions between the words comes to the same answer. -/
  sweep_of_enabled : w.enabled = true →
    w.matches pattern address = Glob.sweep (w.words address) (w.segments pattern)
      (true :: List.replicate (w.words address).length false)
  /-- Without wildcards, the two texts are to be equal. -/
  matches_of_disabled : w.enabled = false → (w.matches pattern address = true ↔ pattern = address)

/-- **The matcher decides whether a pattern matches an address.** -/
theorem matches_decides (w : Wildcards) (pattern address : String) :
    w.Decides pattern address where
  words_eq_iff _ := Wildcards.words_eq_iff
  segments_eq_iff _ := Wildcards.segments_eq_iff
  matches_of_enabled henabled := by
    rw [«matches», if_pos henabled, Glob.matches_iff]
  sweep_of_enabled henabled := by
    rw [«matches», if_pos henabled, Glob.matches_eq_sweep]
  matches_of_disabled hdisabled := by
    rw [«matches», hdisabled, if_neg Bool.false_ne_true, decide_eq_true_iff]

end Courier.Wildcards
