import Courier.Proofs.Address.History
import Courier.Proofs.Settings

/-!
# Entries for One Address

An entry whose pattern is an address without wildcards is the most specific one that the address
can have. A pattern takes one word for each of its literal words, so one that matches has at most
as many of them as the address has words. If it has as many, then its single-word wildcards, of
which there are none, and its runs, which take nothing, only make it less specific.

## Main results

* `Specificity.literals_ofSegments_le`: what matches has no more literal words than there are
  words.
* `Specificity.rank_ofSegments_lt`: what matches is less specific than the words themselves.
* `SettingsRepository.lookup_of_exact`: the last entry for an address has the last word.
-/

namespace Courier

namespace Specificity

variable {segments : List Segment} {words : List String}

theorem ofSegments_literals (words : List String) :
    ofSegments (words.map .literal) = ⟨words.length, 0, 0⟩ := by
  simp [ofSegments, List.countP_map, Function.comp_def]

/-- A pattern without wildcards has literal words only. -/
theorem exists_literals_of_ofSegments (hruns : (ofSegments segments).runs = 0)
    (hsingles : (ofSegments segments).singles = 0) :
    ∃ words : List String, segments = words.map .literal := by
  induction segments with
  | nil => exact ⟨[], rfl⟩
  | cons segment segments ih =>
      cases segment with
      | literal word =>
          obtain ⟨words, rfl⟩ := ih hruns hsingles
          exact ⟨word :: words, rfl⟩
      | single => simp [ofSegments] at hsingles
      | run => simp [ofSegments] at hruns

/-- **Each literal word of a pattern takes a word**, and wildcards take none from it. -/
theorem literals_ofSegments_le (h : Glob.Matches segments words) :
    (ofSegments segments).literals ≤ words.length := by
  induction h with
  | nil => exact le_refl 0
  | literal _ ih => simpa [ofSegments] using ih
  | single _ ih => exact Nat.le_succ_of_le (by simpa [ofSegments] using ih)
  | run taken _ ih =>
      rw [List.length_append]
      exact Nat.le_add_left_of_le (by simpa [ofSegments] using ih)

/-- **A pattern that matches some words is less specific than these words**, unless it is made of
them. -/
theorem rank_ofSegments_lt (h : Glob.Matches segments words)
    (hne : segments ≠ words.map .literal) :
    (ofSegments segments).rank < (ofSegments (words.map .literal)).rank := by
  have hliterals := literals_ofSegments_le h
  have hwild : (ofSegments segments).runs ≠ 0 ∨ (ofSegments segments).singles ≠ 0 := by
    by_contra hnone
    rw [not_or, not_not, not_not] at hnone
    obtain ⟨others, rfl⟩ := exists_literals_of_ofSegments hnone.1 hnone.2
    exact hne (congrArg _ (Glob.matches_literals.mp h).symm)
  rw [rank_lt_iff, ofSegments_literals, exceeds]
  simp only [Bool.or_eq_true, Bool.and_eq_true, decide_eq_true_iff]
  omega

end Specificity

/-- An address without wildcards reads as its words. -/
theorem Wildcards.segments_of_not_isWildcard {w : Wildcards} {address : String}
    (h : w.isWildcard address = false) :
    w.segments address = (w.words address).map .literal := by
  refine List.map_congr_left fun word hword => ?_
  have hliteral := List.any_eq_false.mp h (w.segment word) (List.mem_map_of_mem hword)
  rw [segment] at hliteral ⊢
  grind

namespace SettingsRepository

variable {α : Type} {r : SettingsRepository} {field : SettingsField α}

/-- **The last entry for one address has the last word** on it. Whatever other patterns match an
address without wildcards, each field that the last entry with the address for its pattern sets
has the value from there. -/
theorem lookup_of_exact {before after : List SettingsEntry} {e : SettingsEntry} {v : α}
    (hentries : r.entries = before ++ e :: after)
    (hlast : ∀ f ∈ after, f.pattern ≠ e.pattern)
    (hplain : r.wildcards.isWildcard e.pattern = false) (hv : field.of e.settings = some v) :
    field.of (r.lookup e.pattern) = some v := by
  have hsegments := Wildcards.segments_of_not_isWildcard hplain
  have hplace : r.entries[before.length]? = some e := by
    rw [hentries, List.getElem?_append_right (le_refl _), Nat.sub_self, List.getElem?_cons_zero]
  have hmatches : r.wildcards.matches e.pattern e.pattern := by
    rw [Wildcards.matches_iff, hsegments, Glob.matches_literals]
  refine of_lookup_eq_some_iff.mpr ⟨(e, before.length), ⟨?_, fun f hf => ?_⟩, hv⟩
  · exact ⟨hplace, hmatches, by rw [hv, Option.isSome_some]⟩
  · by_cases hpattern : f.1.pattern = e.pattern
    · -- An entry with the same pattern is as specific and not later.
      have hle : f.2 ≤ before.length := by
        by_contra hlater
        obtain ⟨k, hk⟩ := Nat.exists_eq_add_of_lt (Nat.lt_of_not_le hlater)
        have hafter : after[k]? = some f.1 := by
          rw [← hf.getElem?_eq, hentries, hk, List.getElem?_append_right (by omega),
            Nat.add_assoc, Nat.add_sub_cancel_left, List.getElem?_cons_succ]
        exact hlast f.1 (List.mem_of_getElem? hafter) hpattern
      exact Prod.Lex.toLex_le_toLex.mpr
        (.inr ⟨congrArg (fun p => (r.specificity p).rank) hpattern, hle⟩)
    · have hne : r.wildcards.segments f.1.pattern ≠
          (r.wildcards.words e.pattern).map .literal := by
        rw [← hsegments]
        exact fun heq => hpattern (r.wildcards.segments_injective heq)
      have hlt := Specificity.rank_ofSegments_lt
        ((Wildcards.matches_iff ..).mp hf.matches_eq) hne
      rw [← hsegments] at hlt
      exact Prod.Lex.toLex_le_toLex.mpr (.inl hlt)

/-- A number of deliveries for the addresses of a pattern. -/
def limit (pattern : String) (deliveries : UInt32) : SettingsEntry where
  pattern := pattern
  settings := { maxDeliveryAttempts := some deliveries }

/-- Limits for the prices of one market, before patterns that have as many literal words or match
whatever there is. -/
def marketFirst : SettingsRepository where
  entries := [limit "prices.eu" 1] ++ limit "prices.eu" 2 ::
    [limit "#.prices.#.eu" 3, limit "prices.*" 4, limit "#" 5]

/-- The second of the limits for one market is the last one. -/
theorem lookup_of_exact_marketFirst :
    marketFirst.wildcards.matches "#.prices.#.eu" "prices.eu" ∧
    SettingsField.maxDeliveryAttempts.of (marketFirst.lookup "prices.eu") = some 2 := by
  have hv : SettingsField.maxDeliveryAttempts.of (limit "prices.eu" 2).settings = some 2 := rfl
  have hlast : ∀ f ∈ [limit "#.prices.#.eu" 3, limit "prices.*" 4, limit "#" 5],
      f.pattern ≠ (limit "prices.eu" 2).pattern := by decide
  have hplain : marketFirst.wildcards.isWildcard (limit "prices.eu" 2).pattern = false := by
    decide +kernel
  have hvalue := lookup_of_exact (r := marketFirst) rfl hlast hplain hv
  exact ⟨by decide +kernel, hvalue⟩

end SettingsRepository

end Courier
