import Courier.Text.Classes

/-!
# Which Characters Are in a Class

A class of characters is given by ascending ranges of code points. A code point that is in a class
is in one of its ranges, so classes whose ranges lie apart have no character in common. Blanks are
apart from letters and number signs in this way.

## Main results

* `Text.exists_of_inRanges`: a number in a class is in one of its ranges.
* `Text.inRanges_eq_false_of_apart`: ranges that lie apart.
* `Text.isAlphanumeric_eq_false_of_isBlank`: blanks are no letters and no number signs.
* `Text.isAlphabetic_of_isUpper_toUpper`: the letters of ASCII are letters in either case.
-/

namespace Courier.Text

variable {ranges others rest : List (Nat × Nat)} {low high n : Nat} {c : Char}

/-! ### Ranges -/

theorem inRanges_cons_of_le (hlow : low ≤ n) (hhigh : n ≤ high) :
    inRanges ((low, high) :: rest) n := by
  simp [inRanges, hlow, hhigh]

theorem inRanges_cons_of_inRanges (hlow : low ≤ n) (h : inRanges rest n) :
    inRanges ((low, high) :: rest) n := by
  simp [inRanges, hlow, h]

/-- A number below the first range is in none of them. -/
theorem inRanges_cons_eq_false (h : n < low) : inRanges ((low, high) :: rest) n = false := by
  simp [inRanges, Nat.not_le.mpr h]

theorem exists_of_inRanges (h : inRanges ranges n) : ∃ r ∈ ranges, r.1 ≤ n ∧ n ≤ r.2 := by
  induction ranges with
  | nil => cases h
  | cons r ranges ih =>
      obtain ⟨low, high⟩ := r
      simp only [inRanges, Bool.and_eq_true, Bool.or_eq_true, decide_eq_true_eq] at h
      obtain ⟨hlow, hhigh | hrest⟩ := h
      · exact ⟨_, .head _, hlow, hhigh⟩
      · obtain ⟨r, hr, hbounds⟩ := ih hrest
        exact ⟨r, .tail _ hr, hbounds⟩

/-- A number in one of some ranges is in none that lies apart from all of them. -/
theorem inRanges_eq_false_of_apart
    (hapart : ∀ r ∈ ranges, ∀ s ∈ others, r.2 < s.1 ∨ s.2 < r.1) (h : inRanges ranges n) :
    inRanges others n = false := by
  rw [Bool.eq_false_iff]
  intro hother
  obtain ⟨r, hr, hlow, hhigh⟩ := exists_of_inRanges h
  obtain ⟨s, hs, hlow', hhigh'⟩ := exists_of_inRanges hother
  have := hapart r hr s hs
  omega

/-! ### Classes -/

/-- A blank is neither a letter nor a number sign. -/
theorem isAlphanumeric_eq_false_of_isBlank (h : isBlank c) : isAlphanumeric c = false := by
  have halphabetic : inRanges CodeRanges.alphabetic c.toNat = false :=
    inRanges_eq_false_of_apart (by decide +kernel) h
  have hnumeric : inRanges CodeRanges.numeric c.toNat = false :=
    inRanges_eq_false_of_apart (by decide +kernel) h
  rw [isAlphanumeric, isAlphabetic, halphabetic, hnumeric]
  rfl

/-- A letter of ASCII is a letter in either case. -/
theorem isAlphabetic_of_isUpper_toUpper (h : c.toUpper.isUpper) : isAlphabetic c := by
  by_cases hlower : 0x61 ≤ c.toNat ∧ c.toNat ≤ 0x7a
  · have habove : 0x41 ≤ c.toNat := by omega
    exact inRanges_cons_of_inRanges habove (inRanges_cons_of_le hlower.1 hlower.2)
  · have hsame : c.toUpper = c := dif_neg (by simpa [UInt32.le_iff_toNat_le] using hlower)
    rw [hsame] at h
    have hupper : 0x41 ≤ c.toNat ∧ c.toNat ≤ 0x5a := by
      simpa [UInt32.le_iff_toNat_le] using of_decide_eq_true h
    exact inRanges_cons_of_le hupper.1 hupper.2

/-- Digits and the other signs in front of the letters of ASCII are no letters. -/
theorem isAlphabetic_eq_false_of_lt (h : c.toNat < 0x41) : isAlphabetic c = false :=
  inRanges_cons_eq_false h

end Courier.Text
