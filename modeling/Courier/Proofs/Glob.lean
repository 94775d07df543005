import Mathlib.Data.List.Infix
import Courier.Glob

/-!
# What a Glob Matches

The matcher keeps the remainders that the parts read so far can leave, each a suffix of those
before it. A run may therefore go by the longest of them, since the others have no suffixes that
the longest does not have.

## Main definitions

* `Glob.Leaves`: what a pattern can leave of a list of items.
* `Glob.Nested`: remainders of one list, longest first.

## Main results

* `Glob.mem_remainders`, `Glob.mem_advance`: what one part leaves.
* `Glob.matches_iff`: the matcher decides the relation `Glob.Matches`.
-/

namespace Courier.Glob

variable {α : Type}

/-- What a pattern can leave of a list of items. -/
def Leaves (parts : List (Part α)) (items left : List α) : Prop :=
  ∃ taken, Matches parts taken ∧ items = taken ++ left

theorem matches_cons {part : Part α} {parts : List (Part α)} {items : List α} :
    Matches (part :: parts) items ↔
      ∃ first rest, Matches [part] first ∧ Matches parts rest ∧ items = first ++ rest := by
  constructor
  · intro h
    cases h with
    | @literal a _ rest hrest => exact ⟨[a], rest, .literal .nil, hrest, rfl⟩
    | @single a _ rest hrest => exact ⟨[a], rest, .single .nil, hrest, rfl⟩
    | @run _ rest taken hrest =>
        refine ⟨taken, rest, ?_, hrest, rfl⟩
        simpa using Matches.run taken .nil
  · rintro ⟨first, rest, hfirst, hrest, rfl⟩
    cases hfirst with
    | literal hnil =>
        cases hnil
        exact .literal hrest
    | single hnil =>
        cases hnil
        exact .single hrest
    | run taken hnil =>
        cases hnil
        rw [List.append_nil]
        exact .run taken hrest

theorem Matches.append {parts others : List (Part α)} {items more : List α}
    (h : Matches parts items) (hmore : Matches others more) :
    Matches (parts ++ others) (items ++ more) := by
  induction h with
  | nil => exact hmore
  | literal _ ih => exact .literal ih
  | single _ ih => exact .single ih
  | run taken _ ih =>
      rw [List.append_assoc]
      exact .run taken ih

theorem leaves_nil {items left : List α} : Leaves [] items left ↔ left = items := by
  constructor
  · rintro ⟨_, ⟨⟩, rfl⟩
    rfl
  · rintro rfl
    exact ⟨[], .nil, rfl⟩

theorem leaves_cons {part : Part α} {parts : List (Part α)} {items left : List α} :
    Leaves (part :: parts) items left ↔
      ∃ between, Leaves [part] items between ∧ Leaves parts between left := by
  constructor
  · rintro ⟨taken, hmatches, rfl⟩
    obtain ⟨first, rest, hfirst, hrest, rfl⟩ := matches_cons.mp hmatches
    exact ⟨rest ++ left, ⟨first, hfirst, List.append_assoc ..⟩, rest, hrest, rfl⟩
  · rintro ⟨_, ⟨first, hfirst, rfl⟩, rest, hrest, rfl⟩
    exact ⟨first ++ rest, matches_cons.mpr ⟨first, rest, hfirst, hrest, rfl⟩,
      (List.append_assoc ..).symm⟩

theorem Leaves.concat {parts : List (Part α)} {part : Part α} {items between left : List α}
    (h : Leaves parts items between) (hpart : Leaves [part] between left) :
    Leaves (parts ++ [part]) items left := by
  obtain ⟨taken, hmatches, rfl⟩ := h
  obtain ⟨last, hlast, rfl⟩ := hpart
  exact ⟨taken ++ last, hmatches.append hlast, (List.append_assoc ..).symm⟩

theorem matches_iff_leaves {parts : List (Part α)} {items : List α} :
    Matches parts items ↔ Leaves parts items [] := by
  simp [Leaves]

/-- A pattern of literals matches those items only. -/
theorem matches_literals {items others : List α} :
    Matches (items.map Part.literal) others ↔ others = items := by
  induction items generalizing others with
  | nil =>
      constructor
      · rintro ⟨⟩
        rfl
      · rintro rfl
        exact .nil
  | cons a items ih =>
      constructor
      · intro h
        cases h with
        | literal hrest => rw [ih.mp hrest]
      · rintro rfl
        exact .literal (ih.mpr rfl)

/-! ### Remainders -/

/-- Remainders of one list of items, longest first. -/
def Nested (remainders : List (List α)) : Prop :=
  remainders.Pairwise fun longer shorter => shorter <:+ longer

theorem nested_suffixes (items : List α) : Nested (suffixes items) := by
  induction items with
  | nil => exact List.pairwise_singleton ..
  | cons a items ih =>
      refine List.pairwise_cons.mpr ⟨fun shorter hshorter => ?_, ih⟩
      exact (mem_suffixes.mp hshorter).trans (List.suffix_cons a items)

variable [DecidableEq α]

theorem mem_remainders {part : Part α} {items left : List α} :
    left ∈ part.remainders items ↔ Leaves [part] items left := by
  constructor
  · intro h
    cases part with
    | literal a =>
        cases items with
        | nil => cases h
        | cons b rest =>
            rw [Part.remainders] at h
            split at h
            · next heq =>
                obtain rfl := List.mem_singleton.mp h
                subst heq
                exact ⟨[a], .literal .nil, rfl⟩
            · cases h
    | single =>
        cases items with
        | nil => cases h
        | cons b rest =>
            obtain rfl := List.mem_singleton.mp h
            exact ⟨[b], .single .nil, rfl⟩
    | run =>
        obtain ⟨taken, rfl⟩ := mem_suffixes.mp h
        exact ⟨taken, by simpa using Matches.run taken .nil, rfl⟩
  · rintro ⟨taken, hmatches, rfl⟩
    cases hmatches with
    | literal hnil =>
        cases hnil
        simp [Part.remainders]
    | single hnil =>
        cases hnil
        simp [Part.remainders]
    | run taken hnil =>
        cases hnil
        rw [List.append_nil]
        exact mem_suffixes.mpr (List.suffix_append ..)

/-- A single part takes at most one item of nested remainders, which leaves them nested. -/
theorem nested_flatMap_remainders {part : Part α} (hpart : part ≠ .run)
    {remainders : List (List α)} (h : Nested remainders) :
    Nested (remainders.flatMap part.remainders) := by
  have htail : ∀ items left, left ∈ part.remainders items → left = items.tail := by
    intro items left hleft
    obtain ⟨taken, hmatches, rfl⟩ := mem_remainders.mp hleft
    cases hmatches with
    | literal hnil =>
        cases hnil
        rfl
    | single hnil =>
        cases hnil
        rfl
    | run => exact absurd rfl hpart
  refine List.pairwise_flatMap.mpr ⟨fun items _ => ?_, h.imp ?_⟩
  · refine List.Pairwise.imp_mem.mpr (List.pairwise_of_forall fun longer shorter => ?_)
    intro hlonger hshorter
    rw [htail items longer hlonger, htail items shorter hshorter]
  · intro longer shorter hsuffix left hleft left' hleft'
    rw [htail longer left hleft, htail shorter left' hleft']
    obtain ⟨front, rfl⟩ := hsuffix
    cases front with
    | nil => exact List.suffix_rfl
    | cons a front => exact (List.tail_suffix shorter).trans (List.suffix_append front shorter)

/-- A part takes its share of some remainder. -/
theorem mem_advance {part : Part α} {remainders : List (List α)} (h : Nested remainders)
    {left : List α} :
    left ∈ part.advance remainders ↔ ∃ items ∈ remainders, Leaves [part] items left := by
  cases part with
  | literal a => simp [Part.advance, mem_remainders]
  | single => simp [Part.advance, mem_remainders]
  | run =>
      cases remainders with
      | nil => simp [Part.advance]
      | cons longest others =>
          have hrun : ∀ items : List α, Leaves [.run] items left ↔ left <:+ items := fun items => by
            rw [← mem_remainders, Part.remainders, mem_suffixes]
          rw [Part.advance, mem_suffixes]
          constructor
          · intro hleft
            exact ⟨longest, .head _, (hrun longest).mpr hleft⟩
          · rintro ⟨items, hitems, hleft⟩
            rcases List.mem_cons.mp hitems with rfl | hitems
            · exact (hrun items).mp hleft
            · exact ((hrun items).mp hleft).trans ((List.pairwise_cons.mp h).1 items hitems)

theorem Nested.advance {remainders : List (List α)} (h : Nested remainders) (part : Part α) :
    Nested (part.advance remainders) := by
  cases part with
  | literal a => exact nested_flatMap_remainders (by simp) h
  | single => exact nested_flatMap_remainders (by simp) h
  | run =>
      cases remainders with
      | nil => exact .nil
      | cons longest others => exact nested_suffixes longest

theorem mem_foldl_advance {parts : List (Part α)} {remainders : List (List α)}
    (h : Nested remainders) {left : List α} :
    left ∈ parts.foldl (fun remainders part => part.advance remainders) remainders ↔
      ∃ items ∈ remainders, Leaves parts items left := by
  induction parts generalizing remainders with
  | nil => simp [leaves_nil]
  | cons part parts ih =>
      rw [List.foldl_cons, ih (h.advance part)]
      constructor
      · rintro ⟨between, hbetween, hleft⟩
        obtain ⟨items, hitems, hpart⟩ := (mem_advance h).mp hbetween
        exact ⟨items, hitems, leaves_cons.mpr ⟨between, hpart, hleft⟩⟩
      · rintro ⟨items, hitems, hleft⟩
        obtain ⟨between, hpart, hleft⟩ := leaves_cons.mp hleft
        exact ⟨between, (mem_advance h).mpr ⟨items, hitems, hpart⟩, hleft⟩

/-- **The matcher decides the relation.** -/
theorem matches_iff {parts : List (Part α)} {items : List α} :
    «matches» parts items = true ↔ Matches parts items := by
  rw [«matches», List.any_eq_true, matches_iff_leaves]
  have hmem : ∀ left, left ∈ parts.foldl (fun remainders part => part.advance remainders) [items] ↔
      ∃ other ∈ [items], Leaves parts other left :=
    fun left => mem_foldl_advance (List.pairwise_singleton _ items)
  constructor
  · rintro ⟨left, hleft, hempty⟩
    obtain ⟨_, hitems, hleaves⟩ := (hmem left).mp hleft
    obtain rfl := List.mem_singleton.mp hitems
    rwa [List.isEmpty_iff.mp hempty] at hleaves
  · intro hleaves
    exact ⟨[], (hmem []).mpr ⟨items, .head _, hleaves⟩, rfl⟩

end Courier.Glob
