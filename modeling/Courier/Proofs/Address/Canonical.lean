import Courier.Proofs.Address.History

/-!
# The Canonical Form of an Address Index

A tree that keeps no empty node is known by what is filed in it: two such trees with the same
values under each pattern are the same tree. Filing never leaves an empty node behind, and
withdrawing drops exactly the nodes that it empties, on the way back to the root. So a tree does
not remember what was withdrawn. It is the tree that filing the remaining values in their order
of arrival would have made.

## Main definitions

* `Branches.Pruned`: no empty node is kept.
* `AddressIndex.ofEntries`: the index that filing the values of a list makes.
* `AddressIndex.Mirrors`: an index is the one that a list makes, and tells what the list tells.

## Main results

* `Branches.eq_of_valuesAt_eq`, `IndexNode.eq_of_valuesAt_eq`: trees without empty nodes that
  hold the same values under each pattern are equal.
* `IndexNode.pruned_insert`, `IndexNode.pruned_removeFirst`: no change leaves an empty node.
* `IndexNode.removeFirst_snd_of_eq_none`: withdrawing nothing changes nothing.
* `AddressIndex.Files.eq_ofEntries`: an index is made by the values that it files.
* `AddressIndex.serveAll_mirrors`: an index over any history.
-/

namespace Courier

variable {α : Type}

/-! ### Trees without empty nodes -/

namespace Branches

/-- No branch ends in an empty node, here and below. -/
def Pruned : Branches α → Prop
  | nil => True
  | cons _ values below beside =>
    IndexNode.isEmpty ⟨values, below⟩ = false ∧ below.Pruned ∧ beside.Pruned

theorem pruned_of_find? {s : Segment} {b : Branches α} {node : IndexNode α} (hb : b.Pruned)
    (h : b.find? s = some node) : node.below.Pruned := by
  induction b with
  | nil => cases h
  | cons t values below beside _ ih =>
      rw [find?] at h
      split at h
      · cases h
        exact hb.2.1
      · exact ih hb.2.2 h

theorem pruned_attach {s : Segment} {node : IndexNode α} {beside : Branches α}
    (hnode : node.below.Pruned) (hbeside : beside.Pruned) : (attach s node beside).Pruned := by
  rw [attach]
  split
  · exact hbeside
  · next h => exact ⟨Bool.eq_false_iff.mpr h, hnode, hbeside⟩

/-- A branch whose node is changed is dropped when nothing is left of it, so that the others have
no empty node if there was none before. -/
theorem pruned_alter {s : Segment} {f : IndexNode α → IndexNode α} {b : Branches α}
    (hb : b.Pruned) (hf : ∀ node : IndexNode α, node.below.Pruned → (f node).below.Pruned) :
    (b.alter s f).Pruned := by
  induction b with
  | nil => exact pruned_attach (hf {} trivial) trivial
  | cons t values below beside _ ih =>
      rw [alter]
      split
      · exact pruned_attach (hf _ hb.2.1) hb.2.2
      · split
        · exact pruned_attach (hf {} trivial) hb
        · exact ⟨hb.1, hb.2.1, ih hb.2.2⟩

/-- Something is filed at or below a node that is not empty. -/
theorem exists_valuesAt_ne_nil {values : List α} {b : Branches α} (hb : b.Pruned)
    (h : IndexNode.isEmpty ⟨values, b⟩ = false) :
    ∃ path, (⟨values, b⟩ : IndexNode α).valuesAt path ≠ [] := by
  induction b generalizing values with
  | nil =>
      cases values with
      | nil => cases h
      | cons a values => exact ⟨[], List.cons_ne_nil _ _⟩
  | cons s inner below beside ih _ =>
      obtain ⟨path, hpath⟩ := ih hb.2.1 hb.1
      refine ⟨s :: path, ?_⟩
      rwa [IndexNode.valuesAt_cons, find?, if_pos rfl, Option.getD_some]

/-- Something is filed along the first branch, so that it is also found among other branches with
the same values. -/
theorem mem_segments_of_valuesAt_eq {s : Segment} {values : List α}
    {below beside others : Branches α} (hb : (cons s values below beside).Pruned)
    (h : ∀ path, (((cons s values below beside).find? s).getD {}).valuesAt path =
      ((others.find? s).getD {}).valuesAt path) : s ∈ others.segments := by
  obtain ⟨path, hpath⟩ := exists_valuesAt_ne_nil hb.2.1 hb.1
  by_contra hmem
  have hsame := h path
  rw [find?, if_pos rfl, Option.getD_some, find?_eq_none hmem, Option.getD_none,
    IndexNode.valuesAt_empty] at hsame
  exact hpath hsame

end Branches

theorem IndexNode.valuesAt_eq_iff {node other : IndexNode α} :
    (∀ path, node.valuesAt path = other.valuesAt path) ↔
      node.values = other.values ∧ ∀ s path,
        ((node.below.find? s).getD {}).valuesAt path =
          ((other.below.find? s).getD {}).valuesAt path := by
  constructor
  · intro h
    refine ⟨h [], fun s path => ?_⟩
    rw [← valuesAt_cons, ← valuesAt_cons]
    exact h (s :: path)
  · rintro ⟨hvalues, hbelow⟩ path
    cases path with
    | nil => exact hvalues
    | cons s path => rw [valuesAt_cons, valuesAt_cons, hbelow]

/-- **Branches are known by what is filed along them**, if they are in order and no empty node is
kept. -/
theorem Branches.eq_of_valuesAt_eq {b c : Branches α} (hb : b.Sorted) (hc : c.Sorted)
    (hb' : b.Pruned) (hc' : c.Pruned)
    (h : ∀ s path, ((b.find? s).getD {}).valuesAt path = ((c.find? s).getD {}).valuesAt path) :
    b = c := by
  induction b generalizing c with
  | nil =>
      cases c with
      | nil => rfl
      | cons t values below beside =>
          have ht := mem_segments_of_valuesAt_eq hc' fun path => (h t path).symm
          cases ht
  | cons s values below beside ihbelow ihbeside =>
      have hs := mem_segments_of_valuesAt_eq hb' (h s)
      cases c with
      | nil => cases hs
      | cons t values' below' beside' =>
          have ht := mem_segments_of_valuesAt_eq hc' fun path => (h t path).symm
          -- each of the two first segments occurs on the other side, where it cannot come later
          obtain rfl : s = t := by
            rcases List.mem_cons.mp hs with heq | hs
            · exact heq
            · rcases List.mem_cons.mp ht with heq | ht
              · exact heq.symm
              · have hcircle := segmentBefore_trans (hb.1 t ht) (hc.1 s hs)
                simp at hcircle
          have hnode : ∀ path, (⟨values, below⟩ : IndexNode α).valuesAt path =
              (⟨values', below'⟩ : IndexNode α).valuesAt path := by
            intro path
            simpa only [find?, if_pos, Option.getD_some] using h s path
          obtain ⟨hvalues, hbelow⟩ := IndexNode.valuesAt_eq_iff.mp hnode
          obtain rfl : values = values' := hvalues
          obtain rfl : below = below' := ihbelow hb.2.1 hc.2.1 hb'.2.1 hc'.2.1 hbelow
          obtain rfl : beside = beside' := by
            refine ihbeside hb.2.2 hc.2.2 hb'.2.2 hc'.2.2 fun t path => ?_
            by_cases heq : t = s
            · subst heq
              have hnot : t ∉ beside.segments := fun hmem => by simpa using hb.1 t hmem
              have hnot' : t ∉ beside'.segments := fun hmem => by simpa using hc.1 t hmem
              rw [find?_eq_none hnot, find?_eq_none hnot']
            · simpa only [find?, if_neg heq] using h t path
          rfl

namespace IndexNode

/-- A node is known by what is filed at and below it. -/
theorem eq_of_valuesAt_eq {node other : IndexNode α} (hnode : node.Sorted) (hother : other.Sorted)
    (hnode' : node.below.Pruned) (hother' : other.below.Pruned)
    (h : ∀ path, node.valuesAt path = other.valuesAt path) : node = other := by
  obtain ⟨hvalues, hbelow⟩ := valuesAt_eq_iff.mp h
  cases node
  cases other
  exact congrArg₂ IndexNode.mk hvalues
    (Branches.eq_of_valuesAt_eq hnode hother hnode' hother' hbelow)

theorem pruned_insert {path : List Segment} {a : α} {node : IndexNode α}
    (h : node.below.Pruned) : (node.insert path a).below.Pruned := by
  induction path generalizing node with
  | nil => exact h
  | cons s path ih => exact Branches.pruned_alter h fun _ => ih

theorem pruned_removeFirst {p : α → Bool} {path : List Segment} {node : IndexNode α}
    (h : node.below.Pruned) : (node.removeFirst p path).2.below.Pruned := by
  induction path generalizing node with
  | nil => exact h
  | cons s path ih =>
      rw [removeFirst]
      cases hchild : node.below.find? s with
      | none => exact h
      | some child =>
          exact Branches.pruned_alter h fun _ _ => ih (Branches.pruned_of_find? h hchild)

/-- **Withdrawing nothing changes nothing.** The way back over the path drops no branch then, since
no node was empty before. -/
theorem removeFirst_snd_of_eq_none {p : α → Bool} {path : List Segment} {node : IndexNode α}
    (hsorted : node.Sorted) (hpruned : node.below.Pruned)
    (h : (node.removeFirst p path).1 = none) : (node.removeFirst p path).2 = node := by
  rw [removeFirst_fst] at h
  refine eq_of_valuesAt_eq (sorted_removeFirst hsorted) hsorted (pruned_removeFirst hpruned) hpruned
    fun other => ?_
  rw [valuesAt_removeFirst hsorted, List.eraseP_of_forall_not (List.find?_eq_none.mp h)]
  split
  · next hother => rw [hother]
  · rfl

end IndexNode

/-! ### Indexes -/

namespace AddressIndex

/-- No empty node is kept apart from the root. -/
def Pruned (index : AddressIndex α) : Prop := index.root.below.Pruned

/-- The index that filing the values of a list makes. -/
def ofEntries (w : Wildcards) (filed : List (String × α)) : AddressIndex α :=
  filed.foldl (fun index e => index.insert e.1 e.2) { wildcards := w }

variable {w : Wildcards} {index : AddressIndex α} {filed : List (String × α)}

theorem Pruned.serve (h : index.Pruned) (request : Request α) : (index.serve request).2.Pruned := by
  cases request with
  | insert pattern a => exact IndexNode.pruned_insert h
  | removeFirst pattern p => exact IndexNode.pruned_removeFirst h

/-- An index from which nothing is withdrawn is left as it was. -/
theorem removeFirst_snd_of_eq_none {pattern : String} {p : α → Bool} (hsorted : index.Sorted)
    (hpruned : index.Pruned) (h : (index.removeFirst pattern p).1 = none) :
    (index.removeFirst pattern p).2 = index := by
  have hroot : index.root.removeFirst p (index.wildcards.segments pattern) = (none, index.root) :=
    Prod.ext h (IndexNode.removeFirst_snd_of_eq_none hsorted hpruned h)
  rw [AddressIndex.removeFirst, hroot]
  rfl

theorem pruned_serveAll (w : Wildcards) (requests : List (Request α)) :
    (serveAll w requests).Pruned := by
  rw [serveAll]
  generalize hindex : ({ wildcards := w } : AddressIndex α) = index
  have hstart : index.Pruned := hindex ▸ trivial
  clear hindex
  induction requests generalizing index with
  | nil => exact hstart
  | cons request requests ih => exact ih _ (hstart.serve request)

/-- Filing the values of a list is a history of its own, of which all values remain. -/
theorem files_ofEntries (w : Wildcards) (filed : List (String × α)) :
    Files w (ofEntries w filed) filed ∧ (ofEntries w filed).Pruned := by
  have hhistory : serveAll w (filed.map fun e => .insert e.1 e.2) = ofEntries w filed := by
    rw [serveAll, List.foldl_map]
    rfl
  have hrecord : recordAll (filed.map fun e : String × α => .insert e.1 e.2) = filed := by
    rw [recordAll, List.foldl_map]
    exact List.foldl_append_eq_append.trans (List.flatMap_singleton' filed)
  have hfiles := files_serveAll w (filed.map fun e => .insert e.1 e.2)
  rw [hhistory, hrecord] at hfiles
  exact ⟨hfiles, hhistory ▸ pruned_serveAll w _⟩

/-- **An index is the one that its values make** when they are filed in their order of arrival. -/
theorem Files.eq_ofEntries (h : Files w index filed) (hpruned : index.Pruned) :
    index = ofEntries w filed := by
  obtain ⟨hfiles, hpruned'⟩ := files_ofEntries w filed
  have hroot : index.root = (ofEntries w filed).root :=
    IndexNode.eq_of_valuesAt_eq h.sorted hfiles.sorted hpruned hpruned' fun path => by
      rw [h.valuesAt_eq, hfiles.valuesAt_eq]
  have hwildcards := h.wildcards_eq.trans hfiles.wildcards_eq.symm
  have hsize := h.size_eq.trans hfiles.size_eq.symm
  calc index = ⟨index.wildcards, index.root, index.size⟩ := rfl
    _ = ofEntries w filed := by rw [hwildcards, hroot, hsize]

theorem values_foldl_insert (h : index.Sorted) (filed : List (String × α)) :
    (filed.foldl (fun index e => index.insert e.1 e.2) index).values.Perm
      (filed.map Prod.snd ++ index.values) := by
  induction filed generalizing index with
  | nil => exact .refl _
  | cons e filed ih =>
      have hfirst : (index.insert e.1 e.2).values.Perm (e.2 :: index.values) :=
        (entries_insert h e.1 e.2).map Prod.snd
      exact (ih (h.insert e.1 e.2)).trans ((hfirst.append_left _).trans List.perm_middle)

/-- An index is made by the values of a list in their order, and tells what the list tells. -/
structure Mirrors (w : Wildcards) (index : AddressIndex α) (filed : List (String × α)) :
    Prop where
  /-- The tree and its size are those that filing the values one after another leads to. -/
  eq_ofEntries : index = ofEntries w filed
  pruned : index.Pruned
  size_eq : index.size = filed.length
  valuesAt_eq (pattern : String) : index.valuesAt pattern = filedUnder filed pattern
  values_perm : index.values.Perm (filed.map Prod.snd)
  /-- Of the values under exactly this pattern that pass the test, the one that came first is
  withdrawn. If there is none, nothing changes. -/
  withdrawn (pattern : String) (p : α → Bool) :
    match index.serve (.removeFirst pattern p) with
    | (some a, after) => ∃ before later, filed = before ++ (pattern, a) :: later ∧ p a ∧
        (∀ e ∈ before, ¬(e.1 = pattern ∧ p e.2)) ∧ after = ofEntries w (before ++ later)
    | (none, after) => (∀ e ∈ filed, ¬(e.1 = pattern ∧ p e.2)) ∧ after = index

theorem Files.mirrors (h : Files w index filed) (hpruned : index.Pruned) :
    Mirrors w index filed where
  eq_ofEntries := h.eq_ofEntries hpruned
  pruned := hpruned
  size_eq := h.size_eq
  valuesAt_eq pattern := by rw [valuesAt, h.wildcards_eq, h.valuesAt_segments]
  values_perm := by
    have hvalues := values_foldl_insert (sorted_empty w) filed
    rw [h.eq_ofEntries hpruned]
    exact hvalues.trans (.of_eq (List.append_nil _))
  withdrawn pattern p := by
    obtain ⟨hanswer, hafter⟩ := h.removeFirst pattern p
    have hpruned' := hpruned.serve (.removeFirst pattern p)
    rw [AddressIndex.serve] at hpruned' ⊢
    cases hremove : index.removeFirst pattern p with
    | mk removed after =>
        rw [hremove] at hanswer hafter hpruned'
        cases removed with
        | none =>
            have hnone := List.find?_eq_none.mp (Option.map_eq_none_iff.mp hanswer.symm)
            have hsame := removeFirst_snd_of_eq_none h.sorted hpruned (congrArg Prod.fst hremove)
            rw [hremove] at hsame
            exact ⟨fun e he => by simpa [isMeant] using hnone e he, hsame⟩
        | some a =>
            obtain ⟨⟨other, a'⟩, hfind, heq⟩ := Option.map_eq_some_iff.mp hanswer.symm
            obtain ⟨hmeant, before, later, hsplit, hbefore, herase⟩ :=
              eraseP_of_find?_eq_some hfind
            obtain ⟨rfl, ha⟩ : other = pattern ∧ p a' := by simpa [isMeant] using hmeant
            obtain rfl : a' = a := heq
            refine ⟨before, later, hsplit, ha, fun e he => ?_, ?_⟩
            · simpa [isMeant] using hbefore e he
            · rw [← herase]
              exact hafter.eq_ofEntries hpruned'

/-- **An index does not remember what was withdrawn**: after any requests it is the index that the
remaining values make in their order of arrival, without empty nodes. -/
theorem serveAll_mirrors (w : Wildcards) (requests : List (Request α)) :
    Mirrors w (serveAll w requests) (recordAll requests) :=
  (files_serveAll w requests).mirrors (pruned_serveAll w requests)

/-- The node that only the first value needed is dropped with it, and the one above it stays. -/
example : serveAll {} [.insert "a.b.c" 1, .insert "a.b" 2, .insert "a.*" 3,
      .removeFirst "a.b.c" (· = 1)] = ofEntries {} [("a.b", 2), ("a.*", 3)] := by
  decide +kernel

end AddressIndex

end Courier
