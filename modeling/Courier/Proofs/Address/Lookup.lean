import Mathlib.Data.List.ProdSigma
import Courier.Proofs.Address.Index
import Courier.Proofs.Glob

/-!
# What a Look-up Finds

A look-up walks over the tree and enters places: a node with some words of the address left. It
enters each place at most once, and what it finds are the values at the nodes that it entered
with no words left, node after node. These are the nodes whose patterns match the address.

A place that is passed by was entered before, and all places that lie ahead of it were entered
then: places are passed by only on the level of the tree where the walk is, and the walk has left
all places of that level that it entered. The proof therefore speaks about the places of one depth
or deeper.

## Main definitions

* `IndexWalk.Tracked`: how a walk came to its places and what it found there.
* `IndexWalk.Settled`: the places ahead of those that were entered were entered.

## Main results

* `IndexWalk.Covers.enter`, `Branches.walk_covers`: where a walk has been when it comes back.
* `AddressIndex.lookup_eq_flatMap`: a look-up finds the values of all patterns that match, pattern
  after pattern.
* `AddressIndex.length_entered_le`: a look-up enters at most all nodes with all remainders.
* `Wildcards.matches_iff`: patterns of segments and of texts match the same addresses.
-/

namespace Courier

variable {α : Type} {filed : List Segment → List α} {paths : List (List Segment)}
  {words rest : List String}

/-! ### Branches as they are seen from above -/

namespace Branches

/-- The nodes below, each as the path that leads to it. -/
def nodes : Branches α → List (List Segment)
  | nil => []
  | cons s _ below beside => [s] :: below.nodes.map (s :: ·) ++ beside.nodes

/-- The branches at the end of a path, read backwards, hold what is filed along them. -/
def Holds (b : Branches α) (filed : List Segment → List α) (path : List Segment) : Prop :=
  ∀ s node, b.find? s = some node → ∀ more, filed (path.reverse ++ s :: more) = node.valuesAt more

variable {s : Segment} {values : List α} {below beside : Branches α} {path : List Segment}

theorem Holds.along (h : (cons s values below beside).Holds filed path) (more : List Segment) :
    filed ((s :: path).reverse ++ more) = IndexNode.valuesAt more ⟨values, below⟩ := by
  rw [List.reverse_cons, List.append_assoc]
  exact h s _ (if_pos rfl) more

theorem Holds.values_eq (h : (cons s values below beside).Holds filed path) :
    filed (s :: path).reverse = values := by
  have halong := h.along []
  rwa [List.append_nil] at halong

theorem Holds.through (h : (cons s values below beside).Holds filed path) :
    below.Holds filed (s :: path) := by
  intro t node ht more
  rw [h.along, IndexNode.valuesAt_cons, ht, Option.getD_some]

theorem Holds.past (h : (cons s values below beside).Holds filed path)
    (hbefore : ∀ t ∈ beside.segments, segmentBefore s t) : beside.Holds filed path := by
  intro t node ht more
  have hne : t ≠ s := by
    rintro rfl
    have hnot : t ∉ beside.segments := fun hmem => by simpa using hbefore t hmem
    rw [find?_eq_none hnot] at ht
    cases ht
  exact h t node (by rw [find?, if_neg hne, ht]) more

end Branches

theorem IndexNode.holds_below (node : IndexNode α) : node.below.Holds (valuesAt · node) [] := by
  intro s child hchild more
  change valuesAt (s :: more) node = _
  rw [valuesAt_cons, hchild, Option.getD_some]

namespace IndexWalk

/-! ### Places and what is found there -/

/-- The values that are found at a place. -/
def valuesOf (filed : List Segment → List α) (place : Nat × List Segment) : List α :=
  if place.1 = 0 then filed place.2.reverse else []

/-- The walk came to each of its places once, along the path of a node that leaves so many words
of the address, and found the values of its places in turn. -/
structure Tracked (filed : List Segment → List α) (paths : List (List Segment))
    (words : List String) (walk : IndexWalk α) : Prop where
  found_eq : walk.found = walk.entered.reverse.flatMap (valuesOf filed)
  nodup : walk.entered.Nodup
  node_mem : ∀ place ∈ walk.entered, place.2.reverse ∈ paths
  leaves : ∀ place ∈ walk.entered, ∃ rest : List String, rest.length = place.1 ∧
    Glob.Leaves place.2.reverse words rest

/-- Whether values are found at a place. -/
def counts (filed : List Segment → List α) (place : Nat × List Segment) : Bool :=
  place.1 = 0 && !(filed place.2.reverse).isEmpty

theorem counts_eq_true {place : Nat × List Segment} :
    counts filed place = true ↔ place.1 = 0 ∧ filed place.2.reverse ≠ [] := by
  simp [counts]

theorem flatMap_valuesOf (places : List (Nat × List Segment)) :
    places.flatMap (valuesOf filed) =
      ((places.filter (counts filed)).map (·.2.reverse)).flatMap filed := by
  induction places with
  | nil => rfl
  | cons place places ih =>
      rw [List.flatMap_cons, ih, List.filter_cons]
      by_cases hplace : place.1 = 0 <;> by_cases hempty : filed place.2.reverse = [] <;>
        simp [counts, valuesOf, hplace, hempty]

theorem tracked_new : Tracked filed paths words {} := ⟨rfl, .nil, nofun, nofun⟩

theorem Tracked.enter {walk : IndexWalk α} (h : walk.Tracked filed paths words)
    {path : List Segment} {values : List α} (hvalues : filed path.reverse = values)
    (hnode : path.reverse ∈ paths) (hleaves : Glob.Leaves path.reverse words rest)
    {below : IndexWalk α → IndexWalk α}
    (hbelow : ∀ walk : IndexWalk α, walk.Tracked filed paths words →
      (below walk).Tracked filed paths words) :
    (walk.enter path rest values below).Tracked filed paths words := by
  rw [IndexWalk.enter]
  split
  · exact h
  · next hnew =>
      refine hbelow _ ⟨?_, ?_, ?_, ?_⟩
      · rw [List.reverse_cons, List.flatMap_append, ← h.found_eq]
        cases rest with
        | nil => simp [valuesOf, hvalues]
        | cons word rest => simp [valuesOf]
      · exact List.nodup_cons.mpr ⟨fun hmem => hnew (List.contains_iff_mem.mpr hmem), h.nodup⟩
      · intro place hplace
        rcases List.mem_cons.mp hplace with rfl | hplace
        · exact hnode
        · exact h.node_mem place hplace
      · intro place hplace
        rcases List.mem_cons.mp hplace with rfl | hplace
        · exact ⟨rest, rfl, hleaves⟩
        · exact h.leaves place hplace

theorem Tracked.branches {b : Branches α} (hb : b.Sorted) {path : List Segment}
    (hholds : b.Holds filed path) (hnodes : ∀ more ∈ b.nodes, path.reverse ++ more ∈ paths)
    {walk : IndexWalk α} (h : walk.Tracked filed paths words)
    (hleaves : Glob.Leaves path.reverse words rest) :
    (b.walk path rest walk).Tracked filed paths words := by
  induction b generalizing path rest walk with
  | nil => exact h
  | cons s values below beside ihbelow ihbeside =>
      obtain ⟨hbefore, hsortedBelow, hsortedBeside⟩ := hb
      have hbesideNodes : ∀ more ∈ beside.nodes, path.reverse ++ more ∈ paths :=
        fun more hmore => hnodes more (by simp [Branches.nodes, hmore])
      have hnode : (s :: path).reverse ∈ paths := by
        rw [List.reverse_cons]
        exact hnodes [s] (by simp [Branches.nodes])
      have hbelowNodes : ∀ more ∈ below.nodes, (s :: path).reverse ++ more ∈ paths := by
        intro more hmore
        rw [List.reverse_cons, List.append_assoc]
        exact hnodes (s :: more) (by simp [Branches.nodes, hmore])
      refine ihbeside hsortedBeside (hholds.past hbefore) hbesideNodes ?_ hleaves
      have hleft : ∀ left ∈ s.remainders rest, Glob.Leaves (s :: path).reverse words left := by
        intro left hmem
        rw [List.reverse_cons]
        exact hleaves.concat (Glob.mem_remainders.mp hmem)
      generalize s.remainders rest = remainders at hleft
      induction remainders generalizing walk with
      | nil => exact h
      | cons left remainders ih =>
          have hplace := hleft left (.head _)
          refine ih ?_ fun other hother => hleft other (.tail _ hother)
          exact h.enter hholds.values_eq hnode hplace fun _ hwalk =>
            ihbelow hsortedBelow hholds.through hbelowNodes hwalk hplace

/-! ### All places of patterns that match -/

/-- Of the places of some depth or deeper that were entered, all nodes with values that lie ahead
along something that matches the words left were entered with no words left. -/
def Settled (filed : List Segment → List α) (words : List String) (depth : Nat)
    (walk : IndexWalk α) : Prop :=
  ∀ path rest, rest <:+ words → (rest.length, path) ∈ walk.entered → depth ≤ path.length →
    ∀ more, filed (path.reverse ++ more) ≠ [] → Glob.Matches more rest →
      (0, more.reverse ++ path) ∈ walk.entered

/-- How a walk goes on among the places of some depth or deeper and comes back. -/
structure Covers (filed : List Segment → List α) (words : List String) (depth : Nat)
    (walk after : IndexWalk α) : Prop where
  settled : after.Settled filed words depth
  entered_subset : walk.entered ⊆ after.entered
  entered : ∀ place ∈ after.entered, place ∈ walk.entered ∨ depth ≤ place.2.length

variable {depth : Nat} {walk : IndexWalk α}

theorem Covers.refl (h : walk.Settled filed words depth) :
    Covers filed words depth walk walk :=
  ⟨h, List.Subset.refl _, fun _ => .inl⟩

theorem Covers.trans {middle after : IndexWalk α} (h : Covers filed words depth walk middle)
    (h' : Covers filed words depth middle after) : Covers filed words depth walk after := by
  refine ⟨h'.settled, List.Subset.trans h.entered_subset h'.entered_subset,
    fun place hplace => ?_⟩
  rcases h'.entered place hplace with hplace | hdepth
  · exact h.entered place hplace
  · exact .inr hdepth

/-- Suffixes of one list with one length are the same. -/
theorem eq_of_suffix_of_length_eq {left right : List String} (hleft : left <:+ words)
    (hright : right <:+ words) (hlength : left.length = right.length) : left = right :=
  (List.suffix_of_suffix_length_le hleft hright (Nat.le_of_eq hlength)).eq_of_length hlength

/-- A place is entered, or was entered before. Either way the places ahead of it are. -/
theorem Covers.enter {path : List Segment} (values : List α) {below : IndexWalk α → IndexWalk α}
    (h : walk.Settled filed words path.length) (hrest : rest <:+ words)
    (hbelow : ∀ walk : IndexWalk α, walk.Settled filed words (path.length + 1) →
      Covers filed words (path.length + 1) walk (below walk) ∧
        ∀ s more, filed (path.reverse ++ s :: more) ≠ [] → Glob.Matches (s :: more) rest →
          (0, more.reverse ++ s :: path) ∈ (below walk).entered) :
    Covers filed words path.length walk (walk.enter path rest values below) ∧
      ∀ more, filed (path.reverse ++ more) ≠ [] → Glob.Matches more rest →
        (0, more.reverse ++ path) ∈ (walk.enter path rest values below).entered := by
  rw [IndexWalk.enter]
  split
  · next hentered =>
      exact ⟨.refl h, h path rest hrest (List.contains_iff_mem.mp hentered) (Nat.le_refl _)⟩
  · generalize hinside : ({
        entered := (rest.length, path) :: walk.entered
        found := if rest.isEmpty then walk.found ++ values else walk.found } : IndexWalk α) = inside
    have hplace : inside.entered = (rest.length, path) :: walk.entered := by rw [← hinside]
    have hsettled : inside.Settled filed words (path.length + 1) := by
      intro other left hleft hother hdepth more hmore hmatches
      rw [hplace] at hother ⊢
      rcases List.mem_cons.mp hother with heq | hother
      · obtain ⟨-, rfl⟩ := Prod.mk.inj heq
        omega
      · exact .tail _ (h other left hleft hother (by omega) more hmore hmatches)
    obtain ⟨hcovers, hmore⟩ := hbelow inside hsettled
    have hkept : (rest.length, path) :: walk.entered ⊆ (below inside).entered :=
      hplace ▸ hcovers.entered_subset
    have hahead : ∀ more, filed (path.reverse ++ more) ≠ [] → Glob.Matches more rest →
        (0, more.reverse ++ path) ∈ (below inside).entered := by
      intro more hfiled hmatches
      cases more with
      | nil =>
          cases hmatches
          exact hkept (.head _)
      | cons s more =>
          rw [List.reverse_cons, List.append_assoc]
          exact hmore s more hfiled hmatches
    refine ⟨⟨?_, fun place hmem => hkept (.tail _ hmem), fun place hmem => ?_⟩, hahead⟩
    · intro other left hleft hother hdepth more hfiled hmatches
      rcases hcovers.entered _ hother with hother | hdeeper
      · rw [hplace] at hother
        rcases List.mem_cons.mp hother with heq | hother
        · obtain ⟨hlength, rfl⟩ := Prod.mk.inj heq
          rw [eq_of_suffix_of_length_eq hleft hrest hlength] at hmatches
          exact hahead more hfiled hmatches
        · exact hkept (.tail _ (h other left hleft hother hdepth more hfiled hmatches))
      · exact hcovers.settled other left hleft hother hdeeper more hfiled hmatches
    · rcases hcovers.entered place hmem with hmem | hdeeper
      · rw [hplace] at hmem
        rcases List.mem_cons.mp hmem with rfl | hmem
        · exact .inr (Nat.le_refl _)
        · exact .inl hmem
      · exact .inr (Nat.le_of_succ_le hdeeper)

/-- A node is entered with one remainder after another. -/
theorem Covers.enterAll {path : List Segment} (values : List α)
    {below : List String → IndexWalk α → IndexWalk α} {remainders : List (List String)}
    (h : walk.Settled filed words path.length)
    (hremainders : ∀ rest ∈ remainders, rest <:+ words)
    (hbelow : ∀ rest, rest <:+ words → ∀ walk : IndexWalk α,
      walk.Settled filed words (path.length + 1) →
        Covers filed words (path.length + 1) walk (below rest walk) ∧
          ∀ s more, filed (path.reverse ++ s :: more) ≠ [] → Glob.Matches (s :: more) rest →
            (0, more.reverse ++ s :: path) ∈ (below rest walk).entered) :
    let after :=
      remainders.foldl (fun walk rest => walk.enter path rest values (below rest)) walk
    Covers filed words path.length walk after ∧
      ∀ rest ∈ remainders, ∀ more, filed (path.reverse ++ more) ≠ [] → Glob.Matches more rest →
        (0, more.reverse ++ path) ∈ after.entered := by
  induction remainders generalizing walk with
  | nil => exact ⟨.refl h, nofun⟩
  | cons rest remainders ih =>
      have hrest := hremainders rest (.head _)
      obtain ⟨henter, hahead⟩ := Covers.enter values h hrest (hbelow rest hrest)
      obtain ⟨hcovers, hothers⟩ :=
        ih henter.settled fun other hother => hremainders other (.tail _ hother)
      refine ⟨henter.trans hcovers, fun other hother more hfiled hmatches => ?_⟩
      rcases List.mem_cons.mp hother with rfl | hother
      · exact hcovers.entered_subset (hahead more hfiled hmatches)
      · exact hothers other hother more hfiled hmatches

end IndexWalk

open IndexWalk

theorem IndexNode.segment_mem_of_valuesAt {node : IndexNode α} {s : Segment}
    {more : List Segment} (h : node.valuesAt (s :: more) ≠ []) : s ∈ node.below.segments := by
  rw [valuesAt_cons] at h
  refine Decidable.byContradiction fun hnot => h ?_
  rw [Branches.find?_eq_none hnot, Option.getD_none, valuesAt_empty]

/-- **A walk over branches enters the nodes of all patterns that match**, also those ahead of places
that it passes by. -/
theorem Branches.walk_covers {b : Branches α} (hb : b.Sorted) {path : List Segment}
    (hholds : b.Holds filed path) {walk : IndexWalk α}
    (h : walk.Settled filed words (path.length + 1)) (hrest : rest <:+ words) :
    Covers filed words (path.length + 1) walk (b.walk path rest walk) ∧
      ∀ s more, s ∈ b.segments → filed (path.reverse ++ s :: more) ≠ [] →
        Glob.Matches (s :: more) rest →
          (0, more.reverse ++ s :: path) ∈ (b.walk path rest walk).entered := by
  induction b generalizing path rest walk with
  | nil => exact ⟨.refl h, nofun⟩
  | cons s values below beside ihbelow ihbeside =>
      obtain ⟨hbefore, hsortedBelow, hsortedBeside⟩ := hb
      have hremainders : ∀ left ∈ s.remainders rest, left <:+ words := by
        intro left hleft
        obtain ⟨taken, -, heq⟩ := Glob.mem_remainders.mp hleft
        exact List.IsSuffix.trans ⟨taken, heq.symm⟩ hrest
      have hstart : walk.Settled filed words (s :: path).length := h
      obtain ⟨hcovers, hahead⟩ := Covers.enterAll values hstart hremainders
        fun left hleft walk hwalk => by
          obtain ⟨hcovers, hahead⟩ := ihbelow hsortedBelow hholds.through hwalk hleft
          refine ⟨hcovers, fun t more hfiled hmatches => hahead t more ?_ hfiled hmatches⟩
          rw [hholds.along] at hfiled
          exact IndexNode.segment_mem_of_valuesAt hfiled
      obtain ⟨hcovers', hahead'⟩ :=
        ihbeside hsortedBeside (hholds.past hbefore) hcovers.settled hrest
      refine ⟨hcovers.trans hcovers', fun t more ht hfiled hmatches => ?_⟩
      rcases List.mem_cons.mp ht with rfl | ht
      · refine hcovers'.entered_subset ?_
        obtain ⟨left, hleaves, hmore⟩ := Glob.leaves_cons.mp (Glob.matches_iff_leaves.mp hmatches)
        refine hahead left (Glob.mem_remainders.mpr hleaves) more ?_
          (Glob.matches_iff_leaves.mpr hmore)
        rwa [List.reverse_cons, List.append_assoc]
      · exact hahead' t more ht hfiled hmatches

namespace AddressIndex

/-- The walk of a look-up. -/
def walk (index : AddressIndex α) (address : String) : IndexWalk α :=
  IndexWalk.enter [] (index.wildcards.words address) index.root.values
    (index.root.below.walk [] (index.wildcards.words address)) {}

theorem lookup_eq_found (index : AddressIndex α) (address : String) :
    index.lookup address = (index.walk address).found := rfl

/-- The nodes of the tree, each as the path that leads to it. -/
def nodes (index : AddressIndex α) : List (List Segment) :=
  [] :: index.root.below.nodes

variable {index : AddressIndex α}

theorem tracked_walk (h : index.Sorted) (address : String) :
    (index.walk address).Tracked (IndexNode.valuesAt · index.root) index.nodes
      (index.wildcards.words address) := by
  have hleaves : Glob.Leaves ([] : List Segment).reverse (index.wildcards.words address)
      (index.wildcards.words address) := Glob.leaves_nil.mpr rfl
  refine tracked_new.enter rfl (List.mem_cons_self ..) hleaves fun walk hwalk => ?_
  exact hwalk.branches h index.root.holds_below (fun more hmore => .tail _ hmore) hleaves

/-- The walk enters the nodes of patterns with values that match, with no words left. -/
theorem mem_entered_walk (h : index.Sorted) {address : String} {path : List Segment}
    (hvalues : index.root.valuesAt path ≠ [])
    (hmatches : Glob.Matches path (index.wildcards.words address)) :
    (0, path.reverse) ∈ (index.walk address).entered := by
  have hstart : Settled (IndexNode.valuesAt · index.root) (index.wildcards.words address)
      ([] : List Segment).length ({} : IndexWalk α) :=
    fun _ _ _ hplace => absurd hplace List.not_mem_nil
  have hwalk := (Covers.enter index.root.values hstart List.suffix_rfl fun walk hwalk => by
      obtain ⟨hcovers, hahead⟩ :=
        Branches.walk_covers h index.root.holds_below hwalk List.suffix_rfl
      refine ⟨hcovers, fun s more hfiled hmatches => hahead s more ?_ hfiled hmatches⟩
      exact IndexNode.segment_mem_of_valuesAt hfiled).2 path hvalues hmatches
  rwa [List.append_nil] at hwalk

/-- **A look-up finds the values of all patterns that match**, pattern after pattern, and those of
one pattern in order of arrival. -/
theorem lookup_eq_flatMap (h : index.Sorted) (address : String) :
    ∃ paths : List (List Segment), paths.Nodup ∧
      (∀ path, path ∈ paths ↔ Glob.Matches path (index.wildcards.words address) ∧
        index.root.valuesAt path ≠ []) ∧
      index.lookup address = paths.flatMap (IndexNode.valuesAt · index.root) := by
  have htracked := tracked_walk h address
  let places := (index.walk address).entered.reverse.filter
    (counts (IndexNode.valuesAt · index.root))
  refine ⟨places.map (·.2.reverse), ?_, fun path => ?_, ?_⟩
  · refine (List.Nodup.filter _ (List.nodup_reverse.mpr htracked.nodup)).map_on ?_
    intro place hplace other hother heq
    have hcounts := counts_eq_true.mp (List.mem_filter.mp hplace).2
    have hcounts' := counts_eq_true.mp (List.mem_filter.mp hother).2
    exact Prod.ext (hcounts.1.trans hcounts'.1.symm) (List.reverse_injective heq)
  · rw [List.mem_map]
    constructor
    · rintro ⟨place, hplace, rfl⟩
      obtain ⟨hmem, hcounts⟩ := List.mem_filter.mp hplace
      obtain ⟨hnone, hvalues⟩ := counts_eq_true.mp hcounts
      obtain ⟨rest, hlength, hleaves⟩ := htracked.leaves _ (List.mem_reverse.mp hmem)
      obtain rfl : rest = [] := List.eq_nil_of_length_eq_zero (hlength.trans hnone)
      exact ⟨Glob.matches_iff_leaves.mpr hleaves, hvalues⟩
    · rintro ⟨hmatches, hvalues⟩
      refine ⟨(0, path.reverse), List.mem_filter.mpr ⟨?_, ?_⟩, List.reverse_reverse path⟩
      · exact List.mem_reverse.mpr (mem_entered_walk h hvalues hmatches)
      · rw [counts_eq_true, List.reverse_reverse]
        exact ⟨rfl, hvalues⟩
  · rw [lookup_eq_found, htracked.found_eq, flatMap_valuesOf]

/-- A look-up finds the values of the patterns that match the address. -/
theorem mem_lookup_iff (h : index.Sorted) {address : String} {a : α} :
    a ∈ index.lookup address ↔
      ∃ pattern, (pattern, a) ∈ index.entries ∧
        Glob.Matches pattern (index.wildcards.words address) := by
  obtain ⟨paths, -, hpaths, hlookup⟩ := lookup_eq_flatMap h address
  rw [hlookup, List.mem_flatMap]
  constructor
  · rintro ⟨path, hpath, ha⟩
    exact ⟨path, (IndexNode.mem_valuesAt_iff h).mp ha, ((hpaths path).mp hpath).1⟩
  · rintro ⟨path, hentry, hmatches⟩
    have ha := (IndexNode.mem_valuesAt_iff h).mpr hentry
    exact ⟨path, (hpaths path).mpr ⟨hmatches, List.ne_nil_of_mem ha⟩, ha⟩

/-- A look-up finds each entry at most once. -/
theorem lookup_subperm (h : index.Sorted) (address : String) :
    (index.lookup address).Subperm index.values := by
  obtain ⟨paths, hnodup, -, hlookup⟩ := lookup_eq_flatMap h address
  have hfiled : paths.flatMap (IndexNode.valuesAt · index.root) =
      paths.flatMap (filedUnder index.entries) :=
    List.flatMap_congr fun path _ => (IndexNode.filedUnder_entries h path).symm
  rw [hlookup, hfiled]
  exact (flatMap_filedUnder_perm hnodup index.entries).subperm.trans
    ((List.filter_sublist ..).map Prod.snd).subperm

/-- A look-up enters each node at most once with each number of words left. -/
theorem length_entered_le (h : index.Sorted) (address : String) :
    (index.walk address).entered.length ≤
      ((index.wildcards.words address).length + 1) * index.nodes.length := by
  have htracked := tracked_walk h address
  have hsub : (index.walk address).entered ⊆
      List.range ((index.wildcards.words address).length + 1) ×ˢ
        index.nodes.map List.reverse := by
    rintro ⟨n, path⟩ hplace
    obtain ⟨rest, rfl, taken, -, heq⟩ := htracked.leaves _ hplace
    have hnode := htracked.node_mem _ hplace
    refine List.mem_product.mpr ⟨List.mem_range.mpr ?_, List.mem_map.mpr ⟨_, hnode, ?_⟩⟩
    · rw [heq, List.length_append]
      omega
    · exact List.reverse_reverse path
  have hle := (htracked.nodup.subperm hsub).length_le
  rwa [List.length_product, List.length_range, List.length_map] at hle

end AddressIndex

namespace Wildcards

/-- An address is known by its words. -/
theorem words_injective (w : Wildcards) : Function.Injective w.words := by
  intro text other h
  have hsplit : text.toList.splitOn w.delimiter = other.toList.splitOn w.delimiter :=
    List.map_injective_iff.mpr (fun _ _ => String.ofList_injective) h
  have hjoin := congrArg [w.delimiter].intercalate hsplit
  rw [List.intercalate_splitOn, List.intercalate_splitOn] at hjoin
  exact String.toList_injective hjoin

/-- **A pattern matches the addresses whose words match its segments.** -/
theorem matches_iff (w : Wildcards) (pattern address : String) :
    w.matches pattern address = true ↔
      Glob.Matches (w.segments pattern) (w.words address) := by
  rw [«matches»]
  split
  · exact Glob.matches_iff
  · next hdisabled =>
      have hsegments : w.segments pattern = (w.words pattern).map .literal := by
        refine List.map_congr_left fun word _ => ?_
        rw [segment, if_neg hdisabled]
      rw [hsegments, Glob.matches_literals, decide_eq_true_iff, eq_comm]
      exact w.words_injective.eq_iff.symm

end Wildcards

end Courier
