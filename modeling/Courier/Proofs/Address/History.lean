import Mathlib.Data.Set.List
import Courier.Proofs.Address.Lookup

/-!
# An Address Index over its History

An index is compared with a plain list of the values that are filed, each with its pattern, in
order of arrival. Filing appends to the list, and withdrawing takes away the first value that is
meant. The tree and the list come from the same requests and never part: what a look-up finds are
the values of the list whose patterns match the address when the two texts are compared directly.

## Main definitions

* `AddressIndex.Request`, `AddressIndex.serveAll`: the changes to an index, and an index over its
  history.
* `AddressIndex.recordAll`: the list that goes with the same history.
* `AddressIndex.Files`: an index files the values of a list.

## Main results

* `AddressIndex.Files.serve`, `AddressIndex.files_serveAll`: the list is followed, request after
  request.
* `AddressIndex.lookup_serveAll`: what a look-up finds.
-/

namespace Courier

/-! ### Withdrawing from a list of entries -/

section FiledUnder

variable {α κ : Type} [DecidableEq κ]

/-- The entries under a key whose value passes a test. -/
def isMeant (k : κ) (p : α → Bool) (e : κ × α) : Bool :=
  e.1 = k && p e.2

theorem filedUnder_cons (e : κ × α) (entries : List (κ × α)) (k : κ) :
    filedUnder (e :: entries) k =
      if e.1 = k then e.2 :: filedUnder entries k else filedUnder entries k := by
  rw [filedUnder, List.filter_cons]
  split <;> simp_all [filedUnder]

/-- The first value that is meant is withdrawn from under its key, and from nowhere else. -/
theorem filedUnder_eraseP (entries : List (κ × α)) (k : κ) (p : α → Bool) (other : κ) :
    filedUnder (entries.eraseP (isMeant k p)) other =
      if other = k then (filedUnder entries k).eraseP p else filedUnder entries other := by
  induction entries with
  | nil => simp [filedUnder]
  | cons e entries ih =>
      rw [List.eraseP_cons]
      cases hmeant : isMeant k p e with
      | true =>
          obtain ⟨he, hp⟩ : e.1 = k ∧ p e.2 := by simpa [isMeant] using hmeant
          rw [cond_true, filedUnder_cons, filedUnder_cons, if_pos he, List.eraseP_cons_of_pos hp]
          split
          · next hother => rw [hother]
          · next hother => rw [if_neg fun heq => hother (heq.symm.trans he)]
      | false =>
          rw [cond_false, filedUnder_cons, ih, filedUnder_cons, filedUnder_cons]
          by_cases hother : other = k
          · subst hother
            by_cases he : e.1 = other
            · have hp : ¬p e.2 := by simpa [isMeant, he] using hmeant
              rw [if_pos he, if_pos rfl, if_pos rfl, if_pos he, List.eraseP_cons_of_neg hp]
            · rw [if_neg he, if_pos rfl, if_pos rfl, if_neg he]
          · rw [if_neg hother, if_neg hother]

theorem find?_filedUnder (entries : List (κ × α)) (k : κ) (p : α → Bool) :
    (filedUnder entries k).find? p = (entries.find? (isMeant k p)).map Prod.snd := by
  have hmeant : (fun e : κ × α => decide (decide (e.1 = k) = true ∧ (p ∘ Prod.snd) e = true)) =
      isMeant k p := by
    funext e
    simp [isMeant]
  rw [filedUnder, List.find?_map, List.find?_filter, hmeant]

/-- Under other keys the same values are known by. -/
theorem filedUnder_map {ι : Type} [DecidableEq ι] {f : κ → ι} (hf : Function.Injective f)
    (entries : List (κ × α)) (k : κ) :
    filedUnder (entries.map fun e => (f e.1, e.2)) (f k) = filedUnder entries k := by
  simp [filedUnder, List.filter_map, Function.comp_def, hf.eq_iff]

theorem map_eraseP_isMeant {ι : Type} [DecidableEq ι] {f : κ → ι} (hf : Function.Injective f)
    (entries : List (κ × α)) (k : κ) (p : α → Bool) :
    (entries.eraseP (isMeant k p)).map (fun e => (f e.1, e.2)) =
      (entries.map fun e => (f e.1, e.2)).eraseP (isMeant (f k) p) := by
  have hmeant : isMeant (f k) p ∘ (fun e : κ × α => (f e.1, e.2)) = isMeant k p := by
    funext e
    simp [isMeant, hf.eq_iff]
  rw [List.eraseP_map, hmeant]

end FiledUnder

namespace Wildcards

theorem segment_injective (w : Wildcards) : Function.Injective w.segment := by
  intro word other h
  have htext : word.toList = other.toList → word = other := fun heq => String.toList_injective heq
  unfold segment at h
  grind

/-- A pattern is known by its segments. -/
theorem segments_injective (w : Wildcards) : Function.Injective w.segments := fun _ _ h =>
  w.words_injective (List.map_injective_iff.mpr w.segment_injective h)

end Wildcards

namespace AddressIndex

variable {α : Type}

/-- A change to an index. -/
inductive Request (α : Type) where
  /-- A value is filed under a pattern. -/
  | insert (pattern : String) (a : α)
  /-- The first value under a pattern that passes a test is withdrawn. -/
  | removeFirst (pattern : String) (p : α → Bool)

/-- The value that is withdrawn, if one is, and the index afterwards. -/
def serve (index : AddressIndex α) : Request α → Option α × AddressIndex α
  | .insert pattern a => (none, index.insert pattern a)
  | .removeFirst pattern p => index.removeFirst pattern p

/-- An empty index after requests. -/
def serveAll (w : Wildcards) (requests : List (Request α)) : AddressIndex α :=
  requests.foldl (fun index request => (index.serve request).2) { wildcards := w }

/-- The value that is withdrawn, if one is, and the list of filed values afterwards. -/
def record (filed : List (String × α)) : Request α → Option α × List (String × α)
  | .insert pattern a => (none, filed ++ [(pattern, a)])
  | .removeFirst pattern p =>
    ((filed.find? (isMeant pattern p)).map Prod.snd, filed.eraseP (isMeant pattern p))

/-- The list of filed values after requests, in order of arrival. -/
def recordAll (requests : List (Request α)) : List (String × α) :=
  requests.foldl (fun filed request => (record filed request).2) []

/-- An index files the values of a list, each under its pattern. -/
structure Files (w : Wildcards) (index : AddressIndex α) (filed : List (String × α)) : Prop where
  sorted : index.Sorted
  wildcards_eq : index.wildcards = w
  valuesAt_eq : ∀ path, index.root.valuesAt path =
    filedUnder (filed.map fun e => (w.segments e.1, e.2)) path
  size_eq : index.size = filed.length

variable {w : Wildcards} {index : AddressIndex α} {filed : List (String × α)}

theorem files_new (w : Wildcards) : Files w { wildcards := w } ([] : List (String × α)) :=
  ⟨sorted_empty w, rfl, fun path => IndexNode.valuesAt_empty path, rfl⟩

theorem Files.insert (h : Files w index filed) (pattern : String) (a : α) :
    Files w (index.insert pattern a) (filed ++ [(pattern, a)]) where
  sorted := h.sorted.insert pattern a
  wildcards_eq := h.wildcards_eq
  valuesAt_eq path := by
    rw [AddressIndex.insert, IndexNode.valuesAt_insert h.sorted, h.valuesAt_eq, h.wildcards_eq,
      List.map_append, filedUnder_append, List.map_singleton, filedUnder_cons]
    simp [filedUnder, eq_comm]
  size_eq := by simp [AddressIndex.insert, h.size_eq]

theorem Files.valuesAt_segments (h : Files w index filed) (pattern : String) :
    index.root.valuesAt (w.segments pattern) = filedUnder filed pattern := by
  rw [h.valuesAt_eq, filedUnder_map w.segments_injective]

/-- The value that is withdrawn is the first one that is meant, and nothing is withdrawn only if
nothing is meant. -/
theorem Files.removeFirst (h : Files w index filed) (pattern : String) (p : α → Bool) :
    (index.removeFirst pattern p).1 = (filed.find? (isMeant pattern p)).map Prod.snd ∧
      Files w (index.removeFirst pattern p).2 (filed.eraseP (isMeant pattern p)) := by
  have hfind : (index.removeFirst pattern p).1 =
      (filed.find? (isMeant pattern p)).map Prod.snd := by
    rw [AddressIndex.removeFirst, IndexNode.removeFirst_fst, h.wildcards_eq, h.valuesAt_segments,
      find?_filedUnder]
  refine ⟨hfind, h.sorted.removeFirst .., h.wildcards_eq, fun path => ?_, ?_⟩
  · rw [map_eraseP_isMeant w.segments_injective, filedUnder_eraseP, AddressIndex.removeFirst,
      IndexNode.valuesAt_removeFirst h.sorted, h.wildcards_eq, h.valuesAt_eq, h.valuesAt_eq]
  · change (if (index.removeFirst pattern p).1.isSome then index.size - 1 else index.size) = _
    rw [hfind, h.size_eq]
    cases hmeant : filed.find? (isMeant pattern p) with
    | none => rw [List.eraseP_of_forall_not (List.find?_eq_none.mp hmeant)]; rfl
    | some e =>
        rw [List.length_eraseP_of_mem (List.mem_of_find?_eq_some hmeant)
          (List.find?_some hmeant)]
        rfl

/-- **A request has one answer** from the tree and from the list, which go on together. -/
theorem Files.serve (h : Files w index filed) (request : Request α) :
    (index.serve request).1 = (record filed request).1 ∧
      Files w (index.serve request).2 (record filed request).2 := by
  cases request with
  | insert pattern a => exact ⟨rfl, h.insert pattern a⟩
  | removeFirst pattern p => exact h.removeFirst pattern p

theorem files_serveAll (w : Wildcards) (requests : List (Request α)) :
    Files w (serveAll w requests) (recordAll requests) := by
  rw [serveAll, recordAll]
  generalize hindex : ({ wildcards := w } : AddressIndex α) = index
  generalize hfiled : ([] : List (String × α)) = filed
  have hstart : Files w index filed := hindex ▸ hfiled ▸ files_new w
  clear hindex hfiled
  induction requests generalizing index filed with
  | nil => exact hstart
  | cons request requests ih => exact ih _ _ (hstart.serve request).2

/-! ### What a look-up finds -/

/-- The values of the patterns that match the address, pattern after pattern. -/
theorem Files.lookup_eq_flatMap (h : Files w index filed) (address : String) :
    ∃ patterns : List String, patterns.Nodup ∧
      (∀ pattern, pattern ∈ patterns ↔
        w.matches pattern address ∧ filedUnder filed pattern ≠ []) ∧
      index.lookup address = patterns.flatMap (filedUnder filed) := by
  obtain ⟨paths, hnodup, hpaths, hlookup⟩ := AddressIndex.lookup_eq_flatMap h.sorted address
  have hrange : paths ∈ Set.range (List.map w.segments) := by
    rw [Set.range_list_map]
    intro path hpath
    obtain ⟨a, ha⟩ := List.exists_mem_of_ne_nil _ ((hpaths path).mp hpath).2
    rw [h.valuesAt_eq, mem_filedUnder] at ha
    obtain ⟨e, -, heq⟩ := List.mem_map.mp ha
    exact ⟨e.1, (Prod.mk.inj heq).1⟩
  obtain ⟨patterns, rfl⟩ := hrange
  refine ⟨patterns, .of_map _ hnodup, fun pattern => ?_, ?_⟩
  · rw [← List.mem_map_of_injective w.segments_injective, hpaths, h.wildcards_eq,
      h.valuesAt_segments, w.matches_iff]
  · rw [hlookup, List.flatMap_map]
    exact List.flatMap_congr fun pattern _ => h.valuesAt_segments pattern

/-- **A look-up finds each value whose pattern matches**, once for each time that it is filed. -/
theorem Files.lookup_perm (h : Files w index filed) (address : String) :
    (index.lookup address).Perm
      ((filed.filter fun e => w.matches e.1 address).map Prod.snd) := by
  obtain ⟨patterns, hnodup, hpatterns, hlookup⟩ := h.lookup_eq_flatMap address
  have hfilter : (filed.filter fun e => e.1 ∈ patterns) =
      filed.filter fun e => w.matches e.1 address := by
    refine List.filter_congr fun e he => ?_
    have hfiled : filedUnder filed e.1 ≠ [] := List.ne_nil_of_mem (mem_filedUnder.mpr he)
    rw [Bool.eq_iff_iff, decide_eq_true_iff, hpatterns]
    exact and_iff_left hfiled
  rw [hlookup, ← hfilter]
  exact flatMap_filedUnder_perm hnodup filed

/-- **What a look-up finds after any requests.** It finds exactly the values whose pattern matches
the address, once for each time that they are filed, pattern after pattern and those of one pattern
in the order in which they came. On the way each node is entered at most once with each number of
words left. -/
theorem lookup_serveAll (w : Wildcards) (requests : List (Request α)) (address : String) :
    let index := serveAll w requests
    let filed := recordAll requests
    (index.lookup address).Perm ((filed.filter fun e => w.matches e.1 address).map Prod.snd) ∧
      (∃ patterns : List String, patterns.Nodup ∧
        (∀ pattern, pattern ∈ patterns ↔
          w.matches pattern address ∧ filedUnder filed pattern ≠ []) ∧
        index.lookup address = patterns.flatMap (filedUnder filed)) ∧
      (index.walk address).entered.Nodup ∧
      (index.walk address).entered.length ≤
        ((w.words address).length + 1) * index.nodes.length := by
  intro index filed
  have h : Files w index filed := files_serveAll w requests
  have hlength := length_entered_le h.sorted address
  rw [h.wildcards_eq] at hlength
  exact ⟨h.lookup_perm address, h.lookup_eq_flatMap address, (tracked_walk h.sorted address).nodup,
    hlength⟩

end AddressIndex

end Courier
