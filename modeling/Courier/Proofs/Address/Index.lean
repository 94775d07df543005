import Mathlib.Data.List.Nodup
import Mathlib.Data.List.Perm.Subperm
import Courier.Address.Index

/-!
# What an Address Index Holds

The index is seen as the list of its entries, each a value with the segments of its pattern. In
a tree with ordered branches, filing a value adds an entry and withdrawing one takes an entry
away. The values under one pattern keep their order of arrival.

## Main results

* `AddressIndex.Sorted`: the branches are in order everywhere.
* `AddressIndex.entries_insert`, `AddressIndex.exists_removeFirst`: the entries after a change.
* `IndexNode.filedUnder_entries`: the values under a pattern as those of its entries.
* `IndexNode.valuesAt_insert`, `IndexNode.valuesAt_removeFirst`: the values under each pattern
  after a change.
-/

namespace Courier

variable {α : Type}

/-! ### The order of segments -/

@[simp] theorem segmentBefore_irrefl (s : Segment) : segmentBefore s s = false := by
  cases s <;> simp [segmentBefore]

theorem segmentBefore_trans {s t u : Segment} (h : segmentBefore s t) (h' : segmentBefore t u) :
    segmentBefore s u := by
  cases s <;> cases t <;> cases u <;> grind [segmentBefore, String.lt_trans]

theorem segmentBefore_of_not {s t : Segment} (hne : s ≠ t) (h : ¬segmentBefore s t) :
    segmentBefore t s := by
  cases s <;> cases t <;> grind [segmentBefore, String.not_lt, String.le_antisymm]

/-! ### The first item that passes a test -/

/-- The first item that passes a test stands behind items that do not, and is the one that is
erased. -/
theorem eraseP_of_find?_eq_some {p : α → Bool} {items : List α} {a : α}
    (h : items.find? p = some a) :
    p a ∧ ∃ before after, items = before ++ a :: after ∧ (∀ b ∈ before, ¬p b) ∧
      items.eraseP p = before ++ after := by
  obtain ⟨ha, before, after, rfl, hbefore⟩ := List.find?_eq_some_iff_append.mp h
  have hnot : ∀ b ∈ before, ¬p b := fun b hb => by simpa using hbefore b hb
  refine ⟨ha, before, after, rfl, hnot, ?_⟩
  rw [List.eraseP_append_right _ hnot, List.eraseP_cons_of_pos ha]

/-! ### Branches -/

/-- Entries along a branch. -/
def underSegment (s : Segment) (entries : List (List Segment × α)) : List (List Segment × α) :=
  entries.map fun e => (s :: e.1, e.2)

namespace Branches

/-- The segments that branches start with. -/
def segments : Branches α → List Segment
  | nil => []
  | cons s _ _ beside => s :: beside.segments

/-- The branches are in order, here and below. -/
def Sorted : Branches α → Prop
  | nil => True
  | cons s _ below beside =>
    (∀ t ∈ beside.segments, segmentBefore s t) ∧ below.Sorted ∧ beside.Sorted

theorem entries_cons (s : Segment) (values : List α) (below beside : Branches α) :
    (cons s values below beside).entries =
      underSegment s (IndexNode.entries ⟨values, below⟩) ++ beside.entries := by
  simp [entries, underSegment, IndexNode.entries]

theorem entries_attach (s : Segment) (node : IndexNode α) (beside : Branches α) :
    (attach s node beside).entries = underSegment s node.entries ++ beside.entries := by
  rw [attach]
  split
  · next h =>
      obtain ⟨values, below⟩ := node
      cases values <;> cases below <;> simp [IndexNode.isEmpty] at h
      rfl
  · exact entries_cons ..

theorem find?_eq_none {s : Segment} {b : Branches α} (h : s ∉ b.segments) : b.find? s = none := by
  induction b with
  | nil => rfl
  | cons t values below beside _ ih =>
      simp only [segments, List.mem_cons, not_or] at h
      rw [find?, if_neg h.1, ih h.2]

theorem sorted_of_find? {s : Segment} {b : Branches α} {node : IndexNode α} (hb : b.Sorted)
    (h : b.find? s = some node) : node.below.Sorted := by
  induction b with
  | nil => cases h
  | cons t values below beside _ ih =>
      rw [find?] at h
      split at h
      · cases h
        exact hb.2.1
      · exact ih hb.2.2 h

/-- An entry starts with the segment of its branch. -/
theorem segment_mem_of_entry {s : Segment} {path : List Segment} {a : α} {b : Branches α}
    (h : (s :: path, a) ∈ b.entries) : s ∈ b.segments := by
  induction b with
  | nil => cases h
  | cons t values below beside _ ih =>
      rw [entries_cons, List.mem_append] at h
      rcases h with h | h
      · obtain ⟨e, -, heq⟩ := List.mem_map.mp h
        cases heq
        exact .head _
      · exact .tail _ (ih h)

theorem path_ne_nil {e : List Segment × α} {b : Branches α} (h : e ∈ b.entries) : e.1 ≠ [] := by
  induction b with
  | nil => cases h
  | cons t values below beside _ ih =>
      rw [entries_cons, List.mem_append] at h
      rcases h with h | h
      · obtain ⟨e, -, rfl⟩ := List.mem_map.mp h
        exact List.cons_ne_nil _ _
      · exact ih h

/-- An entry is found along its branch. -/
theorem find?_of_entry {s : Segment} {path : List Segment} {a : α} {b : Branches α}
    (hb : b.Sorted) (h : (s :: path, a) ∈ b.entries) :
    ∃ node, b.find? s = some node ∧ (path, a) ∈ node.entries := by
  induction b with
  | nil => cases h
  | cons t values below beside _ ih =>
      rw [entries_cons, List.mem_append] at h
      rw [find?]
      rcases h with h | h
      · obtain ⟨e, he, heq⟩ := List.mem_map.mp h
        cases heq
        exact ⟨_, if_pos rfl, he⟩
      · have hbefore := hb.1 s (segment_mem_of_entry h)
        rw [if_neg (by rintro rfl; simp at hbefore)]
        exact ih hb.2.2 h

/-- Changing the node at the end of a branch exchanges the entries along that branch. -/
theorem entries_alter {b : Branches α} (hb : b.Sorted) (s : Segment) :
    ∃ others, b.entries.Perm (underSegment s ((b.find? s).getD {}).entries ++ others) ∧
      ∀ f, (b.alter s f).entries.Perm
        (underSegment s (f ((b.find? s).getD {})).entries ++ others) := by
  induction b with
  | nil => exact ⟨[], .refl _, fun f => by rw [alter, entries_attach]; exact .refl _⟩
  | cons t values below beside _ ih =>
      rw [entries_cons, find?]
      by_cases heq : s = t
      · subst heq
        refine ⟨beside.entries, ?_, fun f => ?_⟩
        · rw [if_pos rfl]
          exact .refl _
        · rw [if_pos rfl, alter, if_pos rfl, entries_attach]
          exact .refl _
      · rw [if_neg heq]
        by_cases hbefore : segmentBefore s t
        · have hnone : beside.find? s = none := by
            refine find?_eq_none fun hmem => ?_
            have := segmentBefore_trans hbefore (hb.1 s hmem)
            simp at this
          refine ⟨(cons t values below beside).entries, ?_, fun f => ?_⟩
          · rw [hnone, entries_cons]
            exact .refl _
          · rw [hnone, alter, if_neg heq, if_pos hbefore, entries_attach]
            exact .refl _
        · obtain ⟨others, hothers, halter⟩ := ih hb.2.2
          refine ⟨underSegment t (IndexNode.entries ⟨values, below⟩) ++ others, ?_, fun f => ?_⟩
          · exact (hothers.append_left _).trans (List.perm_append_comm_assoc ..)
          · rw [alter, if_neg heq, if_neg hbefore, entries_cons]
            exact ((halter f).append_left _).trans (List.perm_append_comm_assoc ..)

theorem segments_attach {s t : Segment} {node : IndexNode α} {beside : Branches α}
    (h : t ∈ (attach s node beside).segments) : t = s ∨ t ∈ beside.segments := by
  rw [attach] at h
  split at h
  · exact .inr h
  · exact List.mem_cons.mp h

theorem segments_alter {s t : Segment} {f : IndexNode α → IndexNode α} {b : Branches α}
    (h : t ∈ (b.alter s f).segments) : t = s ∨ t ∈ b.segments := by
  induction b with
  | nil => exact segments_attach h
  | cons u values below beside _ ih =>
      rw [alter] at h
      split at h
      · rcases segments_attach h with h | h
        · exact .inl h
        · exact .inr (.tail _ h)
      · split at h
        · exact segments_attach h
        · rcases List.mem_cons.mp h with rfl | h
          · exact .inr (.head _)
          · exact (ih h).imp_right (.tail _)

theorem sorted_attach {s : Segment} {node : IndexNode α} {beside : Branches α}
    (hnode : node.below.Sorted) (hbeside : beside.Sorted)
    (hbefore : ∀ t ∈ beside.segments, segmentBefore s t) : (attach s node beside).Sorted := by
  rw [attach]
  split
  · exact hbeside
  · exact ⟨hbefore, hnode, hbeside⟩

theorem sorted_alter {s : Segment} {f : IndexNode α → IndexNode α} {b : Branches α}
    (hb : b.Sorted) (hf : (f ((b.find? s).getD {})).below.Sorted) : (b.alter s f).Sorted := by
  induction b with
  | nil => exact sorted_attach hf trivial nofun
  | cons t values below beside _ ih =>
      rw [find?] at hf
      rw [alter]
      by_cases heq : s = t
      · subst heq
        rw [if_pos rfl] at hf ⊢
        exact sorted_attach hf hb.2.2 hb.1
      · rw [if_neg heq] at hf ⊢
        by_cases hbefore : segmentBefore s t
        · have hall : ∀ u ∈ t :: beside.segments, segmentBefore s u := by
            intro u hu
            rcases List.mem_cons.mp hu with rfl | hu
            · exact hbefore
            · exact segmentBefore_trans hbefore (hb.1 u hu)
          have hnone : beside.find? s = none := by
            refine find?_eq_none fun hmem => ?_
            have := hall s (.tail _ hmem)
            simp at this
          rw [hnone] at hf
          rw [if_pos hbefore]
          exact sorted_attach hf hb hall
        · rw [if_neg hbefore]
          refine ⟨fun u hu => ?_, hb.2.1, ih hb.2.2 hf⟩
          rcases segments_alter hu with rfl | hu
          · exact segmentBefore_of_not heq hbefore
          · exact hb.1 u hu

end Branches

/-! ### Nodes -/

namespace IndexNode

/-- The branches below the node are in order everywhere. -/
def Sorted (node : IndexNode α) : Prop := node.below.Sorted

theorem sorted_getD_find? {b : Branches α} (hb : b.Sorted) (s : Segment) :
    ((b.find? s).getD {}).Sorted := by
  cases h : b.find? s with
  | none => trivial
  | some node => exact Branches.sorted_of_find? hb h

theorem sorted_insert {path : List Segment} {a : α} {node : IndexNode α} (h : node.Sorted) :
    (node.insert path a).Sorted := by
  induction path generalizing node with
  | nil => exact h
  | cons s path ih => exact Branches.sorted_alter h (ih (sorted_getD_find? h s))

/-- Filing a value adds an entry. -/
theorem entries_insert (path : List Segment) (a : α) {node : IndexNode α} (h : node.Sorted) :
    (node.insert path a).entries.Perm ((path, a) :: node.entries) := by
  induction path generalizing node with
  | nil =>
      simp only [insert, entries, List.map_append, List.map_cons, List.map_nil]
      exact (List.perm_append_singleton ..).append_right _
  | cons s path ih =>
      obtain ⟨others, hothers, halter⟩ := Branches.entries_alter h s
      have hchild := (ih (sorted_getD_find? h s)).map fun e => (s :: e.1, e.2)
      have hbelow := (halter (insert path a)).trans
        ((hchild.append_right others).trans (hothers.symm.cons _))
      exact (hbelow.append_left _).trans List.perm_middle

/-- A value under a pattern is withdrawn, and the others stay. -/
theorem exists_removeFirst {p : α → Bool} {path : List Segment} {a : α} {node : IndexNode α}
    (h : node.Sorted) (hmem : (path, a) ∈ node.entries) (ha : p a) :
    ∃ a', (node.removeFirst p path).1 = some a' ∧ p a' ∧
      node.entries.Perm ((path, a') :: (node.removeFirst p path).2.entries) := by
  induction path generalizing node with
  | nil =>
      have hvalue : a ∈ node.values := by
        rcases List.mem_append.mp hmem with hmem | hmem
        · simpa using hmem
        · exact absurd rfl (Branches.path_ne_nil hmem)
      obtain ⟨a', hfind⟩ := Option.isSome_iff_exists.mp
        (List.find?_isSome.mpr ⟨a, hvalue, ha⟩)
      refine ⟨a', hfind, List.find?_some hfind, ?_⟩
      obtain ⟨-, before, after, heq, -, herase⟩ := eraseP_of_find?_eq_some hfind
      have hvalues : node.values.Perm (a' :: node.values.eraseP p) := by
        rw [herase, heq]
        exact List.perm_middle
      exact (hvalues.map fun a => ([], a)).append_right _
  | cons s path ih =>
      have hbelow : (s :: path, a) ∈ node.below.entries := by
        rcases List.mem_append.mp hmem with hmem | hmem
        · simp at hmem
        · exact hmem
      obtain ⟨child, hchild, hentry⟩ := Branches.find?_of_entry h hbelow
      obtain ⟨a', hremove, ha', hperm⟩ := ih (Branches.sorted_of_find? h hchild) hentry
      obtain ⟨others, hothers, halter⟩ := Branches.entries_alter h s
      rw [removeFirst, hchild]
      refine ⟨a', hremove, ha', ?_⟩
      rw [hchild, Option.getD_some] at hothers halter
      have hunder := hperm.map fun e => (s :: e.1, e.2)
      have hrest := hothers.trans ((hunder.append_right others).trans
        ((halter fun _ => (child.removeFirst p path).2).symm.cons _))
      exact (hrest.append_left _).trans List.perm_middle

end IndexNode

/-! ### Values under one pattern -/

section FiledUnder

variable {κ : Type} [DecidableEq κ]

/-- The values that entries have under one key, in order. -/
def filedUnder (entries : List (κ × α)) (k : κ) : List α :=
  (entries.filter (·.1 = k)).map Prod.snd

theorem filedUnder_append (entries others : List (κ × α)) (k : κ) :
    filedUnder (entries ++ others) k = filedUnder entries k ++ filedUnder others k := by
  rw [filedUnder, List.filter_append, List.map_append]
  rfl

theorem mem_filedUnder {entries : List (κ × α)} {k : κ} {a : α} :
    a ∈ filedUnder entries k ↔ (k, a) ∈ entries := by
  simp [filedUnder]

theorem filedUnder_eq_nil {entries : List (κ × α)} {k : κ} (h : ∀ e ∈ entries, e.1 ≠ k) :
    filedUnder entries k = [] := by
  rw [filedUnder, List.filter_eq_nil_iff.mpr fun e he => by simpa using h e he, List.map_nil]

/-- The values under different keys are the values of the entries with one of the keys. -/
theorem flatMap_filedUnder_perm {keys : List κ} (h : keys.Nodup) (entries : List (κ × α)) :
    (keys.flatMap (filedUnder entries)).Perm
      ((entries.filter fun e => e.1 ∈ keys).map Prod.snd) := by
  induction keys with
  | nil => simp
  | cons k keys ih =>
      obtain ⟨hk, hkeys⟩ := List.nodup_cons.mp h
      have hsplit := List.filter_append_perm (fun e : κ × α => decide (e.1 = k))
        (entries.filter fun e => decide (e.1 ∈ k :: keys))
      have hfirst : (entries.filter fun e => decide (e.1 ∈ k :: keys)).filter
          (fun e => decide (e.1 = k)) = entries.filter fun e => decide (e.1 = k) := by
        rw [List.filter_filter]
        refine List.filter_congr fun e _ => ?_
        by_cases he : e.1 = k <;> simp [he]
      have hrest : (entries.filter fun e => decide (e.1 ∈ k :: keys)).filter
          (fun e => !decide (e.1 = k)) = entries.filter fun e => decide (e.1 ∈ keys) := by
        rw [List.filter_filter]
        refine List.filter_congr fun e _ => ?_
        by_cases he : e.1 = k <;> simp [he, hk]
      rw [hfirst, hrest] at hsplit
      rw [List.flatMap_cons]
      refine ((ih hkeys).append_left _).trans ?_
      rw [filedUnder, ← List.map_append]
      exact hsplit.map Prod.snd

end FiledUnder

theorem filedUnder_underSegment (s t : Segment) (entries : List (List Segment × α))
    (path : List Segment) :
    filedUnder (underSegment s entries) (t :: path) =
      if s = t then filedUnder entries path else [] := by
  split
  · next h =>
      subst h
      simp [filedUnder, underSegment, List.filter_map, Function.comp_def]
  · next h =>
      refine filedUnder_eq_nil fun e he heq => h ?_
      obtain ⟨f, -, rfl⟩ := List.mem_map.mp he
      exact (List.cons.inj heq).1

theorem IndexNode.eq_of_isEmpty {node : IndexNode α} (h : node.isEmpty) : node = {} := by
  obtain ⟨values, below⟩ := node
  cases values <;> cases below <;> simp [isEmpty] at h
  rfl

namespace Branches

theorem find?_attach (s t : Segment) (node : IndexNode α) (beside : Branches α) :
    ((attach s node beside).find? t) =
      if t = s ∧ ¬node.isEmpty then some node else beside.find? t := by
  rw [attach]
  split
  · next h => simp [h]
  · next h => by_cases heq : t = s <;> simp [find?, heq, h]

/-- Changing the node at the end of a branch leaves the other branches alone. A missing branch
ends in an empty node. -/
theorem getD_find?_alter {b : Branches α} (hb : b.Sorted) (s t : Segment)
    (f : IndexNode α → IndexNode α) :
    ((b.alter s f).find? t).getD {} =
      if t = s then f ((b.find? s).getD {}) else (b.find? t).getD {} := by
  have hattach : ∀ (node : IndexNode α) (beside : Branches α), beside.find? s = none →
      ((attach s node beside).find? t).getD {} =
        if t = s then node else (beside.find? t).getD {} := by
    intro node beside hnone
    rw [find?_attach]
    by_cases heq : t = s
    · subst heq
      by_cases hempty : node.isEmpty
      · rw [if_neg (by simp [hempty]), if_pos rfl, hnone, IndexNode.eq_of_isEmpty hempty]
        rfl
      · simp [hempty]
    · simp [heq]
  induction b with
  | nil => exact hattach _ _ rfl
  | cons u values below beside _ ih =>
      obtain ⟨hbefore, -, hbeside⟩ := hb
      rw [alter]
      by_cases heq : s = u
      · subst heq
        have hnone : beside.find? s = none :=
          find?_eq_none fun hmem => by simpa using hbefore s hmem
        rw [if_pos rfl, hattach _ _ hnone, find?, if_pos rfl, find?]
        by_cases hts : t = s <;> simp [hts]
      · rw [if_neg heq]
        by_cases hlt : segmentBefore s u
        · have hnone : (cons u values below beside).find? s = none := by
            refine find?_eq_none fun hmem => ?_
            rcases List.mem_cons.mp hmem with rfl | hmem
            · exact heq rfl
            · simpa using segmentBefore_trans hlt (hbefore s hmem)
          rw [if_pos hlt, hattach _ _ hnone, hnone]
          rfl
        · rw [if_neg hlt, find?]
          by_cases htu : t = u
          · subst htu
            rw [if_pos rfl, if_neg (Ne.symm heq), find?, if_pos rfl]
          · rw [if_neg htu, ih hbeside, find?, find?, if_neg heq, if_neg htu]

/-- The values under a pattern that starts with a segment are those along the branch. -/
theorem filedUnder_entries {b : Branches α} (hb : b.Sorted) (s : Segment)
    (path : List Segment) :
    filedUnder b.entries (s :: path) =
      filedUnder ((b.find? s).getD {}).entries path := by
  induction b with
  | nil => rfl
  | cons t values below beside _ ih =>
      rw [entries_cons, filedUnder_append, filedUnder_underSegment, find?]
      by_cases heq : s = t
      · subst heq
        have hnot : s ∉ beside.segments := fun hmem => by simpa using hb.1 s hmem
        have hnil : filedUnder beside.entries (s :: path) = [] := by
          refine filedUnder_eq_nil fun e he heq => hnot ?_
          have hentry : (s :: path, e.2) ∈ beside.entries := heq ▸ he
          exact segment_mem_of_entry hentry
        rw [if_pos rfl, if_pos rfl, hnil, List.append_nil]
        rfl
      · rw [if_neg (Ne.symm heq), if_neg heq, List.nil_append, ih hb.2.2]

end Branches

namespace IndexNode

@[simp] theorem valuesAt_empty (path : List Segment) : ({} : IndexNode α).valuesAt path = [] := by
  cases path <;> rfl

theorem valuesAt_cons (s : Segment) (path : List Segment) (node : IndexNode α) :
    node.valuesAt (s :: path) = ((node.below.find? s).getD {}).valuesAt path := by
  rw [valuesAt]
  cases node.below.find? s with
  | none => simp
  | some child => rfl

/-- The values at the end of a path are those of the entries with this path, in order. -/
theorem filedUnder_entries {node : IndexNode α} (h : node.Sorted) (path : List Segment) :
    filedUnder node.entries path = node.valuesAt path := by
  induction path generalizing node with
  | nil =>
      have hbelow : filedUnder node.below.entries [] = [] :=
        filedUnder_eq_nil fun e he => Branches.path_ne_nil he
      rw [entries, filedUnder_append, hbelow, List.append_nil]
      simp [filedUnder, valuesAt, Function.comp_def, List.filter_map]
  | cons s path ih =>
      have hvalues : filedUnder (node.values.map fun a => (([] : List Segment), a)) (s :: path) =
          [] := by
        refine filedUnder_eq_nil fun e he => ?_
        obtain ⟨a, -, rfl⟩ := List.mem_map.mp he
        exact List.cons_ne_nil _ _ |>.symm
      rw [entries, filedUnder_append, hvalues, List.nil_append, Branches.filedUnder_entries h,
        ih (sorted_getD_find? h s), valuesAt_cons]

theorem mem_valuesAt_iff {node : IndexNode α} (h : node.Sorted) {path : List Segment} {a : α} :
    a ∈ node.valuesAt path ↔ (path, a) ∈ node.entries := by
  rw [← filedUnder_entries h, mem_filedUnder]

/-- A value is filed behind those that are there, and nowhere else. -/
theorem valuesAt_insert {node : IndexNode α} (h : node.Sorted) (path : List Segment) (a : α)
    (other : List Segment) :
    (node.insert path a).valuesAt other =
      node.valuesAt other ++ if other = path then [a] else [] := by
  induction path generalizing node other with
  | nil =>
      cases other with
      | nil => rfl
      | cons t other => simp [insert, valuesAt]
  | cons s path ih =>
      cases other with
      | nil => simp [insert, valuesAt]
      | cons t other =>
          rw [valuesAt_cons, valuesAt_cons, insert, Branches.getD_find?_alter h]
          by_cases hts : t = s
          · subst hts
            rw [if_pos rfl, ih (sorted_getD_find? h t)]
            simp
          · simp [hts]

/-- The value that is withdrawn is the first one at the end of the path that passes the test. -/
theorem removeFirst_fst (p : α → Bool) (path : List Segment) (node : IndexNode α) :
    (node.removeFirst p path).1 = (node.valuesAt path).find? p := by
  induction path generalizing node with
  | nil => rfl
  | cons s path ih =>
      rw [removeFirst, valuesAt]
      cases node.below.find? s with
      | none => rfl
      | some child => exact ih child

theorem sorted_removeFirst {p : α → Bool} {path : List Segment} {node : IndexNode α}
    (h : node.Sorted) : (node.removeFirst p path).2.Sorted := by
  induction path generalizing node with
  | nil => exact h
  | cons s path ih =>
      rw [removeFirst]
      cases hchild : node.below.find? s with
      | none => exact h
      | some child => exact Branches.sorted_alter h (ih (Branches.sorted_of_find? h hchild))

/-- A value is withdrawn from the end of the path, and from nowhere else. -/
theorem valuesAt_removeFirst {p : α → Bool} {path : List Segment} {node : IndexNode α}
    (hsorted : node.Sorted) (other : List Segment) :
    (node.removeFirst p path).2.valuesAt other =
      if other = path then (node.valuesAt path).eraseP p else node.valuesAt other := by
  induction path generalizing node other with
  | nil => cases other <;> simp [removeFirst, valuesAt]
  | cons s path ih =>
      rw [removeFirst]
      cases hchild : node.below.find? s with
      | none =>
          have hnothing : node.valuesAt (s :: path) = [] := by
            rw [valuesAt_cons, hchild, Option.getD_none, valuesAt_empty]
          rw [hnothing, List.eraseP_nil]
          dsimp only
          split
          · next hother => rw [hother, hnothing]
          · rfl
      | some child =>
          cases other with
          | nil => simp [valuesAt]
          | cons t other =>
              have hrest := ih (Branches.sorted_of_find? hsorted hchild) other
              rw [valuesAt_cons, valuesAt_cons, valuesAt_cons, Branches.getD_find?_alter hsorted,
                hchild]
              by_cases hts : t = s
              · subst hts
                rw [if_pos rfl, hchild]
                simpa using hrest
              · simp [hts]

end IndexNode

/-! ### Indexes -/

namespace AddressIndex

/-- The branches are in order everywhere. -/
def Sorted (index : AddressIndex α) : Prop := index.root.Sorted

theorem sorted_empty (w : Wildcards) : Sorted ({ wildcards := w } : AddressIndex α) := trivial

theorem Sorted.insert {index : AddressIndex α} (h : index.Sorted) (pattern : String) (a : α) :
    (index.insert pattern a).Sorted :=
  IndexNode.sorted_insert h

/-- Filing a value adds an entry. -/
theorem entries_insert {index : AddressIndex α} (h : index.Sorted) (pattern : String) (a : α) :
    (index.insert pattern a).entries.Perm
      ((index.wildcards.segments pattern, a) :: index.entries) :=
  IndexNode.entries_insert _ a h

theorem Sorted.removeFirst {index : AddressIndex α} (h : index.Sorted) (pattern : String)
    (p : α → Bool) : (index.removeFirst pattern p).2.Sorted :=
  IndexNode.sorted_removeFirst h

/-- A value under a pattern is withdrawn, and the others stay. -/
theorem exists_removeFirst {index : AddressIndex α} (h : index.Sorted) {pattern : String}
    {p : α → Bool} {a : α} (hmem : (index.wildcards.segments pattern, a) ∈ index.entries)
    (ha : p a) :
    ∃ a', (index.removeFirst pattern p).1 = some a' ∧ p a' ∧
      index.entries.Perm
        ((index.wildcards.segments pattern, a') :: (index.removeFirst pattern p).2.entries) :=
  IndexNode.exists_removeFirst h hmem ha

end AddressIndex

end Courier
