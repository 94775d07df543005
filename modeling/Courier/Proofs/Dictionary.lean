import Mathlib.Data.List.Nodup
import Mathlib.Data.List.Sort
import Courier.Dictionary

/-!
# What a Dictionary Holds

Two views of a dictionary are related here: the look-up, which answers for one key, and the
list of the values, which forgets the keys. Setting a key takes the old value out of that list
and puts the new one in, and every count over the values of a dictionary follows from that.

## Main results

* `Dictionary.get?_insert`, `Dictionary.get?_erase`: the look-up after a change.
* `Dictionary.values_perm_of_get?`: a value that is found is one of the values, and the others
  are those of the dictionary without its key.
* `Dictionary.values_insert_perm`: the values after a key was set.
* `Dictionary.mem_values_iff`: the values are what look-ups find.
* `Entries.Sorted.eq_of_find?`: entries in key order are known by their look-ups.
-/

namespace Courier

variable {κ α : Type} [Ord κ]

namespace Entries

/-- The entries with a key erased are those of the other keys. -/
theorem erase_eq_self {k : κ} {entries : Entries κ α} (h : entries.find? k = none)
    (hs : entries.Sorted) : entries.erase k = entries := by
  induction entries with
  | nil => rfl
  | cons e rest ih =>
      obtain ⟨k', a⟩ := e
      rw [find?] at h
      rw [erase]
      split at h
      · rfl
      · cases h
      · rw [ih h hs.tail]

/-- An entry that is set stands before those of the other keys, up to their order. -/
theorem insert_perm {k : κ} {a : α} (entries : Entries κ α) :
    (entries.insert k a).Perm ((k, a) :: entries.erase k) := by
  induction entries with
  | nil => exact .refl _
  | cons e rest ih =>
      obtain ⟨k', a'⟩ := e
      rw [insert, erase]
      split
      · exact .refl _
      · exact .refl _
      · exact (ih.cons _).trans (.swap ..)

/-- Setting an entry again replaces it. -/
theorem insert_insert_self [Std.ReflOrd κ] (k : κ) (a a' : α) (entries : Entries κ α) :
    (entries.insert k a).insert k a' = entries.insert k a' := by
  induction entries with
  | nil => simp [insert]
  | cons e rest ih =>
      obtain ⟨k', b⟩ := e
      rcases hc : compare k k' with _ | _ | _ <;> simp [insert, hc, ih]

variable [Std.LawfulEqOrd κ]

/-- An entry that is found stands before the others, up to their order. -/
theorem perm_cons_erase {k : κ} {a : α} {entries : Entries κ α}
    (h : entries.find? k = some a) : entries.Perm ((k, a) :: entries.erase k) := by
  induction entries with
  | nil => cases h
  | cons e rest ih =>
      obtain ⟨k', a'⟩ := e
      rw [find?] at h
      rw [erase]
      split at h
      · cases h
      · next heq =>
          obtain rfl := Std.LawfulEqCmp.eq_of_compare heq
          cases h
          exact .refl _
      · exact ((ih h).cons _).trans (.swap ..)

/-- Setting an entry that is there changes nothing. -/
theorem insert_eq_self {k : κ} {a : α} {entries : Entries κ α} (h : entries.find? k = some a) :
    entries.insert k a = entries := by
  induction entries with
  | nil => cases h
  | cons e rest ih =>
      obtain ⟨k', a'⟩ := e
      rw [find?] at h
      rw [insert]
      split at h
      · cases h
      · next heq =>
          obtain rfl := Std.LawfulEqCmp.eq_of_compare heq
          cases h
          rfl
      · rw [ih h]

variable [Std.TransOrd κ]

/-- The entries are exactly what look-ups find. -/
theorem find?_eq_some_iff {k : κ} {a : α} {entries : Entries κ α} (hs : entries.Sorted) :
    entries.find? k = some a ↔ (k, a) ∈ entries := by
  constructor
  · intro h
    exact (perm_cons_erase h).mem_iff.mpr (.head _)
  · intro h
    induction entries with
    | nil => cases h
    | cons e rest ih =>
        obtain ⟨k', a'⟩ := e
        rw [find?]
        rcases List.mem_cons.mp h with heq | h
        · cases heq
          simp only [Std.ReflCmp.compare_self]
        · have hlt := (List.pairwise_cons.mp hs).1 _ h
          rw [Std.OrientedCmp.gt_of_lt hlt]
          exact ih hs.tail h

/-- Entries are set in either order if the key of one comes before that of the other. -/
theorem insert_comm_of_lt {k k' : κ} (h : compare k k' = .lt) (a a' : α) (entries : Entries κ α) :
    (entries.insert k a).insert k' a' = (entries.insert k' a').insert k a := by
  have hgt : compare k' k = .gt := Std.OrientedCmp.gt_of_lt h
  induction entries with
  | nil => simp [insert, h, hgt]
  | cons e rest ih =>
      obtain ⟨f, b⟩ := e
      rcases hkf : compare k f with _ | _ | _
      · rcases hk'f : compare k' f with _ | _ | _ <;> simp [insert, h, hgt, hkf, hk'f]
      · obtain rfl := Std.LawfulEqCmp.eq_of_compare hkf
        simp [insert, hgt]
      · have hk'f : compare k' f = .gt := Std.TransCmp.gt_trans hgt hkf
        simp [insert, hkf, hk'f, ih]

/-- Entries with different keys are set in either order. -/
theorem insert_comm {k k' : κ} (h : k ≠ k') (a a' : α) (entries : Entries κ α) :
    (entries.insert k a).insert k' a' = (entries.insert k' a').insert k a := by
  rcases hc : compare k k' with _ | _ | _
  · exact insert_comm_of_lt hc a a' entries
  · exact absurd (Std.LawfulEqCmp.eq_of_compare hc) h
  · exact (insert_comm_of_lt (Std.OrientedCmp.lt_of_gt hc) a' a entries).symm

/-- Entries in key order are known by what they are. -/
theorem Sorted.eq_of_mem_iff {entries others : Entries κ α} (h : entries.Sorted)
    (hothers : others.Sorted) (hmem : ∀ e, e ∈ entries ↔ e ∈ others) : entries = others := by
  have hirrefl : Std.Irrefl fun e f : κ × α => compare e.1 f.1 = .lt :=
    ⟨fun e => by simp [Std.ReflCmp.compare_self]⟩
  have hantisymm : Std.Antisymm fun e f : κ × α => compare e.1 f.1 = .lt :=
    ⟨fun e _ hef hfe => absurd (Std.TransCmp.lt_trans hef hfe) (hirrefl.irrefl e)⟩
  exact List.Pairwise.eq_of_mem_iff h hothers hmem

/-- Entries in key order are known by what look-ups find. -/
theorem Sorted.eq_of_find? {entries others : Entries κ α} (h : entries.Sorted)
    (hothers : others.Sorted) (hfind : ∀ k, entries.find? k = others.find? k) :
    entries = others := by
  refine h.eq_of_mem_iff hothers fun e => ?_
  rw [← find?_eq_some_iff h, ← find?_eq_some_iff hothers, hfind]

end Entries

namespace Dictionary

@[simp] theorem get?_empty (k : κ) : (empty : Dictionary κ α).get? k = none := rfl

@[simp] theorem values_empty : (empty : Dictionary κ α).values = [] := rfl

/-- Erasing a key without a value changes nothing. -/
theorem erase_eq_self {d : Dictionary κ α} {k : κ} (h : d.get? k = none) : d.erase k = d := by
  obtain ⟨entries, hs⟩ := d
  simp only [erase, Entries.erase_eq_self h hs]

variable [Std.LawfulEqOrd κ]

/-- A value that is found is one of the values, and the others are those of the other keys. -/
theorem values_perm_of_get? {d : Dictionary κ α} {k : κ} {a : α} (h : d.get? k = some a) :
    d.values.Perm (a :: (d.erase k).values) :=
  (Entries.perm_cons_erase h).map Prod.snd

/-- The values are the one under a key, if there is one, and those of the other keys. -/
theorem values_perm_toList_append (d : Dictionary κ α) (k : κ) :
    d.values.Perm ((d.get? k).toList ++ (d.erase k).values) := by
  cases h : d.get? k with
  | none => rw [erase_eq_self h, Option.toList_none, List.nil_append]
  | some a => exact values_perm_of_get? h

/-- Keys that are set differ. -/
theorem nodup_keys (d : Dictionary κ α) : d.keys.Nodup := by
  refine List.pairwise_map.mpr (d.sorted.imp ?_)
  intro e f hlt heq
  simp [heq] at hlt

variable [Std.TransOrd κ]

/-- The values after a key was set are the new value and those of the other keys. -/
theorem values_insert_perm (d : Dictionary κ α) (k : κ) (a : α) :
    (d.insert k a).values.Perm (a :: (d.erase k).values) :=
  (Entries.insert_perm d.entries).map Prod.snd

/-- A key without a value brings a further value when it is set. -/
theorem values_insert_perm_of_get?_eq_none {d : Dictionary κ α} {k : κ} (a : α)
    (h : d.get? k = none) : (d.insert k a).values.Perm (a :: d.values) := by
  simpa only [erase_eq_self h] using d.values_insert_perm k a

/-- Setting a key to the value that it has changes nothing. -/
theorem insert_eq_self {d : Dictionary κ α} {k : κ} {a : α} (h : d.get? k = some a) :
    d.insert k a = d := by
  obtain ⟨entries, hs⟩ := d
  simp only [insert, Entries.insert_eq_self h]

/-- The values are exactly what look-ups find. -/
theorem mem_values_iff {d : Dictionary κ α} {a : α} :
    a ∈ d.values ↔ ∃ k, d.get? k = some a := by
  rw [values, List.mem_map]
  constructor
  · rintro ⟨⟨k, a⟩, h, rfl⟩
    exact ⟨k, (Entries.find?_eq_some_iff d.sorted).mpr h⟩
  · rintro ⟨k, h⟩
    exact ⟨(k, a), (Entries.find?_eq_some_iff d.sorted).mp h, rfl⟩

/-- A dictionary in which nothing is found is empty. -/
theorem eq_empty_of_get? {d : Dictionary κ α} (h : ∀ k, d.get? k = none) : d = empty := by
  obtain ⟨entries, hs⟩ := d
  obtain rfl : entries = [] := hs.eq_of_find? Entries.sorted_nil h
  rfl

theorem mem_keys_iff {d : Dictionary κ α} {k : κ} : k ∈ d.keys ↔ ∃ a, d.get? k = some a := by
  rw [keys, List.mem_map]
  constructor
  · rintro ⟨⟨k, a⟩, h, rfl⟩
    exact ⟨a, (Entries.find?_eq_some_iff d.sorted).mpr h⟩
  · rintro ⟨a, h⟩
    exact ⟨(k, a), (Entries.find?_eq_some_iff d.sorted).mp h, rfl⟩

/-- The values of different keys differ if look-ups say so. -/
theorem nodup_values {d : Dictionary κ α}
    (h : ∀ k k' a, d.get? k = some a → d.get? k' = some a → k = k') : d.values.Nodup := by
  refine List.Nodup.map_on ?_ (List.Nodup.of_map Prod.fst d.nodup_keys)
  rintro ⟨k, a⟩ he ⟨k', a'⟩ he' heq
  obtain rfl : a = a' := heq
  rw [h k k' a ((Entries.find?_eq_some_iff d.sorted).mpr he)
    ((Entries.find?_eq_some_iff d.sorted).mpr he')]

/-- Looking up all keys gives all values. -/
theorem filterMap_get?_keys (d : Dictionary κ α) : d.keys.filterMap d.get? = d.values := by
  rw [keys, values, List.filterMap_map, ← List.filterMap_eq_map]
  refine List.filterMap_congr fun e he => ?_
  exact (Entries.find?_eq_some_iff d.sorted).mpr he

variable [DecidableEq κ]

/-- What a look-up finds after a key was set. -/
theorem get?_insert (d : Dictionary κ α) (k : κ) (a : α) (k' : κ) :
    (d.insert k a).get? k' = if k' = k then some a else d.get? k' :=
  Entries.find?_insert

/-- What a look-up finds after a key was erased. -/
theorem get?_erase (d : Dictionary κ α) (k k' : κ) :
    (d.erase k).get? k' = if k' = k then none else d.get? k' :=
  Entries.find?_erase d.sorted

@[simp] theorem get?_insert_self (d : Dictionary κ α) (k : κ) (a : α) :
    (d.insert k a).get? k = some a := by
  rw [get?_insert, if_pos rfl]

theorem get?_insert_of_ne {d : Dictionary κ α} {k k' : κ} {a : α} (h : k' ≠ k) :
    (d.insert k a).get? k' = d.get? k' := by
  rw [get?_insert, if_neg h]

theorem get?_erase_of_ne {d : Dictionary κ α} {k k' : κ} (h : k' ≠ k) :
    (d.erase k).get? k' = d.get? k' := by
  rw [get?_erase, if_neg h]

end Dictionary

end Courier
