/-!
# Dictionaries

A dictionary maps keys to values. Its entries are kept as a list with strictly increasing keys,
so that two dictionaries that answer every look-up alike are equal, and a walk over the entries
meets the keys in order.

The operations are first defined on plain entry lists, for data types that contain themselves
through a dictionary, and then on the bundled type, which carries the proof that the keys
increase.

## Main definitions

* `Entries.find?`, `Entries.insert`, `Entries.erase`: the operations on entry lists.
* `Entries.Sorted`: the keys increase strictly.
* `Dictionary`: an entry list with that proof.

## Main results

* `Entries.sorted_insert`, `Entries.sorted_erase`: the operations keep the order.
* `Entries.find?_insert`, `Entries.find?_erase`: what a look-up sees after an operation.
-/

namespace Courier

variable {κ α : Type}

/-- A list of keys with their values. -/
abbrev Entries (κ α : Type) : Type := List (κ × α)

namespace Entries

/-- The keys increase strictly from entry to entry. -/
def Sorted [Ord κ] (entries : Entries κ α) : Prop :=
  entries.Pairwise fun e f => compare e.1 f.1 = .lt

/-- The value under a key. -/
def find? [Ord κ] (k : κ) : Entries κ α → Option α
  | [] => none
  | (k', a) :: rest =>
    match compare k k' with
    | .lt => none
    | .eq => some a
    | .gt => find? k rest

/-- The entries with the value under a key set. -/
def insert [Ord κ] (k : κ) (a : α) : Entries κ α → Entries κ α
  | [] => [(k, a)]
  | (k', a') :: rest =>
    match compare k k' with
    | .lt => (k, a) :: (k', a') :: rest
    | .eq => (k, a) :: rest
    | .gt => (k', a') :: insert k a rest

/-- The entries without the one under a key. -/
def erase [Ord κ] (k : κ) : Entries κ α → Entries κ α
  | [] => []
  | (k', a') :: rest =>
    match compare k k' with
    | .lt => (k', a') :: rest
    | .eq => rest
    | .gt => (k', a') :: erase k rest

section Lemmas

variable [Ord κ]

theorem sorted_nil : Sorted ([] : Entries κ α) := List.Pairwise.nil

theorem mem_insert {k : κ} {a : α} {entries : Entries κ α} {e : κ × α}
    (h : e ∈ entries.insert k a) : e = (k, a) ∨ e ∈ entries := by
  induction entries with
  | nil => simpa [insert] using h
  | cons f rest ih =>
    obtain ⟨k', a'⟩ := f
    simp only [insert] at h
    split at h <;> simp only [List.mem_cons] at h ⊢
    · exact h
    · exact h.imp id Or.inr
    · rcases h with h | h
      · exact .inr (.inl h)
      · exact (ih h).imp id Or.inr

theorem mem_of_mem_erase {k : κ} {entries : Entries κ α} {e : κ × α}
    (h : e ∈ entries.erase k) : e ∈ entries := by
  induction entries with
  | nil => simp [erase] at h
  | cons f rest ih =>
    obtain ⟨k', a'⟩ := f
    simp only [erase] at h
    split at h
    · exact h
    · exact .tail _ h
    · rcases List.mem_cons.1 h with rfl | h
      · exact .head _
      · exact .tail _ (ih h)

theorem Sorted.tail {e : κ × α} {entries : Entries κ α} (h : Sorted (e :: entries)) :
    entries.Sorted :=
  (List.pairwise_cons.1 h).2

/-- No entry after a key that comes before all of them has that key. -/
theorem find?_eq_none {k : κ} {entries : Entries κ α}
    (h : ∀ e ∈ entries, compare k e.1 = .lt) : entries.find? k = none := by
  cases entries with
  | nil => rfl
  | cons e rest => simp [find?, h e (.head _)]

theorem sorted_erase {k : κ} {entries : Entries κ α} (h : entries.Sorted) :
    (entries.erase k).Sorted := by
  induction entries with
  | nil => exact h
  | cons f rest ih =>
    obtain ⟨k', a'⟩ := f
    obtain ⟨hhead, htail⟩ := List.pairwise_cons.1 h
    simp only [erase]
    split
    · exact h
    · exact htail
    · exact List.pairwise_cons.2 ⟨fun e he => hhead e (mem_of_mem_erase he), ih htail⟩

variable [Std.TransOrd κ] [Std.LawfulEqOrd κ]

theorem sorted_insert {k : κ} {a : α} {entries : Entries κ α} (h : entries.Sorted) :
    (entries.insert k a).Sorted := by
  induction entries with
  | nil => exact List.pairwise_singleton ..
  | cons f rest ih =>
    obtain ⟨k', a'⟩ := f
    obtain ⟨hhead, htail⟩ := List.pairwise_cons.1 h
    simp only [insert]
    split
    · next hlt =>
      refine List.pairwise_cons.2 ⟨fun e he => ?_, h⟩
      rcases List.mem_cons.1 he with rfl | he
      · exact hlt
      · exact Std.TransCmp.lt_trans hlt (hhead e he)
    · next heq =>
      obtain rfl := Std.LawfulEqCmp.eq_of_compare heq
      exact List.pairwise_cons.2 ⟨hhead, htail⟩
    · next hgt =>
      refine List.pairwise_cons.2 ⟨fun e he => ?_, ih htail⟩
      rcases mem_insert he with rfl | he
      · exact Std.OrientedCmp.lt_of_gt hgt
      · exact hhead e he

/-- A look-up after an insertion finds the new value under its key and the old ones elsewhere. -/
theorem find?_insert [DecidableEq κ] {k k' : κ} {a : α} {entries : Entries κ α} :
    (entries.insert k a).find? k' = if k' = k then some a else entries.find? k' := by
  induction entries with
  | nil =>
    rcases hc : compare k' k with _ | _ | _
    · simp [insert, find?, hc, show k' ≠ k from fun h => by simp [h] at hc]
    · simp [insert, find?, Std.LawfulEqCmp.eq_of_compare hc]
    · simp [insert, find?, hc, show k' ≠ k from fun h => by simp [h] at hc]
  | cons e rest ih =>
    obtain ⟨f, b⟩ := e
    rcases hkf : compare k f with _ | _ | _
    · by_cases hk : k' = k
      · subst hk
        simp [insert, find?, hkf]
      · rcases hc : compare k' k with _ | _ | _
        · simp [insert, find?, hkf, hc, hk, Std.TransCmp.lt_trans hc hkf]
        · exact absurd (Std.LawfulEqCmp.eq_of_compare hc) hk
        · simp [insert, find?, hkf, hc, hk]
    · obtain rfl := Std.LawfulEqCmp.eq_of_compare hkf
      rcases hc : compare k' k with _ | _ | _
      · simp [insert, find?, hc, show k' ≠ k from fun h => by simp [h] at hc]
      · simp [insert, find?, Std.LawfulEqCmp.eq_of_compare hc]
      · simp [insert, find?, hc, show k' ≠ k from fun h => by simp [h] at hc]
    · rcases hc : compare k' f with _ | _ | _
      · have hk : k' ≠ k := fun h => by simp [h, hkf] at hc
        simp [insert, find?, hkf, hc, hk]
      · have hk : k' ≠ k := fun h => by simp [h, hkf] at hc
        simp [insert, find?, hkf, hc, hk]
      · simp [insert, find?, hkf, hc, ih]

/-- A look-up after an erasure finds nothing under its key and the old values elsewhere. -/
theorem find?_erase [DecidableEq κ] {k k' : κ} {entries : Entries κ α} (h : entries.Sorted) :
    (entries.erase k).find? k' = if k' = k then none else entries.find? k' := by
  induction entries with
  | nil => simp [erase, find?]
  | cons e rest ih =>
    obtain ⟨f, b⟩ := e
    have hrest := (List.pairwise_cons.1 h).1
    rcases hkf : compare k f with _ | _ | _
    · by_cases hk : k' = k
      · subst hk
        simp [erase, find?, hkf]
      · simp [erase, hkf, hk]
    · obtain rfl := Std.LawfulEqCmp.eq_of_compare hkf
      by_cases hk : k' = k
      · subst hk
        simpa [erase, hkf] using find?_eq_none hrest
      · rcases hc : compare k' k with _ | _ | _
        · simpa [erase, find?, hkf, hc, hk] using
            find?_eq_none fun e he => Std.TransCmp.lt_trans hc (hrest e he)
        · exact absurd (Std.LawfulEqCmp.eq_of_compare hc) hk
        · simp [erase, find?, hc, hk]
    · rcases hc : compare k' f with _ | _ | _
      · have hk : k' ≠ k := fun h => by simp [h, hkf] at hc
        simp [erase, find?, hkf, hc, hk]
      · have hk : k' ≠ k := fun h => by simp [h, hkf] at hc
        simp [erase, find?, hkf, hc, hk]
      · simp [erase, find?, hkf, hc, ih h.tail]

end Lemmas

end Entries

/-- Entries with strictly increasing keys. -/
structure Dictionary (κ α : Type) [Ord κ] where
  /-- The keys with their values, in key order. -/
  entries : Entries κ α
  /-- The keys increase strictly. -/
  sorted : entries.Sorted

namespace Dictionary

variable [Ord κ]

instance [DecidableEq κ] [DecidableEq α] : DecidableEq (Dictionary κ α) := fun d e =>
  if h : d.entries = e.entries then
    isTrue (by cases d; cases e; cases h; rfl)
  else isFalse fun hde => h (hde ▸ rfl)

/-- The dictionary without entries. -/
def empty : Dictionary κ α := ⟨[], List.Pairwise.nil⟩

instance : Inhabited (Dictionary κ α) := ⟨empty⟩

/-- The value under a key. -/
def get? (d : Dictionary κ α) (k : κ) : Option α :=
  d.entries.find? k

/-- Whether a key has a value. -/
def contains (d : Dictionary κ α) (k : κ) : Bool :=
  (d.get? k).isSome

/-- The number of entries. -/
def size (d : Dictionary κ α) : Nat :=
  d.entries.length

/-- The keys in order. -/
def keys (d : Dictionary κ α) : List κ :=
  d.entries.map Prod.fst

/-- The values in key order. -/
def values (d : Dictionary κ α) : List α :=
  d.entries.map Prod.snd

/-- The dictionary without the entry under a key. -/
def erase (d : Dictionary κ α) (k : κ) : Dictionary κ α :=
  ⟨d.entries.erase k, Entries.sorted_erase d.sorted⟩

section Ordered

variable [Std.TransOrd κ] [Std.LawfulEqOrd κ]

/-- The dictionary with the value under a key set. -/
def insert (d : Dictionary κ α) (k : κ) (a : α) : Dictionary κ α :=
  ⟨d.entries.insert k a, Entries.sorted_insert d.sorted⟩

end Ordered

end Dictionary

end Courier
