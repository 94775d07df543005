import Courier.Property.Container
import Courier.Proofs.Dictionary
import Courier.Proofs.Wire

/-!
# The Size of a Container

A container keeps the number of bytes of its encoded entries up to date instead of counting them
anew. `Properties.Made` says that a container came about by the operations on containers, and
the count of such a container is right: it is the sum over its entries. The number that
`encodeSize` announces is then the number of bytes that `encodeAs` writes, in any order of the
entries. The number of the entries is right as well. Within a change only the bytes are
(`Properties.Summed`), since the entries are counted at its end.

## Main results

* `Properties.Sized.putAll_eq`, `Properties.Sized.clearInternal_eq`: a change of several entries
  comes to changes of one entry after another.
* `Properties.Made.sized`: the running counts are right.
* `Properties.length_encodeAs`: what is announced is what is written.
-/

namespace Courier

namespace PropertyValue

theorem length_payload (v : PropertyValue) : v.payload.length + 1 = v.encodedSize := by
  cases v with
  | bytes data =>
      rw [payload, Wire.length_putBytes, encodedSize]
      omega
  | string s =>
      rw [payload, Wire.length_putText, encodedSize, Nat.add_comm]
  | _ => rfl

@[simp] theorem length_encode (v : PropertyValue) : v.encode.length = v.encodedSize := by
  rw [encode, List.length_cons, length_payload]

end PropertyValue

namespace Properties

/-- What is found after a value was stored: a stored null counts as no value. -/
theorem get?_put (p : Properties) (key : String) (v : PropertyValue) (other : String) :
    (p.put key v).get? other =
      if other = key then (some v).filter fun v => !v.isNull else p.get? other := by
  have hstored : (p.put key v).stored? other = if other = key then some v else p.stored? other := by
    cases h : p.entries with
    | none => simp [put, insertEntry, recount, stored?, h, Dictionary.get?_insert]
    | some d => simp [put, insertEntry, recount, stored?, h, Dictionary.get?_insert]
  rw [get?, hstored, get?, apply_ite (Option.filter _)]

@[simp] theorem length_encodeEntry (e : String × PropertyValue) :
    (encodeEntry e).length = entrySize e.1 e.2 := by
  rw [encodeEntry, List.length_append, Wire.length_putText, PropertyValue.length_encode, entrySize]

/-- The number of bytes of some entries. -/
def totalSize : List (String × PropertyValue) → Nat
  | [] => 0
  | e :: entries => entrySize e.1 e.2 + totalSize entries

@[simp] theorem totalSize_cons (e : String × PropertyValue)
    (entries : List (String × PropertyValue)) :
    totalSize (e :: entries) = entrySize e.1 e.2 + totalSize entries := rfl

theorem totalSize_perm {entries entries' : List (String × PropertyValue)}
    (h : entries.Perm entries') : totalSize entries = totalSize entries' := by
  induction h with
  | nil => rfl
  | cons e _ ih => rw [totalSize_cons, totalSize_cons, ih]
  | swap e f entries => exact Nat.add_left_comm ..
  | trans _ _ ih ih' => exact ih.trans ih'

theorem length_flatMap_encodeEntry (entries : List (String × PropertyValue)) :
    (entries.flatMap encodeEntry).length = totalSize entries := by
  induction entries with
  | nil => rfl
  | cons e entries ih =>
      rw [List.flatMap_cons, List.length_append, length_encodeEntry, ih, totalSize_cons]

/-! ### The running count -/

/-- The running count of bytes is the number of bytes of the entries. -/
def Summed (p : Properties) : Prop :=
  p.byteSize = totalSize p.toList

/-- Both running counts are right: that of the bytes and that of the entries. -/
structure Sized (p : Properties) : Prop where
  summed : p.Summed
  size_eq : p.size = p.toList.length

theorem Summed.recount {p : Properties} (h : p.Summed) : p.recount.Sized := ⟨h, rfl⟩

theorem Sized.recount_eq {p : Properties} (h : p.Sized) : p.recount = p := by
  rw [Properties.recount, ← h.size_eq]
  rfl

theorem sized_new : Sized {} := ⟨rfl, rfl⟩

theorem toList_insertEntry_perm (p : Properties) (key : String) (v : PropertyValue) :
    (p.insertEntry key v).toList.Perm
      ((key, v) :: ((p.entries.getD .empty).erase key).entries) :=
  Entries.insert_perm _

theorem toList_perm_of_stored? {p : Properties} {key : String} {old : PropertyValue}
    (h : p.stored? key = some old) :
    p.toList.Perm ((key, old) :: ((p.entries.getD .empty).erase key).entries) := by
  obtain ⟨_ | d, size, saw, count⟩ := p
  · cases h
  · exact Entries.perm_cons_erase h

theorem toList_eq_of_stored?_eq_none {p : Properties} {key : String}
    (h : p.stored? key = none) :
    p.toList = ((p.entries.getD .empty).erase key).entries := by
  obtain ⟨_ | d, size, saw, count⟩ := p
  · rfl
  · exact (Entries.erase_eq_self h d.sorted).symm

/-- An entry is part of what was counted. -/
theorem Summed.byteSize_eq_add {p : Properties} (h : p.Summed) {key : String}
    {old : PropertyValue} (hstored : p.stored? key = some old) :
    p.byteSize = entrySize key old +
      totalSize ((p.entries.getD .empty).erase key).entries := by
  rw [h, totalSize_perm (toList_perm_of_stored? hstored), totalSize_cons]

/-- Setting a key corrects the count by the difference of the values, or by the whole entry. -/
theorem Summed.insertEntry {p : Properties} (h : p.Summed) (key : String) (v : PropertyValue) :
    (p.insertEntry key v).Summed := by
  have hinsert := totalSize_perm (p.toList_insertEntry_perm key v)
  rw [totalSize_cons] at hinsert
  rw [Summed, hinsert]
  cases hs : p.stored? key with
  | none =>
      have hsize : (p.insertEntry key v).byteSize = p.byteSize + entrySize key v := by
        simp only [Properties.insertEntry, hs]
      rw [hsize, h, toList_eq_of_stored?_eq_none hs, Nat.add_comm]
  | some old =>
      have hsize : (p.insertEntry key v).byteSize =
          p.byteSize - old.encodedSize + v.encodedSize := by
        simp only [Properties.insertEntry, hs]
      rw [hsize, h.byteSize_eq_add hs]
      simp only [entrySize]
      omega

theorem Summed.eraseEntry {p : Properties} (h : p.Summed) (key : String) :
    (p.eraseEntry key).Summed := by
  unfold Properties.eraseEntry
  split
  · next d old hd hs =>
      have hsize := h.byteSize_eq_add hs
      rw [hd, Option.getD_some] at hsize
      rw [Summed, hsize, Nat.add_sub_cancel_left]
      rfl
  · exact h

/-- Counting a whole entry in and a whole entry off comes to what setting a key comes to. -/
theorem Summed.tally_eq_insertEntry {p : Properties} (h : p.Summed) (key : String)
    (v : PropertyValue) : p.tally key v = p.insertEntry key v := by
  cases hs : p.stored? key with
  | none => simp only [tally, Properties.insertEntry, hs]
  | some old =>
      have hsize := h.byteSize_eq_add hs
      have hcount : p.byteSize + entrySize key v - entrySize key old =
          p.byteSize - old.encodedSize + v.encodedSize := by
        simp only [entrySize] at hsize ⊢
        omega
      simp only [tally, Properties.insertEntry, hs, hcount]

/-- Entries that are read are put one after another. -/
theorem Summed.decodeEntries {count : Nat} {p q : Properties} {bytes rest : List UInt8}
    (h : p.Summed) (hread : Properties.decodeEntries count p bytes = (.ok q, rest)) :
    q.Summed := by
  induction count generalizing p bytes with
  | zero =>
      cases hread
      exact h
  | succ count ih =>
      obtain ⟨e, between, -, hread⟩ := Reader.eq_ok_of_bind hread
      rw [h.tally_eq_insertEntry] at hread
      exact ih (h.insertEntry e.1 e.2) hread

theorem Sized.put {p : Properties} (h : p.Sized) (key : String) (v : PropertyValue) :
    (p.put key v).Sized :=
  (h.summed.insertEntry key v).recount

theorem Sized.remove {p : Properties} (h : p.Sized) (key : String) : (p.remove key).Sized := by
  unfold Properties.remove
  split
  · exact h
  · exact (h.summed.eraseEntry key).recount

theorem Sized.clear {p : Properties} (h : p.Sized) : p.clear.Sized := by
  unfold Properties.clear
  split
  · exact ⟨rfl, rfl⟩
  · exact h.summed.recount

/-- A container that is read was never written to, or is filled with one entry after another and
then counted. -/
theorem eq_of_decode {q : Properties} {bytes rest : List UInt8}
    (hread : Properties.decode bytes = (.ok q, rest)) :
    q = {} ∨ ∃ count p between,
      Properties.decodeEntries count { entries := some .empty } between = (.ok p, rest) ∧
        q = p.recount := by
  obtain ⟨marker, between, -, hread⟩ := Reader.eq_ok_of_bind hread
  split at hread
  · cases hread
    exact .inl rfl
  · split at hread
    · obtain ⟨count, between', -, hread⟩ := Reader.eq_ok_of_bind hread
      obtain ⟨p, between'', hentries, hread⟩ := Reader.eq_ok_of_bind hread
      cases hread
      exact .inr ⟨count, p, between', hentries, rfl⟩
    · cases hread

theorem sized_of_decode {q : Properties} {bytes rest : List UInt8}
    (hread : Properties.decode bytes = (.ok q, rest)) : q.Sized := by
  rcases eq_of_decode hread with rfl | ⟨count, p, between, hentries, rfl⟩
  · exact sized_new
  · have hsummed : Summed { entries := some .empty } := rfl
    exact (hsummed.decodeEntries hentries).recount

theorem Sized.replaceFrom {p : Properties} (h : p.Sized) (bytes : List UInt8) :
    (p.replaceFrom bytes).1.Sized := by
  unfold Properties.replaceFrom
  split
  · next q rest hread =>
      have hq := sized_of_decode hread
      exact ⟨hq.summed, hq.size_eq⟩
  · exact h

/-! ### Changes of several entries -/

theorem Sized.putAll {p : Properties} (h : p.Sized) (q : Properties) : (p.putAll q).Sized := by
  unfold Properties.putAll
  split
  · exact Summed.recount (List.foldlRecOn _ _ h.summed fun _ hp e _ => hp.insertEntry e.1 e.2)
  · exact h

theorem Sized.clearInternal {p : Properties} (h : p.Sized) : p.clearInternal.Sized :=
  Summed.recount (List.foldlRecOn _ _ h.summed fun _ hp key _ => hp.eraseEntry key)

/-- Entries are counted anew after every one of them, or after all of them. -/
theorem recount_foldl_insertEntry (entries : List (String × PropertyValue)) (p : Properties) :
    (entries.foldl (fun (p : Properties) e => p.insertEntry e.1 e.2) p).recount =
      entries.foldl (fun (p : Properties) e => p.put e.1 e.2) p.recount := by
  induction entries generalizing p with
  | nil => rfl
  | cons e entries ih => exact ih (p.insertEntry e.1 e.2)

/-- The entries of another container are put in one after another. -/
theorem Sized.putAll_eq {p : Properties} (h : p.Sized) (q : Properties) :
    p.putAll q = q.toList.foldl (fun (p : Properties) e => p.put e.1 e.2) p := by
  obtain ⟨_ | d, size, saw, count⟩ := q
  · rfl
  · have hfold := recount_foldl_insertEntry d.entries p
    rw [h.recount_eq] at hfold
    exact hfold

theorem stored?_eq_none_of_toList {p : Properties} (h : p.toList = []) (key : String) :
    p.stored? key = none := by
  cases hs : p.stored? key with
  | none => rfl
  | some old =>
      have hperm := toList_perm_of_stored? hs
      rw [h] at hperm
      cases hperm.nil_eq

theorem eraseEntry_eq_self {p : Properties} {key : String} (h : p.stored? key = none) :
    p.eraseEntry key = p := by
  rw [eraseEntry, h]
  split
  · next hs => cases hs
  · rfl

/-- An empty container is left alone, which comes to looking for the entry in vain. -/
theorem remove_recount (p : Properties) (key : String) :
    p.recount.remove key = (p.eraseEntry key).recount := by
  rw [remove]
  split
  · next hempty =>
      have hnil : p.toList = [] := by
        simpa [isEmpty, size, recount, List.length_eq_zero_iff] using hempty
      rw [eraseEntry_eq_self (stored?_eq_none_of_toList hnil key)]
  · obtain ⟨_ | d, size, saw, count⟩ := p
    · rfl
    · cases hs : d.get? key with
      | none => simp only [eraseEntry, recount, stored?, Option.bind_some, hs, toList]
      | some old => simp only [eraseEntry, recount, stored?, Option.bind_some, hs, toList]

theorem recount_foldl_eraseEntry (keys : List String) (p : Properties) :
    (keys.foldl eraseEntry p).recount = keys.foldl remove p.recount := by
  induction keys generalizing p with
  | nil => rfl
  | cons key keys ih => rw [List.foldl_cons, List.foldl_cons, ih, remove_recount]

/-- Reserved keys are taken out one after another. -/
theorem Sized.clearInternal_eq {p : Properties} (h : p.Sized) :
    p.clearInternal = (p.names.filter isInternal).foldl Properties.remove p := by
  rw [Properties.clearInternal, recount_foldl_eraseEntry, h.recount_eq]

/-! ### Containers that came about by operations -/

/-- The container came about by the operations on containers. Entries that are put in from
another container, and reserved keys that are taken out together, come and go one by one. -/
inductive Made : Properties → Prop
  | new : Made {}
  | put {p : Properties} (key : String) (v : PropertyValue) : Made p → Made (p.put key v)
  | remove {p : Properties} (key : String) : Made p → Made (p.remove key)
  | clear {p : Properties} : Made p → Made p.clear
  | read {p : Properties} (bytes : List UInt8) : Made p → Made (p.replaceFrom bytes).1

/-- **The running counts are right** for every container that came about by operations. -/
theorem Made.sized {p : Properties} (h : p.Made) : p.Sized := by
  induction h with
  | new => exact sized_new
  | put key v _ ih => exact ih.put key v
  | remove key _ ih => exact ih.remove key
  | clear _ ih => exact ih.clear
  | read bytes _ ih => exact ih.replaceFrom bytes

theorem Made.foldl_put {p : Properties} (h : p.Made) (entries : List (String × PropertyValue)) :
    (entries.foldl (fun (p : Properties) e => p.put e.1 e.2) p).Made := by
  induction entries generalizing p with
  | nil => exact h
  | cons e entries ih => exact ih (h.put e.1 e.2)

theorem Made.putAll {p : Properties} (h : p.Made) (q : Properties) : (p.putAll q).Made := by
  rw [h.sized.putAll_eq]
  exact h.foldl_put q.toList

theorem made_ofList (entries : List (String × PropertyValue)) : (ofList entries).Made :=
  Made.new.foldl_put entries

theorem Made.clearInternal {p : Properties} (h : p.Made) : p.clearInternal.Made := by
  have hremove : ∀ (keys : List String) {p : Properties}, p.Made →
      (keys.foldl Properties.remove p).Made := by
    intro keys
    induction keys with
    | nil => exact id
    | cons key keys ih => exact fun hp => ih (hp.remove key)
  rw [h.sized.clearInternal_eq]
  exact hremove _ h

theorem length_encodeAs {p : Properties} {order : List (String × PropertyValue)}
    (h : p.Sized) (horder : order.Perm p.toList) : (p.encodeAs order).length = p.encodeSize := by
  obtain ⟨_ | d, size, saw, count⟩ := p
  · rfl
  · have hsize : size = totalSize order := h.summed.trans (totalSize_perm horder).symm
    simp only [encodeAs, encodeSize, List.length_cons, List.length_append, Wire.putLength,
      Wire.length_bigEndian, length_flatMap_encodeEntry, hsize]

theorem canonicalOrder_perm (p : Properties) : p.canonicalOrder.Perm p.toList :=
  List.mergeSort_perm ..

end Properties

end Courier
