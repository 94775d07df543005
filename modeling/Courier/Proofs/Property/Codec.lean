import Courier.Proofs.Property.Accounting

/-!
# Reading Back a Container

A container that was written, with its entries in any order, is read as a container with the
same entries and the same count. Only the memory of reserved keys starts anew: a container that
is read remembers the reserved keys that it has, not those that it had.

## Main results

* `PropertyValue.reads_decode`: a value and its tag.
* `Properties.reads_decode`: the container, with the entries in any order.
-/

namespace Courier

open Reader

namespace PropertyValue

/-- The lengths within the value fit their prefixes. -/
def Fits : PropertyValue → Prop
  | bytes data => Wire.FitsPrefix data.length
  | string s => Wire.FitsPrefix (Wire.textLength s)
  | _ => True

theorem fits_of_encodedSize {v : PropertyValue} (h : Wire.FitsPrefix v.encodedSize) : v.Fits := by
  cases v with
  | bytes data =>
      rw [encodedSize, Wire.FitsPrefix] at h
      rw [Fits, Wire.FitsPrefix]
      omega
  | string s =>
      rw [encodedSize, Wire.textSize, Wire.FitsPrefix] at h
      rw [Fits, Wire.FitsPrefix]
      omega
  | _ => exact trivial

theorem reads_decodePayload {v : PropertyValue} (h : v.Fits) :
    (decodePayload v.type).Reads v.payload v := by
  cases v with
  | null => exact .pure _
  | boolean b => exact (Wire.reads_getBool b).map boolean
  | byte n => exact (Wire.reads_getInt8 n).map byte
  | bytes data => exact (Wire.reads_getBytes h).map bytes
  | short n => exact (Wire.reads_getInt16 n).map short
  | int n => exact (Wire.reads_getInt32 n).map int
  | long n => exact (Wire.reads_getInt64 n).map long
  | float bits => exact (Wire.reads_getUInt32 bits).map float
  | double bits => exact (Wire.reads_getUInt64 bits).map double
  | char unit => exact (Wire.reads_getUInt16 unit).map char
  | string s => exact (Wire.reads_getText h).map string

/-- A value is read back from its tag and payload. -/
theorem reads_decode {v : PropertyValue} (h : v.Fits) : decode.Reads v.encode v := by
  refine (Wire.reads_getUInt8 v.type.tag).bind ?_
  rw [PropertyType.ofTag_tag]
  exact reads_decodePayload h

end PropertyValue

namespace Properties

/-- The lengths within an entry fit their prefixes. -/
def EntryFits (e : String × PropertyValue) : Prop :=
  Wire.FitsPrefix (Wire.textLength e.1) ∧ e.2.Fits

theorem entryFits_of_entrySize {e : String × PropertyValue}
    (h : Wire.FitsPrefix (entrySize e.1 e.2)) : EntryFits e := by
  rw [Wire.FitsPrefix, entrySize, Wire.textSize] at h
  constructor
  · rw [Wire.FitsPrefix]
    omega
  · apply PropertyValue.fits_of_encodedSize
    rw [Wire.FitsPrefix]
    omega

theorem reads_decodeEntry {e : String × PropertyValue} (h : EntryFits e) :
    decodeEntry.Reads (encodeEntry e) e :=
  (Wire.reads_getText h.1).bind ((PropertyValue.reads_decode h.2).map (Prod.mk e.1))

/-- Entries that can be read are read one after another into a container. -/
theorem reads_decodeEntries {ι : Type} {items : List ι} (bytes : ι → List UInt8)
    (entry : ι → String × PropertyValue)
    (h : ∀ item ∈ items, decodeEntry.Reads (bytes item) (entry item)) (p : Properties) :
    (decodeEntries items.length p).Reads (items.flatMap bytes)
      ((items.map entry).foldl (fun p e => p.tally e.1 e.2) p) := by
  induction items generalizing p with
  | nil => exact .pure p
  | cons item items ih =>
      refine (h item (.head _)).bind ?_
      exact ih (fun item hitem => h item (.tail _ hitem)) (p.tally (entry item).1 (entry item).2)

/-! ### Counting entries into a container one after another -/

/-- The container as it is read back: it has the same entries and the same count, and remembers
only the reserved keys that it has. -/
def asRead (p : Properties) : Properties :=
  { p with sawInternal := p.toList.any fun e => isInternal e.1 }

@[simp] theorem sameEntries_asRead (p : Properties) : p.asRead.sameEntries p := by
  simp [sameEntries, asRead]

/-- A container with entries whose bytes are counted right, as it is while it is read. -/
def gathering (d : Dictionary String PropertyValue) (saw : Bool) : Properties where
  entries := some d
  byteSize := totalSize d.entries
  sawInternal := saw

/-- A container with entries that are counted right. -/
def holding (d : Dictionary String PropertyValue) (saw : Bool) : Properties :=
  (gathering d saw).recount

theorem insert_entries_perm {d : Dictionary String PropertyValue} {key : String}
    (v : PropertyValue) (h : d.get? key = none) :
    (d.insert key v).entries.Perm ((key, v) :: d.entries) := by
  have hperm := Entries.insert_perm (k := key) (a := v) d.entries
  rwa [Entries.erase_eq_self h d.sorted] at hperm

/-- An entry that is counted in is set, and takes the place of the one with its key. -/
theorem gathering_tally (d : Dictionary String PropertyValue) (saw : Bool) (key : String)
    (v : PropertyValue) :
    (gathering d saw).tally key v = gathering (d.insert key v) (saw || isInternal key) := by
  have hsummed : (gathering d saw).Summed := rfl
  have hsize : ((gathering d saw).insertEntry key v).byteSize =
      totalSize (d.insert key v).entries := hsummed.insertEntry key v
  calc (gathering d saw).tally key v
      = { gathering (d.insert key v) (saw || isInternal key) with
          byteSize := ((gathering d saw).insertEntry key v).byteSize } :=
        hsummed.tally_eq_insertEntry key v
    _ = gathering (d.insert key v) (saw || isInternal key) := by rw [hsize]; rfl

/-- The entries of a dictionary with others set one after another. -/
def insertAll (d : Dictionary String PropertyValue) (order : List (String × PropertyValue)) :
    Dictionary String PropertyValue :=
  order.foldl (fun d e => d.insert e.1 e.2) d

theorem insertAll_cons (d : Dictionary String PropertyValue) (e : String × PropertyValue)
    (order : List (String × PropertyValue)) :
    insertAll d (e :: order) = insertAll (d.insert e.1 e.2) order := rfl

theorem foldl_tally_gathering (d : Dictionary String PropertyValue) (saw : Bool)
    (order : List (String × PropertyValue)) :
    order.foldl (fun (p : Properties) e => p.tally e.1 e.2) (gathering d saw) =
      gathering (insertAll d order) (saw || order.any fun e => isInternal e.1) := by
  induction order generalizing d saw with
  | nil => rw [List.any_nil, Bool.or_false]; rfl
  | cons e order ih => rw [List.foldl_cons, gathering_tally, ih, List.any_cons, Bool.or_assoc]; rfl

/-- Entries with different new keys are all there once they are set. -/
theorem insertAll_perm {d : Dictionary String PropertyValue}
    {order : List (String × PropertyValue)} (hnodup : (order.map Prod.fst).Nodup)
    (hnew : ∀ e ∈ order, d.get? e.1 = none) :
    (insertAll d order).entries.Perm (order ++ d.entries) := by
  induction order generalizing d with
  | nil => exact .refl _
  | cons e order ih =>
      obtain ⟨hne, hnodup⟩ := List.nodup_cons.mp hnodup
      have hrest : ∀ f ∈ order, (d.insert e.1 e.2).get? f.1 = none := by
        intro f hf
        have hf1 : f.1 ≠ e.1 := fun h => hne (h ▸ List.mem_map_of_mem hf)
        rw [Dictionary.get?_insert_of_ne hf1]
        exact hnew f (.tail _ hf)
      refine (ih hnodup hrest).trans ?_
      have hfirst := insert_entries_perm e.2 (hnew e (.head _))
      exact (hfirst.append_left order).trans List.perm_middle

theorem insertAll_empty_perm {order : List (String × PropertyValue)}
    (hnodup : (order.map Prod.fst).Nodup) : (insertAll .empty order).entries.Perm order := by
  have hperm : (insertAll .empty order).entries.Perm (order ++ []) :=
    insertAll_perm hnodup fun _ _ => rfl
  rwa [List.append_nil] at hperm

/-- Entries in increasing order of their keys are determined by what they are. -/
theorem eq_of_entries_perm {d d' : Dictionary String PropertyValue}
    (h : d.entries.Perm d'.entries) : d = d' := by
  obtain ⟨entries, hs⟩ := d
  obtain ⟨entries', hs'⟩ := d'
  simp only [hs.eq_of_mem_iff hs' fun _ => h.mem_iff]

theorem entrySize_le_totalSize {e : String × PropertyValue}
    {entries : List (String × PropertyValue)} (h : e ∈ entries) :
    entrySize e.1 e.2 ≤ totalSize entries := by
  induction h with
  | head => simp
  | tail _ _ ih =>
      rw [totalSize_cons]
      omega

theorem length_le_totalSize (entries : List (String × PropertyValue)) :
    entries.length ≤ totalSize entries := by
  induction entries with
  | nil => exact Nat.le_refl _
  | cons e entries ih =>
      rw [List.length_cons, totalSize_cons, entrySize, Wire.textSize]
      omega

/-- The number of the entries and the lengths within them fit their prefixes. -/
structure Fits (p : Properties) : Prop where
  size_fits : Wire.FitsPrefix p.size
  entry_fits : ∀ e ∈ p.toList, EntryFits e

/-- An encoding that is short enough as a whole is so in all its parts. -/
theorem Sized.fits {p : Properties} (h : p.Sized) (hfits : Wire.FitsPrefix p.encodeSize) :
    p.Fits := by
  obtain ⟨_ | d, size, saw, count⟩ := p
  · obtain rfl : count = 0 := h.size_eq
    exact ⟨show 0 < 0x80000000 by decide, nofun⟩
  · obtain rfl : size = totalSize d.entries := h.summed
    obtain rfl : count = d.entries.length := h.size_eq
    have htotal : totalSize d.entries < 0x80000000 :=
      Nat.lt_of_le_of_lt (Nat.le_add_left _ 5) hfits
    refine ⟨Nat.lt_of_le_of_lt (length_le_totalSize d.entries) htotal, fun e he => ?_⟩
    exact entryFits_of_entrySize (Nat.lt_of_le_of_lt (entrySize_le_totalSize he) htotal)

/-- A container that was written to is read from the marker, the number of its entries and the
entries. -/
theorem reads_decode_entries {ι : Type} {items : List ι} (bytes : ι → List UInt8)
    (entry : ι → String × PropertyValue) (hlength : Wire.FitsPrefix items.length)
    (h : ∀ item ∈ items, decodeEntry.Reads (bytes item) (entry item)) :
    decode.Reads (1 :: Wire.putLength items.length ++ items.flatMap bytes)
      (holding (insertAll .empty (items.map entry))
        ((items.map entry).any fun e => isInternal e.1)) := by
  have hread := (reads_decodeEntries bytes entry h (gathering .empty false)).map recount
  rw [foldl_tally_gathering, Bool.false_or] at hread
  exact (Wire.reads_getUInt8 1).bind ((Wire.reads_getLength hlength).bind hread)

/-- In whatever order the entries of a dictionary are set, they make up the dictionary. -/
theorem insertAll_empty {d : Dictionary String PropertyValue}
    {order : List (String × PropertyValue)} (horder : order.Perm d.entries) :
    insertAll .empty order = d :=
  eq_of_entries_perm
    ((insertAll_empty_perm ((horder.map Prod.fst).nodup_iff.mpr d.nodup_keys)).trans horder)

theorem reads_decode_holding {d : Dictionary String PropertyValue} {saw : Bool}
    {order : List (String × PropertyValue)} (horder : order.Perm d.entries)
    (hfits : (holding d saw).Fits) :
    decode.Reads ((holding d saw).encodeAs order) (holding d saw).asRead := by
  have hlength : Wire.FitsPrefix order.length := by
    rw [horder.length_eq]
    exact hfits.size_fits
  have hentries : ∀ e ∈ order, decodeEntry.Reads (encodeEntry e) e := fun e he =>
    reads_decodeEntry (hfits.entry_fits e (horder.mem_iff.mp he))
  have hread := reads_decode_entries encodeEntry id hlength hentries
  rw [List.map_id, insertAll_empty horder, horder.any_eq] at hread
  exact hread

/-- **Containers survive their encoding**, with the entries in any order. -/
theorem reads_decode {p : Properties} {order : List (String × PropertyValue)} (hsized : p.Sized)
    (horder : order.Perm p.toList) (hfits : p.Fits) :
    decode.Reads (p.encodeAs order) p.asRead := by
  obtain ⟨_ | d, size, saw, count⟩ := p
  · obtain rfl : size = 0 := hsized.summed
    obtain rfl : count = 0 := hsized.size_eq
    exact (Wire.reads_getUInt8 0).bind_nil (.pure _)
  · obtain rfl : size = totalSize d.entries := hsized.summed
    obtain rfl : count = d.entries.length := hsized.size_eq
    exact reads_decode_holding horder hfits

/-- A container that was read back came about by the operations as well. -/
theorem Made.asRead {p : Properties} (h : p.Made) (hfits : Wire.FitsPrefix p.encodeSize) :
    p.asRead.Made := by
  have hread := Made.new.read (p.encodeAs p.canonicalOrder)
  have hdecode := reads_decode h.sized p.canonicalOrder_perm (Sized.fits h.sized hfits)
  rw [replaceFrom, hdecode.eq] at hread
  simpa using hread

/-- **A container is read back from its encoding**, with the entries in any order and whatever
bytes follow. Exactly the encoding is consumed. What is read has the same content, by which a
container that was emptied differs from one that was never written to, and the same sizes. -/
theorem decode_encodeAs {p : Properties} {order : List (String × PropertyValue)} (hmade : p.Made)
    (hfits : p.Fits) (horder : order.Perm p.toList) (rest : List UInt8) :
    ∃ q, decode (p.encodeAs order ++ rest) = (.ok q, rest) ∧ q.sameEntries p ∧
      q.byteSize = p.byteSize ∧ q.encodeSize = p.encodeSize := by
  have hread := reads_decode hmade.sized horder hfits rest
  exact ⟨p.asRead, hread, p.sameEntries_asRead, rfl, rfl⟩

/-- Entries of many types, put into a container with a reserved key that was then taken out. -/
def assorted : Properties :=
  ((ofList [("_HQ_ROUTE_TO", .string "q1"), ("qty", .short (-3))]).putAll
    (ofList [("price", .float 0x7fa00000), ("rocket", .string "🚀"),
      ("raw", .bytes [0, 255]), ("none", .null)])).clearInternal

/-- The entries in reverse, with two bytes behind the container. -/
theorem decode_encodeAs_assorted :
    assorted.Made ∧ assorted.Fits ∧ assorted.toList.reverse.Perm assorted.toList ∧
      assorted.size = 5 ∧
      ∃ q, decode (assorted.encodeAs assorted.toList.reverse ++ [1, 2]) = (.ok q, [1, 2]) ∧
        q.sameEntries assorted ∧ q.byteSize = assorted.byteSize ∧
        q.encodeSize = assorted.encodeSize := by
  have hmade : assorted.Made := ((made_ofList _).putAll _).clearInternal
  have hfits : assorted.Fits :=
    Sized.fits hmade.sized (show assorted.encodeSize < 0x80000000 by decide +kernel)
  have horder : assorted.toList.reverse.Perm assorted.toList := List.reverse_perm _
  exact ⟨hmade, hfits, horder, by decide +kernel, decode_encodeAs hmade hfits horder [1, 2]⟩

end Properties

end Courier
