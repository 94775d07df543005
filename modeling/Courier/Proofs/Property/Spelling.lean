import Courier.Proofs.Property.Codec
import Courier.Proofs.Wire.Spelling

/-!
# What Stands in the Bytes of a Container

A container may stand in bytes in ways in which it is never written: a key may come again, and any
byte but zero stands for `true`. `Properties.Spelling` keeps what stands in the bytes as it is,
occurrence by occurrence. Reading accepts exactly the spellings whose lengths fit their prefixes,
and of each key it keeps the last occurrence.

The entries of a container that was read are therefore accounted for in its bytes. Its encoding is
not longer than they are, and just as long if no key comes twice. If in addition every byte of a
truth value is zero or one, the bytes are an encoding of the container.

## Main definitions

* `PropertyValue.Spelling`: a value as it stands in bytes.
* `Properties.Occurrence`, `Properties.Spelling`: an entry and a container as they stand in bytes.
* `Properties.Spelling.container`: what a spelling is read as.
* `Properties.Accounts`: what is said of a container and the spelling that it was read from.

## Main results

* `Properties.finds_decode`: reading accepts nothing but spellings that fit.
* `Properties.Spelling.eq_of_prefix`: bytes start with at most one spelling that fits.
* `Properties.decode_accounts`: a container that is read is accounted for in its bytes.
-/

namespace Courier

open Reader

/-! ### Values -/

namespace PropertyValue

/-- A value as it stands in bytes. Of a truth value the byte is kept, since every byte but zero
stands for `true`. -/
inductive Spelling where
  /-- A truth value, by its byte. -/
  | truth (b : UInt8)
  /-- A value of another type, in its only spelling. -/
  | only (v : PropertyValue) (h : v.type ≠ .boolean)

namespace Spelling

/-- The value that is spelled. -/
def value : Spelling → PropertyValue
  | truth b => boolean (b ≠ 0)
  | only v _ => v

/-- The bytes of the tag and the payload. -/
def bytes : Spelling → List UInt8
  | truth b => [PropertyType.boolean.tag, b]
  | only v _ => v.encode

/-- The byte of a truth value is zero or one. -/
def Plain : Spelling → Prop
  | truth b => b = 0 ∨ b = 1
  | only _ _ => True

theorem length_bytes (s : Spelling) : s.bytes.length = s.value.encodedSize := by
  cases s with
  | truth b => rfl
  | only v _ => exact v.length_encode

/-- A plain spelling is the one in which the value is written. -/
theorem Plain.bytes_eq {s : Spelling} (h : s.Plain) : s.bytes = s.value.encode := by
  cases s with
  | truth b => rcases h with rfl | rfl <;> rfl
  | only v _ => rfl

/-- A value with its bytes has one spelling. -/
theorem ext {s t : Spelling} (hvalue : s.value = t.value) (hbytes : s.bytes = t.bytes) :
    s = t := by
  cases s with
  | truth b =>
      cases t with
      | truth b' =>
          cases hbytes
          rfl
      | only v h => exact absurd (congrArg type hvalue).symm h
  | only v h =>
      cases t with
      | truth b' => exact absurd (congrArg type hvalue) h
      | only w h' =>
          cases hvalue
          rfl

theorem reads_decode {s : Spelling} (h : s.value.Fits) : decode.Reads s.bytes s.value := by
  cases s with
  | truth b =>
      refine (Wire.reads_getUInt8 PropertyType.boolean.tag).bind ?_
      exact ((Wire.reads_getUInt8 b).map fun b => decide (b ≠ 0)).map boolean
  | only v _ => exact PropertyValue.reads_decode h

/-- Bytes start with one spelling of a value at most. -/
theorem eq_of_prefix {s t : Spelling} {xs ys : List UInt8} (hs : s.value.Fits) (ht : t.value.Fits)
    (h : s.bytes ++ xs = t.bytes ++ ys) : s = t ∧ xs = ys := by
  obtain ⟨hvalue, hbytes, hrest⟩ := (reads_decode hs).inj (reads_decode ht) h
  exact ⟨ext hvalue hbytes, hrest⟩

end Spelling

/-- The payload of a value of a type, as it stands in bytes. -/
def PayloadSpelled (type : PropertyType) (v : PropertyValue) (xs : List UInt8) : Prop :=
  ∃ s : Spelling, s.bytes = type.tag :: xs ∧ s.value = v ∧ v.Fits

/-- A payload that is found in its only spelling. -/
theorem finds_only {α : Type} {read : Reader α} {spelled : α → List UInt8 → Prop}
    {f : α → PropertyValue} {type : PropertyType} (h : read.Finds spelled)
    (hne : type ≠ .boolean) (htype : ∀ a, (f a).type = type)
    (hf : ∀ a xs, spelled a xs → xs = (f a).payload ∧ (f a).Fits) :
    (read >>= fun a => pure (f a)).Finds (PayloadSpelled type) := by
  refine h.map f fun a xs ha => ?_
  obtain ⟨rfl, hfits⟩ := hf a xs ha
  refine ⟨.only (f a) (htype a ▸ hne), ?_, rfl, hfits⟩
  rw [Spelling.bytes, encode, htype]

theorem finds_decodePayload (type : PropertyType) :
    (decodePayload type).Finds (PayloadSpelled type) := by
  cases type with
  | null => exact .pure ⟨.only null nofun, rfl, rfl, trivial⟩
  | boolean =>
      refine Wire.finds_getBool.map _ ?_
      rintro _ _ ⟨byte, rfl, rfl⟩
      exact ⟨.truth byte, rfl, rfl, trivial⟩
  | byte => exact finds_only Wire.finds_getInt8 nofun (fun _ => rfl) fun _ xs h => ⟨h, trivial⟩
  | bytes => exact finds_only Wire.finds_getBytes nofun (fun _ => rfl) fun _ xs h => h
  | short => exact finds_only Wire.finds_getInt16 nofun (fun _ => rfl) fun _ xs h => ⟨h, trivial⟩
  | int => exact finds_only Wire.finds_getInt32 nofun (fun _ => rfl) fun _ xs h => ⟨h, trivial⟩
  | long => exact finds_only Wire.finds_getInt64 nofun (fun _ => rfl) fun _ xs h => ⟨h, trivial⟩
  | float => exact finds_only Wire.finds_getUInt32 nofun (fun _ => rfl) fun _ xs h => ⟨h, trivial⟩
  | double => exact finds_only Wire.finds_getUInt64 nofun (fun _ => rfl) fun _ xs h => ⟨h, trivial⟩
  | string => exact finds_only Wire.finds_getText nofun (fun _ => rfl) fun _ xs h => h
  | char => exact finds_only Wire.finds_getUInt16 nofun (fun _ => rfl) fun _ xs h => ⟨h, trivial⟩

theorem tag_of_ofTag {tag : UInt8} {type : PropertyType} (h : PropertyType.ofTag tag = .ok type) :
    type.tag = tag := by
  rw [PropertyType.ofTag.eq_def] at h
  split at h <;> cases h <;> rfl

/-- A value that is read stands in the bytes in one of its spellings. -/
theorem finds_decode :
    decode.Finds fun v xs => ∃ s : Spelling, xs = s.bytes ∧ s.value = v ∧ v.Fits := by
  refine Wire.finds_getUInt8.bind ?_
  rintro tag _ rfl
  split
  · next type htag =>
      intro bytes v rest h
      obtain ⟨xs, rfl, s, hbytes, hvalue⟩ := finds_decodePayload type h
      refine ⟨xs, rfl, s, ?_, hvalue⟩
      rw [hbytes, tag_of_ofTag htag]
      rfl
  · exact .fail ..

end PropertyValue

namespace Properties

/-! ### Entries -/

/-- An entry as it stands in bytes. -/
structure Occurrence where
  /-- The key. -/
  key : String
  /-- The value. -/
  value : PropertyValue.Spelling

namespace Occurrence

/-- The entry that is spelled. -/
def entry (o : Occurrence) : String × PropertyValue :=
  (o.key, o.value.value)

/-- The bytes of the key and the value. -/
def bytes (o : Occurrence) : List UInt8 :=
  Wire.putText o.key ++ o.value.bytes

theorem length_bytes (o : Occurrence) : o.bytes.length = entrySize o.entry.1 o.entry.2 := by
  rw [bytes, List.length_append, Wire.length_putText, o.value.length_bytes]
  rfl

theorem bytes_eq {o : Occurrence} (h : o.value.Plain) : o.bytes = encodeEntry o.entry := by
  rw [bytes, h.bytes_eq]
  rfl

theorem eq_of_prefix {o o' : Occurrence} {xs ys : List UInt8} (ho : EntryFits o.entry)
    (ho' : EntryFits o'.entry) (h : o.bytes ++ xs = o'.bytes ++ ys) : o = o' ∧ xs = ys := by
  obtain ⟨key, value⟩ := o
  obtain ⟨key', value'⟩ := o'
  rw [bytes, bytes, List.append_assoc, List.append_assoc] at h
  obtain ⟨rfl, -, hrest⟩ := (Wire.reads_getText ho.1).inj (Wire.reads_getText ho'.1) h
  have hvalues : value = value' ∧ xs = ys :=
    PropertyValue.Spelling.eq_of_prefix ho.2 ho'.2 hrest
  exact ⟨congrArg (Occurrence.mk key) hvalues.1, hvalues.2⟩

/-- So many entries stand in bytes in one way at most. -/
theorem eq_of_flatMap {items items' : List Occurrence} {xs ys : List UInt8}
    (hitems : ∀ o ∈ items, EntryFits o.entry) (hitems' : ∀ o ∈ items', EntryFits o.entry)
    (hlength : items.length = items'.length)
    (h : items.flatMap bytes ++ xs = items'.flatMap bytes ++ ys) : items = items' := by
  induction items generalizing items' with
  | nil => exact (List.length_eq_zero_iff.mp hlength.symm).symm
  | cons o items ih =>
      cases items' with
      | nil => cases hlength
      | cons o' items' =>
          obtain ⟨ho, hothers⟩ := List.forall_mem_cons.mp hitems
          obtain ⟨ho', hothers'⟩ := List.forall_mem_cons.mp hitems'
          rw [List.flatMap_cons, List.flatMap_cons, List.append_assoc, List.append_assoc] at h
          obtain ⟨rfl, hrest⟩ := eq_of_prefix ho ho' h
          rw [ih hothers hothers' (Nat.succ.inj hlength) hrest]

end Occurrence

theorem finds_decodeEntry :
    decodeEntry.Finds fun e xs => ∃ o : Occurrence, xs = o.bytes ∧ o.entry = e ∧ EntryFits e := by
  refine Wire.finds_getText.bind ?_
  rintro key _ ⟨rfl, hkey⟩
  refine PropertyValue.finds_decode.map _ ?_
  rintro _ _ ⟨value, rfl, rfl, hvalue⟩
  exact ⟨⟨key, value⟩, rfl, rfl, hkey, hvalue⟩

theorem finds_decodeEntries (count : Nat) (p : Properties) :
    (decodeEntries count p).Finds fun q xs => ∃ items : List Occurrence, items.length = count ∧
      (∀ o ∈ items, EntryFits o.entry) ∧ xs = items.flatMap Occurrence.bytes ∧
        q = (items.map Occurrence.entry).foldl (fun p e => p.tally e.1 e.2) p := by
  induction count generalizing p with
  | zero => exact .pure ⟨[], rfl, nofun, rfl, rfl⟩
  | succ count ih =>
      refine finds_decodeEntry.bind ?_
      rintro _ _ ⟨o, rfl, rfl, ho⟩
      intro bytes q rest h
      obtain ⟨_, rfl, items, rfl, hitems, rfl, rfl⟩ := ih (p.tally o.entry.1 o.entry.2) h
      exact ⟨_, rfl, o :: items, rfl, List.forall_mem_cons.mpr ⟨ho, hitems⟩, rfl, rfl⟩

/-! ### Containers -/

/-- A container as it stands in bytes. -/
inductive Spelling where
  /-- A container that was never written to. -/
  | unwritten
  /-- The entries, in which a key may come again. -/
  | written (items : List Occurrence)

namespace Spelling

/-- The entries as they stand in the bytes. -/
def items : Spelling → List Occurrence
  | unwritten => []
  | written items => items

/-- The keys as they stand in the bytes. -/
def keys (s : Spelling) : List String :=
  s.items.map Occurrence.key

/-- The value that stands last under a key. -/
def last? (s : Spelling) (key : String) : Option PropertyValue :=
  (s.items.reverse.find? fun o => o.key = key).map fun o => o.value.value

/-- The marker, and the number of the entries in front of them. -/
def bytes : Spelling → List UInt8
  | unwritten => [0]
  | written items => 1 :: Wire.putLength items.length ++ items.flatMap Occurrence.bytes

/-- The number of the entries and the lengths within them fit their prefixes. -/
structure Fits (s : Spelling) : Prop where
  length_fits : Wire.FitsPrefix s.items.length
  entry_fits : ∀ o ∈ s.items, EntryFits o.entry

/-- Every byte of a truth value is zero or one. -/
def Plain (s : Spelling) : Prop :=
  ∀ o ∈ s.items, o.value.Plain

/-- What the spelling is read as. -/
def container : Spelling → Properties
  | unwritten => {}
  | written items =>
    holding (insertAll .empty (items.map Occurrence.entry))
      ((items.map Occurrence.entry).any fun e => isInternal e.1)

end Spelling

/-- **A container that is read stands in the bytes in one of its spellings.** -/
theorem finds_decode :
    decode.Finds fun q xs => ∃ s : Spelling, s.Fits ∧ xs = s.bytes ∧ q = s.container := by
  refine Wire.finds_getUInt8.bind ?_
  rintro marker _ rfl
  split
  · next hzero =>
      subst hzero
      exact .pure ⟨.unwritten, ⟨show 0 < 0x80000000 by decide, nofun⟩, rfl, rfl⟩
  · split
    · next hone =>
        subst hone
        refine Wire.finds_getLength.bind ?_
        rintro count _ ⟨rfl, hcount⟩
        refine (finds_decodeEntries count _).map _ ?_
        rintro _ _ ⟨items, rfl, hitems, rfl, rfl⟩
        refine ⟨.written items, ⟨hcount, hitems⟩, rfl, ?_⟩
        exact congrArg recount (foldl_tally_gathering .empty false _)
    · exact .fail ..

/-! ### What is kept of the entries -/

/-- Of the entries that are set one after another the last one under a key is found. -/
theorem get?_insertAll (d : Dictionary String PropertyValue)
    (order : List (String × PropertyValue)) (key : String) :
    (insertAll d order).get? key =
      ((order.reverse.find? fun e => e.1 = key).map Prod.snd).or (d.get? key) := by
  induction order generalizing d with
  | nil => rfl
  | cons e order ih =>
      rw [insertAll_cons, ih, List.reverse_cons, List.find?_append, Dictionary.get?_insert,
        Option.map_or, Option.or_assoc]
      by_cases hkey : key = e.1
      · simp [hkey]
      · simp [hkey, Ne.symm hkey]

/-- An entry that is set takes the place of the one with its key. -/
theorem totalSize_insert (d : Dictionary String PropertyValue) (key : String) (v : PropertyValue) :
    totalSize (d.insert key v).entries + ((d.get? key).map (entrySize key)).getD 0 =
      entrySize key v + totalSize d.entries := by
  have hinsert := totalSize_perm (Entries.insert_perm (k := key) (a := v) d.entries)
  have hset : (d.insert key v).entries = d.entries.insert key v := rfl
  simp only [totalSize_cons] at hinsert
  rw [hset, hinsert]
  cases hget : d.get? key with
  | none => rw [Entries.erase_eq_self hget d.sorted]; rfl
  | some old =>
      have hold := totalSize_perm (Entries.perm_cons_erase hget)
      simp only [totalSize_cons] at hold
      simp only [Option.map_some, Option.getD_some]
      omega

theorem entrySize_pos (key : String) (v : PropertyValue) : 0 < entrySize key v := by
  rw [entrySize, Wire.textSize]
  omega

theorem totalSize_insert_le (d : Dictionary String PropertyValue) (key : String)
    (v : PropertyValue) :
    totalSize (d.insert key v).entries ≤ entrySize key v + totalSize d.entries ∧
      (totalSize (d.insert key v).entries = entrySize key v + totalSize d.entries ↔
        d.get? key = none) := by
  have hsize := totalSize_insert d key v
  cases hget : d.get? key with
  | none =>
      rw [hget, Option.map_none, Option.getD_none, Nat.add_zero] at hsize
      exact ⟨Nat.le_of_eq hsize, iff_of_true hsize rfl⟩
  | some old =>
      rw [hget, Option.map_some, Option.getD_some] at hsize
      have hpos := entrySize_pos key old
      exact ⟨by omega, iff_of_false (by omega) nofun⟩

/-- Keys differ and are new if the first one is new and the others are so after it was set. -/
theorem nodup_new_cons_iff {d : Dictionary String PropertyValue} {e : String × PropertyValue}
    {order : List (String × PropertyValue)} :
    (((e :: order).map Prod.fst).Nodup ∧ ∀ f ∈ e :: order, d.get? f.1 = none) ↔
      d.get? e.1 = none ∧ (order.map Prod.fst).Nodup ∧
        ∀ f ∈ order, (d.insert e.1 e.2).get? f.1 = none := by
  have hnew : ∀ f : String × PropertyValue,
      (d.insert e.1 e.2).get? f.1 = none ↔ f.1 ≠ e.1 ∧ d.get? f.1 = none := by
    intro f
    rw [Dictionary.get?_insert]
    split <;> simp [*]
  simp only [List.map_cons, List.nodup_cons, List.forall_mem_cons, hnew, List.mem_map]
  grind

/-- Entries that are set are not larger together than they are one by one, and just as large if
their keys are new and differ. -/
theorem totalSize_insertAll (d : Dictionary String PropertyValue)
    (order : List (String × PropertyValue)) :
    totalSize (insertAll d order).entries ≤ totalSize order + totalSize d.entries ∧
      (totalSize (insertAll d order).entries = totalSize order + totalSize d.entries ↔
        (order.map Prod.fst).Nodup ∧ ∀ e ∈ order, d.get? e.1 = none) := by
  induction order generalizing d with
  | nil =>
      have hnone : totalSize (insertAll d []).entries = totalSize [] + totalSize d.entries :=
        (Nat.zero_add _).symm
      exact ⟨Nat.le_of_eq hnone, iff_of_true hnone ⟨.nil, nofun⟩⟩
  | cons e order ih =>
      -- A key that comes again is there when it comes for the second time, and not at the start.
      obtain ⟨hfirst, hfirst'⟩ := totalSize_insert_le d e.1 e.2
      obtain ⟨hrest, hrest'⟩ := ih (d.insert e.1 e.2)
      rw [nodup_new_cons_iff, ← hfirst', ← hrest', insertAll_cons, totalSize_cons]
      omega

theorem any_insert (d : Dictionary String PropertyValue) (key : String) (v : PropertyValue)
    (p : String → Bool) :
    ((d.insert key v).entries.any fun e => p e.1) = (p key || d.entries.any fun e => p e.1) := by
  have hset : (d.insert key v).entries = d.entries.insert key v := rfl
  rw [hset, (Entries.insert_perm d.entries).any_eq, List.any_cons]
  cases hget : d.get? key with
  | none => rw [Entries.erase_eq_self hget d.sorted]
  | some old =>
      rw [(Entries.perm_cons_erase hget).any_eq, List.any_cons, ← Bool.or_assoc, Bool.or_self]

/-- The keys that are there in the end are those that were set and those that were there. -/
theorem any_insertAll (d : Dictionary String PropertyValue)
    (order : List (String × PropertyValue)) (p : String → Bool) :
    ((insertAll d order).entries.any fun e => p e.1) =
      ((order.any fun e => p e.1) || d.entries.any fun e => p e.1) := by
  induction order generalizing d with
  | nil => rfl
  | cons e order ih =>
      rw [insertAll_cons, ih, any_insert, List.any_cons, ← Bool.or_assoc, Bool.or_comm (p e.1)]

/-- What is read remembers the reserved keys that it has, so it is read back as it is. -/
theorem Spelling.asRead_container (s : Spelling) : s.container.asRead = s.container := by
  cases s with
  | unwritten => rfl
  | written items =>
      have hsaw := any_insertAll .empty (items.map Occurrence.entry) isInternal
      have hnone : (Dictionary.empty : Dictionary String PropertyValue).entries = [] := rfl
      rw [hnone, List.any_nil, Bool.or_false] at hsaw
      exact congrArg (holding _) hsaw

/-! ### What is said of a container that was read -/

namespace Spelling

theorem length_bytes_written (items : List Occurrence) :
    (written items).bytes.length = 5 + totalSize (items.map Occurrence.entry) := by
  have hitems : (items.flatMap Occurrence.bytes).length =
      totalSize (items.map Occurrence.entry) := by
    induction items with
    | nil => rfl
    | cons o items ih =>
        rw [List.flatMap_cons, List.length_append, o.length_bytes, ih]
        rfl
  rw [bytes, List.cons_append, List.length_cons, List.length_append, Wire.putLength,
    Wire.length_bigEndian, hitems]
  omega

theorem bytes_written_of_plain {items : List Occurrence} (h : (written items).Plain) :
    (written items).bytes =
      1 :: Wire.putLength (items.map Occurrence.entry).length ++
        (items.map Occurrence.entry).flatMap encodeEntry := by
  rw [bytes, List.length_map, List.flatMap_map]
  exact congrArg _ (List.flatMap_congr fun o ho => o.bytes_eq (h o ho))

/-- **Bytes start with one spelling at most.** -/
theorem eq_of_prefix {s t : Spelling} {xs ys : List UInt8} (hs : s.Fits) (ht : t.Fits)
    (h : s.bytes ++ xs = t.bytes ++ ys) : s = t := by
  cases s with
  | unwritten =>
      cases t with
      | unwritten => rfl
      | written => cases h
  | written items =>
      cases t with
      | unwritten => cases h
      | written items' =>
          rw [bytes, bytes, List.cons_append, List.cons_append, List.cons_append, List.cons_append,
            List.append_assoc, List.append_assoc] at h
          obtain ⟨hlength, -, hrest⟩ := (Wire.reads_getLength hs.length_fits).inj
            (Wire.reads_getLength ht.length_fits) (List.tail_eq_of_cons_eq h)
          exact congrArg written
            (Occurrence.eq_of_flatMap hs.entry_fits ht.entry_fits hlength hrest)

end Spelling

/-- What is said of a container and of the spelling that it was read from. -/
structure Accounts (q : Properties) (s : Spelling) : Prop where
  /-- Of each key the last value is kept. -/
  stored?_eq (key : String) : q.stored? key = s.last? key
  /-- The sizes of the entries that are left are counted. -/
  byteSize_eq : q.byteSize = totalSize q.toList
  encodeSize_le : q.encodeSize ≤ s.bytes.length
  encodeSize_eq_iff : q.encodeSize = s.bytes.length ↔ s.keys.Nodup
  /-- Without a key that comes again and with plain truth values, the bytes are those that are
  written for the container. -/
  encoding (hkeys : s.keys.Nodup) (hplain : s.Plain) :
    ∃ order, order.Perm q.toList ∧ s.bytes = q.encodeAs order

theorem accounts_unwritten : Accounts {} .unwritten where
  stored?_eq _ := rfl
  byteSize_eq := rfl
  encodeSize_le := Nat.le_refl _
  encodeSize_eq_iff := iff_of_true rfl .nil
  encoding _ _ := ⟨[], .refl _, rfl⟩

theorem accounts_written (items : List Occurrence) :
    (Spelling.written items).container.Accounts (.written items) := by
  have hkeys : (items.map Occurrence.entry).map Prod.fst = (Spelling.written items).keys :=
    List.map_map
  obtain ⟨hle, heq⟩ := totalSize_insertAll .empty (items.map Occurrence.entry)
  have hlength := Spelling.length_bytes_written items
  have hnew : ∀ e ∈ items.map Occurrence.entry,
      (Dictionary.empty : Dictionary String PropertyValue).get? e.1 = none := fun _ _ => rfl
  have hsize : (Spelling.written items).container.encodeSize =
      5 + totalSize (insertAll .empty (items.map Occurrence.entry)).entries := rfl
  have hnone : totalSize (Dictionary.empty : Dictionary String PropertyValue).entries = 0 := rfl
  rw [hnone, Nat.add_zero] at hle heq
  rw [hkeys] at heq
  constructor
  case stored?_eq =>
    intro key
    have hget := get?_insertAll .empty (items.map Occurrence.entry) key
    rw [← List.map_reverse, List.find?_map, Dictionary.get?_empty, Option.or_none,
      Option.map_map] at hget
    exact hget
  case byteSize_eq => rfl
  case encodeSize_le => omega
  case encodeSize_eq_iff =>
    rw [hsize, hlength, Nat.add_left_cancel_iff, heq, and_iff_left hnew]
  case encoding =>
    intro hnodup hplain
    exact ⟨items.map Occurrence.entry, (insertAll_empty_perm (hkeys ▸ hnodup)).symm,
      Spelling.bytes_written_of_plain hplain⟩

theorem Spelling.accounts (s : Spelling) : s.container.Accounts s := by
  cases s with
  | unwritten => exact accounts_unwritten
  | written items => exact accounts_written items

/-- **A container that is read is accounted for in its bytes.** One spelling stands at their front,
and no other one does; the container is what is left of its entries. -/
theorem decode_accounts {bytes rest : List UInt8} {q : Properties}
    (h : decode bytes = (.ok q, rest)) :
    ∃ s : Spelling, s.Fits ∧ bytes = s.bytes ++ rest ∧ q.Accounts s ∧
      ∀ (t : Spelling) (after : List UInt8), t.Fits → bytes = t.bytes ++ after → t = s := by
  obtain ⟨_, rfl, s, hfits, rfl, rfl⟩ := finds_decode h
  exact ⟨s, hfits, rfl, s.accounts, fun t after ht h => (Spelling.eq_of_prefix hfits ht h).symm⟩

/-- Three entries in bytes: `q` is 3, `p` is true, by the byte 7, and `q` is 5. -/
def restated : List UInt8 :=
  [1, 0, 0, 0, 3, 0, 0, 0, 2, 0x71, 0, 6, 0, 0, 0, 3, 0, 0, 0, 2, 0x70, 0, 2, 7,
    0, 0, 0, 2, 0x71, 0, 6, 0, 0, 0, 5]

/-- A key comes again and a truth value is not plain, with one byte behind the container. -/
theorem decode_accounts_restated :
    decode (restated ++ [9]) = (.ok (ofList [("p", .boolean true), ("q", .int 5)]), [9]) ∧
      ∃ s : Spelling, s.Fits ∧ restated ++ [9] = s.bytes ++ [9] ∧
        (ofList [("p", .boolean true), ("q", .int 5)]).Accounts s ∧
        ∀ (t : Spelling) (after : List UInt8), t.Fits → restated ++ [9] = t.bytes ++ after →
          t = s := by
  have hread : decode (restated ++ [9]) =
      (.ok (ofList [("p", .boolean true), ("q", .int 5)]), [9]) := by decide +kernel
  exact ⟨hread, decode_accounts hread⟩

end Properties

end Courier
