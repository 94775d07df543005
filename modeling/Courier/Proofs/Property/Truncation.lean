import Courier.Proofs.Property.Codec

/-!
# Containers That Are Cut Off

An encoding that ends too early is never taken for a shorter one. Wherever it is cut, in a count, a
length, a key, a tag or a payload, the reader asks for more bytes than are left and says so. A
container that is read in place of another one changes only if it is read as a whole.

## Main definitions

* `Reader.Starves`: a reader fails for lack of bytes on everything that some bytes start with but
  the whole of them.

## Main results

* `Reader.Starves.bind`: a format starves if its fields do, as long as those before are read.
* `PropertyValue.starves_decode`, `Properties.starves_decode`: values and containers.
* `Properties.replaceFrom_of_cut`: a container is not read from a cut encoding, and what fails to be
  read changes nothing.
-/

namespace Courier

variable {α β : Type}

namespace Reader

/-- The reader fails on every part that the bytes start with but the whole: it needs more bytes than
the part has left where it stands. -/
def Starves (read : Reader α) (bytes : List UInt8) : Prop :=
  ∀ cut, cut <+: bytes → cut ≠ bytes → ∃ required left,
    read cut = (.error (.underflow required left.length), left) ∧ left.length < required

/-- Nothing is cut off where nothing is read. -/
theorem starves_nil (read : Reader α) : read.Starves [] :=
  fun _ hcut hne => absurd (List.prefix_nil.mp hcut) hne

theorem starves_take {bytes : List UInt8} {count : Nat} (h : bytes.length = count) :
    (take count).Starves bytes := by
  intro cut hcut hne
  have hshort : cut.length < count :=
    h ▸ Nat.lt_of_le_of_ne hcut.length_le fun heq => hne (hcut.eq_of_length heq)
  exact ⟨count, cut, if_neg (Nat.not_le_of_lt hshort), hshort⟩

/-- What would come next does not matter to a reader that starved. -/
theorem Starves.bind_nil {read : Reader α} {xs : List UInt8} (h : read.Starves xs)
    (k : α → Reader β) : (read >>= k).Starves xs := by
  intro cut hcut hne
  obtain ⟨required, left, hread, hshort⟩ := h cut hcut hne
  refine ⟨required, left, ?_, hshort⟩
  change Reader.bind read k cut = _
  rw [Reader.bind, hread]

/-- Two readers one after another starve on the bytes of both: the cut is in those of the first, or
the first reads its own and the cut is in those of the second. -/
theorem Starves.bind {read : Reader α} {k : α → Reader β} {xs ys : List UInt8} {a : α}
    (h : read.Starves xs) (hread : read.Reads xs a) (hnext : (k a).Starves ys) :
    (read >>= k).Starves (xs ++ ys) := by
  intro cut hcut hne
  -- The cut is behind what the first reader reads, or within it.
  by_cases hfirst : xs <+: cut
  · obtain ⟨second, rfl⟩ := hfirst
    have hrest : second ≠ ys := fun heq => hne (by rw [heq])
    obtain ⟨required, left, hleft, hshort⟩ :=
      hnext second ((List.prefix_append_right_inj xs).mp hcut) hrest
    refine ⟨required, left, ?_, hshort⟩
    change Reader.bind read k (xs ++ second) = _
    rw [Reader.bind, hread]
    exact hleft
  · have hcut := (List.prefix_or_prefix_of_prefix hcut (List.prefix_append xs ys)).resolve_right
      hfirst
    exact h.bind_nil k cut hcut fun heq => hfirst (heq ▸ List.prefix_refl _)

end Reader

open Reader

/-! ### Numbers, byte arrays and texts -/

namespace Wire

variable {bytes : List UInt8}

theorem starves_getNat {count : Nat} (h : bytes.length = count) : (getNat count).Starves bytes :=
  (starves_take h).bind_nil _

theorem starves_getUInt8 (h : bytes.length = 1) : getUInt8.Starves bytes :=
  (starves_getNat h).bind_nil _

theorem starves_getUInt16 (h : bytes.length = 2) : getUInt16.Starves bytes :=
  (starves_getNat h).bind_nil _

theorem starves_getUInt32 (h : bytes.length = 4) : getUInt32.Starves bytes :=
  (starves_getNat h).bind_nil _

theorem starves_getUInt64 (h : bytes.length = 8) : getUInt64.Starves bytes :=
  (starves_getNat h).bind_nil _

theorem starves_getLength (h : bytes.length = 4) : getLength.Starves bytes :=
  ((starves_getUInt32 h).bind_nil _).bind_nil _

theorem starves_getBytes (h : FitsPrefix bytes.length) : getBytes.Starves (putBytes bytes) :=
  (starves_getLength (length_bigEndian ..)).bind (reads_getLength h) (starves_take rfl)

theorem starves_getText {s : String} (h : FitsPrefix (textLength s)) :
    getText.Starves (putText s) := by
  have heven : ¬textLength s % 2 ≠ 0 := by simp [textLength]
  refine (starves_getLength (length_bigEndian ..)).bind (reads_getLength h) ?_
  rw [if_neg heven]
  exact (starves_take (length_textUnits s)).bind_nil _

end Wire

/-! ### Values and containers -/

namespace PropertyValue

theorem starves_decodePayload {v : PropertyValue} (h : v.Fits) :
    (decodePayload v.type).Starves v.payload := by
  cases v with
  | null => exact starves_nil _
  | boolean b => exact ((Wire.starves_getUInt8 rfl).bind_nil _).bind_nil _
  | byte n => exact ((Wire.starves_getUInt8 rfl).bind_nil _).bind_nil _
  | bytes data => exact (Wire.starves_getBytes h).bind_nil _
  | short n => exact ((Wire.starves_getUInt16 (Wire.length_bigEndian ..)).bind_nil _).bind_nil _
  | int n => exact ((Wire.starves_getUInt32 (Wire.length_bigEndian ..)).bind_nil _).bind_nil _
  | long n => exact ((Wire.starves_getUInt64 (Wire.length_bigEndian ..)).bind_nil _).bind_nil _
  | float bits => exact (Wire.starves_getUInt32 (Wire.length_bigEndian ..)).bind_nil _
  | double bits => exact (Wire.starves_getUInt64 (Wire.length_bigEndian ..)).bind_nil _
  | char unit => exact (Wire.starves_getUInt16 (Wire.length_bigEndian ..)).bind_nil _
  | string s => exact (Wire.starves_getText h).bind_nil _

theorem starves_decode {v : PropertyValue} (h : v.Fits) : decode.Starves v.encode := by
  refine (Wire.starves_getUInt8 rfl).bind (Wire.reads_getUInt8 v.type.tag) ?_
  rw [PropertyType.ofTag_tag]
  exact starves_decodePayload h

end PropertyValue

namespace Properties

theorem starves_decodeEntry {e : String × PropertyValue} (h : EntryFits e) :
    decodeEntry.Starves (encodeEntry e) :=
  (Wire.starves_getText h.1).bind (Wire.reads_getText h.1)
    ((PropertyValue.starves_decode h.2).bind_nil _)

theorem starves_decodeEntries {order : List (String × PropertyValue)}
    (h : ∀ e ∈ order, EntryFits e) (p : Properties) :
    (decodeEntries order.length p).Starves (order.flatMap encodeEntry) := by
  induction order generalizing p with
  | nil => exact starves_nil _
  | cons e order ih =>
      have he := h e (.head _)
      refine (starves_decodeEntry he).bind (reads_decodeEntry he) ?_
      exact ih (fun e he => h e (.tail _ he)) (p.tally e.1 e.2)

/-- A container starves on its encoding, with the entries in any order. -/
theorem starves_decode {p : Properties} {order : List (String × PropertyValue)} (hsized : p.Sized)
    (horder : order.Perm p.toList) (hfits : p.Fits) : decode.Starves (p.encodeAs order) := by
  have hentries : ∀ e ∈ order, EntryFits e := fun e he =>
    hfits.entry_fits e (horder.mem_iff.mp he)
  obtain ⟨_ | d, size, saw, count⟩ := p
  · exact (Wire.starves_getUInt8 rfl).bind_nil _
  · obtain rfl : count = d.entries.length := hsized.size_eq
    have hlength : Wire.FitsPrefix order.length := horder.length_eq ▸ hfits.size_fits
    have hmarker : Wire.getUInt8.Starves [1] := Wire.starves_getUInt8 rfl
    have hcount : Wire.getLength.Starves (Wire.putLength order.length) :=
      Wire.starves_getLength (Wire.length_bigEndian ..)
    exact hmarker.bind (Wire.reads_getUInt8 1) <| hcount.bind (Wire.reads_getLength hlength) <|
      (starves_decodeEntries hentries _).bind_nil _

/-- **A container is not read from an encoding that is cut off**, wherever it is cut and in whatever
order the entries are: the reader needs more bytes than there are. Whatever bytes a container fails
to be read from, the one that it was to take the place of is as before. -/
theorem replaceFrom_of_cut {p : Properties} {order : List (String × PropertyValue)}
    (hmade : p.Made) (hfits : p.Fits) (horder : order.Perm p.toList) {cut : List UInt8}
    (hcut : cut <+: p.encodeAs order) (hne : cut ≠ p.encodeAs order) (target : Properties) :
    (∃ required left, left.length < required ∧
      target.replaceFrom cut = (target, .error (.underflow required left.length), left)) ∧
      ∀ bytes e, (target.replaceFrom bytes).2.1 = .error e →
        (target.replaceFrom bytes).1 = target := by
  refine ⟨?_, fun bytes e herror => ?_⟩
  · obtain ⟨required, left, hread, hshort⟩ := starves_decode hmade.sized horder hfits cut hcut hne
    exact ⟨required, left, hshort, by rw [replaceFrom, hread]⟩
  · rw [replaceFrom] at herror ⊢
    split at herror
    · cases herror
    · rfl

/-- The entries in reverse, cut in the payload of the fourth one. -/
theorem replaceFrom_of_cut_assorted :
    assorted.Made ∧ assorted.Fits ∧ assorted.toList.reverse.Perm assorted.toList ∧
      (assorted.encodeAs assorted.toList.reverse).take 77 <+:
        assorted.encodeAs assorted.toList.reverse ∧
      (assorted.encodeAs assorted.toList.reverse).take 77 ≠
        assorted.encodeAs assorted.toList.reverse ∧
      (let cut := (assorted.encodeAs assorted.toList.reverse).take 77
      let target := ofList [("_HQ_ROUTE_TO", .string "q1")]
      (∃ required left, left.length < required ∧
        target.replaceFrom cut = (target, .error (.underflow required left.length), left)) ∧
        ∀ bytes e, (target.replaceFrom bytes).2.1 = .error e →
          (target.replaceFrom bytes).1 = target) := by
  have hmade : assorted.Made := ((made_ofList _).putAll _).clearInternal
  have hfits : assorted.Fits :=
    Sized.fits hmade.sized (show assorted.encodeSize < 0x80000000 by decide +kernel)
  have horder : assorted.toList.reverse.Perm assorted.toList := List.reverse_perm _
  have hne : (assorted.encodeAs assorted.toList.reverse).take 77 ≠
      assorted.encodeAs assorted.toList.reverse := by decide +kernel
  exact ⟨hmade, hfits, horder, List.take_prefix .., hne,
    replaceFrom_of_cut hmade hfits horder (List.take_prefix ..) hne _⟩

end Properties

end Courier
