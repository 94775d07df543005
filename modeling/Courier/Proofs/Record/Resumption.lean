import Courier.Proofs.Record.Sessions
import Courier.Proofs.Record.Sizes

/-!
# Going On Behind a Wrong Length

A header may state any length. Where the bytes of that length are no record, the reader looks for
magic bytes among them and goes on there. A record behind the wrong header is then read, wherever
the wrong length ends: within the bytes in front of the record, right in front of it, or within the
record, whose magic bytes are found again and put back.

There is one exception. If the wrong length ends within the magic bytes of the record, these are
cut in two. The first part is among the bytes that are searched, which do not hold the magic bytes
as a whole, so it is thrown away, and the record is lost.

That it is lost needs an argument about sizes: the body of the record may hold bytes that are read
as messages of their own, but none of these is as large as the message of the record.

## Main definitions

* `StreamReader.Mislabelled`: bytes with a header, which may state any length.
* `StreamReader.Cut`: a length that ends within the magic bytes behind some bytes.

## Main results

* `StreamReader.Mislabelled.carries`: the stream carries the message behind a wrong length.
* `StreamReader.Mislabelled.carries_iff_of_cut`: what it carries if magic bytes are cut.
* `StreamReader.mem_queue_run`: what a reader takes from its bytes is not larger than they are.
* `StreamReader.feed_mislabelled_iff`: the message is read exactly if its magic bytes are not cut.
-/

namespace Courier

/-- Messages with the same content have records of one size. -/
theorem Message.recordBodySize_eq_of_sameContent {m n : Message} (hm : m.properties.Sized)
    (hn : n.properties.Sized) (h : n.sameContent m) : n.recordBodySize = m.recordBodySize := by
  rw [sameContent, Bool.and_eq_true, decide_eq_true_eq, Properties.sameEntries,
    decide_eq_true_eq] at h
  obtain ⟨hfields, hentries⟩ := h
  have hlist : n.properties.toList = m.properties.toList := by
    rw [Properties.toList, Properties.toList, hentries]
  have hbytes : n.properties.byteSize = m.properties.byteSize := by
    rw [hn.summed, hm.summed, hlist]
  have hproperties : n.properties.encodeSize = m.properties.encodeSize := by
    rw [Properties.encodeSize, Properties.encodeSize, hentries, hbytes]
  simp only [Message.mk.injEq] at hfields
  obtain ⟨-, haddress, hbody, -, -, -, hexpiration, huser, -⟩ := hfields
  rw [recordBodySize, recordBodySize, haddress, hexpiration, huser, hproperties, hbody]

namespace StreamReader

open Record

variable {x record : List UInt8} {header : RecordHeader} {m : Message} {messages : List Message}

/-- There are no magic bytes anywhere if none are found. -/
theorem not_magic_of_fromMagic?_eq_none {bytes : List UInt8} (h : fromMagic? bytes = none)
    (offset : Nat) : ¬magic <+: bytes.drop offset := by
  induction bytes generalizing offset with
  | nil =>
      rw [List.drop_nil]
      exact fun hmagic => absurd hmagic.length_le (by decide)
  | cons b bytes ih =>
      have hfirst : ¬magic <+: b :: bytes := by
        intro hmagic
        rw [fromMagic?_eq_some_self hmagic] at h
        cases h
      cases offset with
      | zero => exact hfirst
      | succ offset => exact ih (fromMagic?_cons_of_not hfirst ▸ h) offset

/-- Bytes with a header, which may state any length, and no magic bytes but the first ones. -/
structure Mislabelled (bytes : List UInt8) (header : RecordHeader) : Prop where
  peek_eq : RecordHeader.peek bytes = .ok (some header)
  magic_once : ∀ offset, 1 ≤ offset → ¬magic <+: bytes.drop offset

/-- A length ends within the magic bytes behind some bytes. -/
def Cut (bytes : List UInt8) (size : Nat) : Prop :=
  bytes.length < size ∧ size < bytes.length + magic.length

theorem Mislabelled.fromMagic?_drop (hx : Mislabelled x header) {offset : Nat}
    (hpos : 1 ≤ offset) : fromMagic? (x.drop offset) = none := by
  refine fromMagic?_eq_none fun more => ?_
  rw [List.drop_drop]
  exact hx.magic_once _ (by omega)

theorem Mislabelled.one_le_length (hx : Mislabelled x header) : 1 ≤ x.length :=
  Nat.le_trans (by decide) (RecordHeader.headerSize_le_of_peek hx.peek_eq)

theorem Mislabelled.peek_append (hx : Mislabelled x header) (record : List UInt8) :
    RecordHeader.peek (x ++ record) = .ok (some header) := by
  rw [RecordHeader.peek_append (RecordHeader.headerSize_le_of_peek hx.peek_eq), hx.peek_eq]

/-! ### What is kept of a record that cannot be read -/

/-- The rest of a stream behind a record of some length that cannot be read. -/
def recovered (bytes : List UInt8) (size : Nat) : List UInt8 :=
  (fromMagic? ((bytes.take size).drop 1)).getD [] ++ bytes.drop size

theorem recovered_of_lt {size : Nat} (hpos : 1 ≤ x.length) (hlt : x.length < size) :
    recovered (x ++ record) size =
      (fromMagic? (x.drop 1 ++ record.take (size - x.length))).getD [] ++
        record.drop (size - x.length) := by
  have htake : (x ++ record).take size = x ++ record.take (size - x.length) := by
    rw [List.take_append, List.take_of_length_le (Nat.le_of_lt hlt)]
  have hdrop : (x ++ record).drop size = record.drop (size - x.length) := by
    rw [List.drop_append, List.drop_of_length_le (Nat.le_of_lt hlt), List.nil_append]
  rw [recovered, htake, hdrop, List.drop_append_of_le_length hpos]

/-- Magic bytes that are found again are put back. -/
theorem Mislabelled.recovered_of_le (hx : Mislabelled x header) (hmagic : magic <+: record)
    {size : Nat} (hle : x.length + magic.length ≤ size) :
    recovered (x ++ record) size = record := by
  have hfound : magic <+: record.take (size - x.length) :=
    List.prefix_take_iff.mpr ⟨hmagic, by omega⟩
  have hlt : x.length < size := Nat.lt_of_lt_of_le (Nat.lt_add_of_pos_right (by decide)) hle
  rw [recovered_of_lt hx.one_le_length hlt,
    fromMagic?_append_of_none (hx.fromMagic?_drop (Nat.le_refl 1)) (not_severed_of_magic hfound _),
    fromMagic?_eq_some_self hfound, Option.getD_some, List.take_append_drop]

theorem Severed.mono {bytes later later' : List UInt8} (h : Severed bytes later)
    (hle : later <+: later') : Severed bytes later' := by
  obtain ⟨k, hlt, hpos, hend, hnext⟩ := h
  exact ⟨k, hlt, hpos, hend, hnext.trans hle⟩

/-- Of magic bytes that are cut the first ones are thrown away. -/
theorem Mislabelled.recovered_of_cut (hx : Mislabelled x header) (hmagic : magic <+: record)
    {size : Nat} (hcut : Cut x size) :
    recovered (x ++ record) size = record.drop (size - x.length) := by
  have hshort : size - x.length < magic.length :=
    Nat.sub_lt_left_of_lt_add (Nat.le_of_lt hcut.1) hcut.2
  have hpart : record.take (size - x.length) = magic.take (size - x.length) := by
    obtain ⟨rest, rfl⟩ := hmagic
    exact List.take_append_of_le_length (Nat.le_of_lt hshort)
  have hwhole : ¬Severed (x.drop 1) (magic.take (size - x.length)) := fun h =>
    not_severed_of_magic List.prefix_rfl _ (h.mono (List.take_prefix ..))
  have hnone : ∀ k < magic.length, fromMagic? (magic.take k) = none := by decide +kernel
  rw [recovered_of_lt hx.one_le_length hcut.1, hpart,
    fromMagic?_append_of_none (hx.fromMagic?_drop (Nat.le_refl 1)) hwhole, hnone _ hshort,
    Option.getD_none, List.nil_append]

/-- Before magic bytes nothing is kept of bytes that hold none. -/
theorem Mislabelled.recovered_of_ge (hx : Mislabelled x header) {size : Nat} (hpos : 1 ≤ size)
    (hge : size ≤ x.length) : recovered (x ++ record) size = x.drop size ++ record := by
  have hsplit : x.drop 1 = (x.take size).drop 1 ++ x.drop size := by
    rw [← List.drop_append_of_le_length (by rw [List.length_take]; omega), List.take_append_drop]
  have hnothing : fromMagic? ((x.take size).drop 1) = none :=
    fromMagic?_eq_none_of_append (hsplit ▸ hx.fromMagic?_drop (Nat.le_refl 1))
  rw [recovered, List.take_append_of_le_length hge, hnothing, Option.getD_none, List.nil_append,
    List.drop_append_of_le_length hge]

/-! ### What the stream carries -/

/-- **Behind a wrong length the stream carries what the record that follows carries**, unless the
magic bytes of that record are cut. -/
theorem Mislabelled.carries (hx : Mislabelled x header) (hmagic : magic <+: record)
    (hcomplete : header.recordSize ≤ (x ++ record).length)
    (hunreadable : ∃ e, read ((x ++ record).take header.recordSize) = .error e)
    (hwhole : ¬Cut x header.recordSize) (hrecord : Carries record messages) :
    Carries (x ++ record) messages := by
  obtain ⟨e, hread⟩ := hunreadable
  rw [carries_iff_of_unreadable (hx.peek_append record) hcomplete hread, ← recovered]
  rcases Nat.lt_or_ge x.length header.recordSize with hlt | hge
  · have hle : x.length + magic.length ≤ header.recordSize := by
      by_contra hshort
      exact hwhole ⟨hlt, Nat.lt_of_not_le hshort⟩
    rw [hx.recovered_of_le hmagic hle]
    exact hrecord
  · -- What is left in front of the record is skipped.
    rw [hx.recovered_of_ge header.recordSize_pos hge, ← carries_fromMagic?_iff,
      fromMagic?_append_of_none (hx.fromMagic?_drop header.recordSize_pos)
        (not_severed_of_magic hmagic _), fromMagic?_eq_some_self hmagic]
    exact hrecord

/-- **Behind a wrong length that cuts magic bytes** the stream carries what the record carries
without the first of these bytes. -/
theorem Mislabelled.carries_iff_of_cut (hx : Mislabelled x header) (hmagic : magic <+: record)
    (hcomplete : header.recordSize ≤ (x ++ record).length)
    (hunreadable : ∃ e, read ((x ++ record).take header.recordSize) = .error e)
    (hcut : Cut x header.recordSize) :
    Carries (x ++ record) messages ↔
      Carries (record.drop (header.recordSize - x.length)) messages := by
  obtain ⟨e, hread⟩ := hunreadable
  rw [carries_iff_of_unreadable (hx.peek_append record) hcomplete hread, ← recovered,
    hx.recovered_of_cut hmagic hcut]

/-! ### Sizes -/

/-- What a reader takes from its bytes is not larger than they are. -/
theorem mem_queue_run {r : StreamReader} (hr : r.Noted) {n : Message} (h : n ∈ r.run.1.queue) :
    n ∈ r.queue ∨ headerSize + n.recordBodySize ≤ r.buffer.length ∧ n.properties.Sized := by
  induction r using run.induct with
  | case1 r next hstep =>
      have hnext := hr.next
      rw [hstep] at hnext
      rw [run_of_wait hstep] at h
      cases hnext with
      | waits _ queue_eq => exact .inl (queue_eq ▸ h)
  | case2 r next e hstep =>
      have hnext := hr.next
      rw [hstep] at hnext
      rw [run_of_fail hstep] at h
      cases hnext with
      | fails => exact .inl h
  | case3 r next hstep ih =>
      have hfewer := length_lt_of_step_more hstep
      rw [run_of_more hstep] at h
      rcases ih (hr.of_step hstep).1 h with hqueued | ⟨hsize, hsized⟩
      · have hnext := hr.next
        rw [hstep] at hnext
        cases hnext with
        | skips => exact .inl hqueued
        | @takes header _ complete =>
            cases hread : read (r.buffer.take header.recordSize) with
            | error e => exact .inl ((takeRecord_of_error hread).2 ▸ hqueued)
            | ok m =>
                rw [(takeRecord_of_ok hread).2] at hqueued
                rcases List.mem_append.mp hqueued with hqueued | hqueued
                · exact .inl hqueued
                · obtain rfl := List.mem_singleton.mp hqueued
                  obtain ⟨hsize, hsized⟩ := recordSize_le_of_read hread
                  rw [List.length_take] at hsize
                  exact .inr ⟨by omega, hsized⟩
      · exact .inr ⟨by omega, hsized⟩

/-! ### Behind a wrong length -/

/-- **The message is lost if its magic bytes are cut**, whatever the record's own bytes are read
as. -/
theorem Mislabelled.not_mem_of_cut (hx : Mislabelled x header) (hmagic : magic <+: record)
    (hcomplete : header.recordSize ≤ (x ++ record).length)
    (hunreadable : ∃ e, read ((x ++ record).take header.recordSize) = .error e)
    (hcut : Cut x header.recordSize) (hm : m.properties.Sized)
    (hlength : record.length = headerSize + m.recordBodySize) :
    ¬∃ n ∈ (feed {} (x ++ record)).1.queue, n.sameContent m := by
  obtain ⟨e, hread⟩ := hunreadable
  rintro ⟨n, hqueued, hsame⟩
  have hnoted : (receive {} (x ++ record)).Noted := noted_new.receive _
  have hstep : (receive {} (x ++ record)).step =
      .more ((receive {} (x ++ record)).takeRecord header.recordSize) := by
    rw [hnoted.step_of_peek (hx.peek_append record), stepAt]
    exact if_neg (Nat.not_lt_of_le hcomplete)
  obtain ⟨hbuffer, hqueue⟩ := takeRecord_of_error (r := receive {} (x ++ record)) hread
  have hkept : ((receive {} (x ++ record)).takeRecord header.recordSize).buffer =
      record.drop (header.recordSize - x.length) :=
    hbuffer.trans (hx.recovered_of_cut hmagic hcut)
  rw [feed_fst, run_of_more hstep] at hqueued
  rcases mem_queue_run (noted_takeRecord _ _) hqueued with hqueued | ⟨hsize, hsized⟩
  · rw [hqueue] at hqueued
    cases hqueued
  · -- Without its first bytes the record is too short for the message.
    rw [hkept, List.length_drop, Message.recordBodySize_eq_of_sameContent hm hsized hsame] at hsize
    have hpositive := hcut.1
    have hsixteen : 0 < headerSize := by decide
    omega

/-- **Behind a wrong length a message is read exactly if its magic bytes are not cut.** Bytes with
a header and no other magic bytes stand in front of the record of a message whose times are whole
milliseconds. As many bytes as the header states are there, and they are not a record. A new reader
that is given all of this at once finds the message exactly if the stated length does not end behind
the first, second or third byte of the record; it then finds nothing else, and the call does not
fail. -/
theorem feed_mislabelled_iff {order : List (String × PropertyValue)} (hx : Mislabelled x header)
    (hm : m.Readable) (htimes : m.TimesWhole) (horder : order.Perm m.properties.toList)
    (hwritten : m.toRecordAs order = .ok record)
    (hcomplete : header.recordSize ≤ (x ++ record).length)
    (hunreadable : ∃ e, read ((x ++ record).take header.recordSize) = .error e) :
    ((∃ n ∈ (feed {} (x ++ record)).1.queue, n.sameContent m) ↔
        ¬(x.length < header.recordSize ∧ header.recordSize < x.length + magic.length)) ∧
      (¬(x.length < header.recordSize ∧ header.recordSize < x.length + magic.length) →
        (∃ n, (feed {} (x ++ record)).2 = .ok n) ∧
          (feed {} (x ++ record)).1.queue = [m.asRead]) := by
  obtain ⟨hsize, hrecord⟩ := toRecordAs_eq_ok_iff.mp hwritten
  have hmagic : magic <+: record := by
    rw [hrecord, withChecksum, front, List.append_assoc, List.append_assoc, List.append_assoc,
      List.append_assoc]
    exact List.prefix_append ..
  have hlength : record.length = headerSize + m.recordBodySize := by
    rw [length_record hm.properties_made horder hwritten, RecordHeader.recordSize,
      toNat_bodyLength hsize]
  have halone : Carries record [m.asRead] := by
    have hblock : Block (some m) record := .intact hm horder hwritten
    have h := hblock.carries (.short (by decide) : Carries [] [])
    rwa [List.append_nil] at h
  have hfound : ¬Cut x header.recordSize → (∃ n, (feed {} (x ++ record)).2 = .ok n) ∧
      (feed {} (x ++ record)).1.queue = [m.asRead] := fun hwhole =>
    feed_of_carries noted_new (hx.carries hmagic hcomplete hunreadable hwhole halone)
  refine ⟨⟨fun hread hcut => ?_, fun hwhole => ?_⟩, hfound⟩
  · exact hx.not_mem_of_cut hmagic hcomplete hunreadable hcut hm.properties_made.sized hlength hread
  · rw [(hfound hwhole).2]
    exact ⟨m.asRead, .head _, htimes.sameContent_asRead⟩

/-- A header that states a body of so many bytes, with a checksum that is none. -/
def sticker (bodyLength : UInt8) : List UInt8 :=
  magic ++ [version, 0, 0, 0, 0, 0, 0, bodyLength, 0, 0, 0, 0]

/-- A header is mislabelled if it has magic bytes only at its front. -/
theorem mislabelled_of_fromMagic?_eq_none (hpeek : RecordHeader.peek x = .ok (some header))
    (hnone : fromMagic? (x.drop 1) = none) : Mislabelled x header := by
  refine ⟨hpeek, fun offset hpos => ?_⟩
  have h := not_magic_of_fromMagic?_eq_none hnone (offset - 1)
  rwa [List.drop_drop, Nat.add_sub_cancel' hpos] at h

theorem exists_error_of_read {bytes : List UInt8} (h : (read bytes).isOk = false) :
    ∃ e, read bytes = .error e := by
  cases hread : read bytes with
  | error e => exact ⟨e, rfl⟩
  | ok m =>
      rw [hread] at h
      cases h

/-- A header that claims the first ten bytes of the parcel's record does not hide the parcel. -/
theorem feed_mislabelled_iff_sticker :
    Mislabelled (sticker 10) ⟨0, 10, 0⟩ ∧ parcel.Readable ∧ parcel.TimesWhole ∧
      26 ≤ (sticker 10 ++ parcelRecord).length ∧
      (∃ e, read ((sticker 10 ++ parcelRecord).take 26) = .error e) ∧
      (∃ n, (feed {} (sticker 10 ++ parcelRecord)).2 = .ok n) ∧
      (feed {} (sticker 10 ++ parcelRecord)).1.queue = [parcel.asRead] := by
  have hx : Mislabelled (sticker 10) ⟨0, 10, 0⟩ :=
    mislabelled_of_fromMagic?_eq_none (by decide +kernel) (by decide +kernel)
  have hcomplete : 26 ≤ (sticker 10 ++ parcelRecord).length := by decide +kernel
  have hunreadable : ∃ e, read ((sticker 10 ++ parcelRecord).take 26) = .error e :=
    exists_error_of_read (by decide +kernel)
  have hwhole : ¬((sticker 10).length < 26 ∧ 26 < (sticker 10).length + magic.length) := by
    decide
  have hreadable : parcel.Readable := ⟨by decide, .new⟩
  have htimes : parcel.TimesWhole := ⟨by decide, by decide⟩
  obtain ⟨hok, hqueue⟩ := (feed_mislabelled_iff hx hreadable htimes
    parcel.properties.canonicalOrder_perm toRecord_parcel hcomplete hunreadable).2 hwhole
  exact ⟨hx, hreadable, htimes, hcomplete, hunreadable, hok, hqueue⟩

/-- A header that claims the first two bytes of the parcel's record makes the reader lose the
parcel. -/
theorem feed_sticker_loses_parcel :
    Mislabelled (sticker 2) ⟨0, 2, 0⟩ ∧ parcel.Readable ∧ parcel.TimesWhole ∧
      parcel.toRecord = .ok parcelRecord ∧
      18 ≤ (sticker 2 ++ parcelRecord).length ∧
      (∃ e, read ((sticker 2 ++ parcelRecord).take 18) = .error e) ∧
      (∃ n, (feed {} (sticker 2 ++ parcelRecord)).2 = .ok n) ∧
      (feed {} (sticker 2 ++ parcelRecord)).1.queue = [] := by
  have hx : Mislabelled (sticker 2) ⟨0, 2, 0⟩ :=
    mislabelled_of_fromMagic?_eq_none (by decide +kernel) (by decide +kernel)
  have hmagic : magic <+: parcelRecord := by decide +kernel
  have hcomplete : 18 ≤ (sticker 2 ++ parcelRecord).length := by decide +kernel
  have hunreadable : ∃ e, read ((sticker 2 ++ parcelRecord).take 18) = .error e :=
    exists_error_of_read (by decide +kernel)
  have hrest : Carries (parcelRecord.drop 2) [] := by
    rw [← carries_fromMagic?_iff, fromMagic?_drop_parcelRecord 2 (by decide) (by decide)]
    exact .short (by decide)
  have hnothing : Carries (sticker 2 ++ parcelRecord) [] :=
    (hx.carries_iff_of_cut hmagic hcomplete hunreadable ⟨by decide, by decide⟩).mpr hrest
  exact ⟨hx, ⟨by decide, .new⟩, ⟨by decide, by decide⟩, toRecord_parcel, hcomplete, hunreadable,
    feed_of_carries noted_new hnothing⟩

end StreamReader

end Courier
