import Courier.Proofs.Record.Contents

/-!
# Where a Stream is Cut

A reader that gets a stream in chunks should read what the stream carries, wherever the stream is
cut. It does, but for one thing: bytes that cannot be read are thrown away up to the next magic
bytes *that have arrived*. Where the bytes that are thrown away end with the beginning of magic
bytes, the record that starts there is lost.

`Loses` says that this happens somewhere in a list of chunks. Where it does not happen, the
chunks do not matter; where it happens, there is a way for the stream to go on such that they do.

The proof compares the reader with the stream: at every step it has in front of it what the stream
carries behind the messages that it took out. Throwing bytes away is the one step of which this
cannot be said whatever comes later.

## Main definitions

* `StreamReader.Severed`: magic bytes that are cut in two.
* `StreamReader.Discards`: what a reader throws away because there are no magic bytes behind it.
* `StreamReader.Passes`: what a reader does to the rest of a stream.
* `StreamReader.Loses`: a list of chunks in which a reader throws away severed magic bytes.

## Main results

* `StreamReader.Noted.passes_or_discards`: what one step does to the rest of the stream.
* `StreamReader.run_passes`: how far a reader gets with what has arrived.
* `StreamReader.feedAll_carries`: what a reader makes of chunks is what the stream carries.
* `StreamReader.not_loses`: cuts outside magic bytes lose nothing.
* `StreamReader.drain_feedAll_eq`: two ways of cutting a stream give the same messages.
* `StreamReader.Discards.loses`: a record whose magic bytes are severed is lost.
* `StreamReader.cut_harmless_iff`: the cuts that are harmless whatever comes later.
-/

namespace Courier

namespace StreamReader

open Record

/-! ### Severed magic bytes -/

/-- Magic bytes are cut in two: the bytes end with the beginning of magic bytes, and the rest of
these comes next. -/
def Severed (bytes later : List UInt8) : Prop :=
  ∃ k < magic.length, 0 < k ∧ magic.take k <:+ bytes ∧ magic.drop k <+: later

instance (bytes later : List UInt8) : Decidable (Severed bytes later) :=
  inferInstanceAs (Decidable (∃ k < magic.length, _))

theorem Severed.of_suffix {bytes bytes' later : List UInt8} (h : Severed bytes' later)
    (hsuffix : bytes' <:+ bytes) : Severed bytes later := by
  obtain ⟨k, hlt, hpos, hend, hnext⟩ := h
  exact ⟨k, hlt, hpos, hend.trans hsuffix, hnext⟩

theorem not_severed_nil (bytes : List UInt8) : ¬Severed bytes [] := by
  rintro ⟨k, hlt, -, -, hnext⟩
  have hlength := hnext.length_le
  rw [List.length_drop, List.length_nil] at hlength
  omega

/-- Magic bytes do not begin within magic bytes. -/
theorem not_severed_of_magic {later : List UInt8} (h : magic <+: later) (bytes : List UInt8) :
    ¬Severed bytes later := by
  rintro ⟨k, hlt, hpos, -, hnext⟩
  have hself : ∀ k < magic.length, 0 < k → ¬magic.drop k <+: magic := by decide
  refine hself k hlt hpos (List.prefix_of_prefix_length_le hnext h ?_)
  rw [List.length_drop]
  omega

/-- Unless magic bytes are severed, the first ones are those of the bytes that come later. -/
theorem fromMagic?_append_of_none {xs ys : List UInt8} (hnone : fromMagic? xs = none)
    (hwhole : ¬Severed xs ys) : fromMagic? (xs ++ ys) = fromMagic? ys := by
  induction xs with
  | nil => rfl
  | cons b xs ih =>
      have hfirst : ¬magic <+: b :: xs := by
        intro h
        rw [fromMagic?_eq_some_self h] at hnone
        cases hnone
      have hlater : ¬magic <+: b :: (xs ++ ys) := by
        rw [← List.cons_append]
        intro h
        have hshort : (b :: xs).length < magic.length := by
          by_contra hle
          exact hfirst (List.prefix_of_prefix_length_le h (List.prefix_append _ ys)
            (Nat.le_of_not_lt hle))
        obtain ⟨back, hback⟩ := List.prefix_of_prefix_length_le (List.prefix_append _ ys) h
          (Nat.le_of_lt hshort)
        have htake : magic.take (b :: xs).length = b :: xs := by rw [← hback, List.take_left]
        refine hwhole ⟨(b :: xs).length, hshort, Nat.succ_pos _, ⟨[], htake⟩, ?_⟩
        rw [← hback, List.drop_left]
        rwa [← hback, List.prefix_append_right_inj] at h
      rw [fromMagic?_cons_of_not hfirst] at hnone
      rw [List.cons_append, fromMagic?_cons_of_not hlater]
      exact ih hnone fun h => hwhole (h.of_suffix (List.suffix_cons b xs))

theorem fromMagic?_eq_none_of_append {xs ys : List UInt8} (h : fromMagic? (xs ++ ys) = none) :
    fromMagic? xs = none := by
  cases hxs : fromMagic? xs with
  | none => rfl
  | some rest =>
      rw [fromMagic?_append_of_some hxs] at h
      cases h

/-! ### Steps in a stream -/

/-- The bytes start with what is no header, and there are no magic bytes behind it. -/
structure Barren (bytes : List UInt8) : Prop where
  corrupt : ∃ e, RecordHeader.peek bytes = .error e ∧ e.isCorruption
  nowhere : fromMagic? (bytes.drop 1) = none

/-- Going on with what has arrived, the reader comes to throw these bytes away. -/
inductive Discards : StreamReader → List UInt8 → Prop
  | here {r : StreamReader} (barren : Barren r.buffer) : Discards r r.buffer
  | later {r next : StreamReader} {bytes : List UInt8} (step : r.step = .more next)
      (rest : Discards next bytes) : Discards r bytes

/-- With `unread` still to come, the second reader has in front of it what the first one has
after some messages, and has queued these. -/
structure Passes (unread : List UInt8) (r next : StreamReader) (taken : List Message) : Prop where
  noted : next.Noted
  queue_eq : next.queue = r.queue ++ taken
  carries_iff : ∀ messages, Carries (r.buffer ++ unread) messages ↔
    ∃ rest, messages = taken ++ rest ∧ Carries (next.buffer ++ unread) rest

variable {r next after : StreamReader} {unread bytes chunk : List UInt8}
  {taken messages : List Message}

theorem Passes.trans {taken' : List Message} (h : Passes unread r next taken)
    (h' : Passes unread next after taken') : Passes unread r after (taken ++ taken') := by
  refine ⟨h'.noted, by rw [h'.queue_eq, h.queue_eq, List.append_assoc], fun messages => ?_⟩
  rw [h.carries_iff]
  constructor
  · rintro ⟨rest, rfl, hrest⟩
    obtain ⟨rest', rfl, hrest'⟩ := (h'.carries_iff rest).mp hrest
    exact ⟨rest', (List.append_assoc ..).symm, hrest'⟩
  · rintro ⟨rest, rfl, hrest⟩
    exact ⟨taken' ++ rest, List.append_assoc .., (h'.carries_iff _).mpr ⟨rest, rfl, hrest⟩⟩

/-- A reader that has nothing to take has the same in front of it. -/
theorem Passes.of_buffer_eq (hnoted : next.Noted) (hbuffer : next.buffer = r.buffer)
    (hqueue : next.queue = r.queue) : Passes unread r next [] := by
  refine ⟨hnoted, by rw [hqueue, List.append_nil], fun messages => ?_⟩
  rw [hbuffer]
  simp

/-- A record that has arrived is taken out, whatever comes later. -/
theorem passes_takeRecord {header : RecordHeader}
    (hpeek : RecordHeader.peek r.buffer = .ok (some header))
    (hcomplete : header.recordSize ≤ r.buffer.length) :
    ∃ taken, ∀ unread, Passes unread r (r.takeRecord header.recordSize) taken := by
  have hpeek' : ∀ unread, RecordHeader.peek (r.buffer ++ unread) = .ok (some header) := by
    intro unread
    rw [RecordHeader.peek_append (RecordHeader.headerSize_le_of_peek hpeek), hpeek]
  have hcomplete' : ∀ unread : List UInt8,
      header.recordSize ≤ (r.buffer ++ unread).length := by
    intro unread
    rw [List.length_append]
    omega
  cases hread : read (r.buffer.take header.recordSize) with
  | ok m =>
      obtain ⟨hbuffer, hqueue⟩ := takeRecord_of_ok hread
      refine ⟨[m], fun unread => ⟨noted_takeRecord _ _, hqueue, fun messages => ?_⟩⟩
      rw [carries_iff_of_read (hpeek' unread) (hcomplete' unread)
        (by rw [List.take_append_of_le_length hcomplete]; exact hread),
        List.drop_append_of_le_length hcomplete, hbuffer]
      rfl
  | error e =>
      obtain ⟨hbuffer, hqueue⟩ := takeRecord_of_error hread
      refine ⟨[], fun unread => ⟨noted_takeRecord _ _, by rw [hqueue, List.append_nil],
        fun messages => ?_⟩⟩
      rw [carries_iff_of_unreadable (hpeek' unread) (hcomplete' unread)
        (by rw [List.take_append_of_le_length hcomplete]; exact hread),
        List.take_append_of_le_length hcomplete, List.drop_append_of_le_length hcomplete, hbuffer,
        List.append_assoc]
      simp

/-- Bytes that are no header are passed over if there are magic bytes behind them, whatever comes
later, and otherwise if no magic bytes are severed. -/
theorem passes_skipDamage {e : WireError} (hnoted : r.Noted)
    (hpeek : RecordHeader.peek r.buffer = .error e) (hcorrupt : e.isCorruption)
    (hwhole : fromMagic? (r.buffer.drop 1) = none → ¬Severed r.buffer unread) :
    Passes unread r r.skipDamage [] := by
  have hlength := RecordHeader.headerSize_le_of_peek_error hpeek
  refine ⟨hnoted.skipDamage hpeek, (List.append_nil _).symm, fun messages => ?_⟩
  have hdrop : (r.buffer ++ unread).drop 1 = r.buffer.drop 1 ++ unread :=
    List.drop_append_of_le_length (Nat.le_trans (by decide) hlength)
  have hpeek' : RecordHeader.peek (r.buffer ++ unread) = .error e := by
    rw [RecordHeader.peek_append hlength, hpeek]
  have hleft : r.skipDamage.buffer = (fromMagic? (r.buffer.drop 1)).getD [] := rfl
  rw [carries_iff_of_corrupt hpeek' hcorrupt, hdrop, hleft]
  cases hmagic : fromMagic? (r.buffer.drop 1) with
  | some rest =>
      rw [fromMagic?_append_of_some hmagic]
      simp
  | none =>
      have hsuffix : r.buffer.drop 1 <:+ r.buffer := List.drop_suffix 1 _
      rw [fromMagic?_append_of_none hmagic fun h => hwhole hmagic (h.of_suffix hsuffix),
        carries_fromMagic?_iff]
      simp

/-- **A step of a reader passes over what it takes**, whatever comes later, unless the reader
throws away everything that has arrived. -/
theorem Noted.passes_or_discards (hnoted : r.Noted) (hstep : r.step = .more next) :
    (∃ taken, ∀ unread, Passes unread r next taken) ∨
      (next = r.skipDamage ∧ Barren r.buffer) := by
  have hnext := hnoted.next
  rw [hstep] at hnext
  cases hnext with
  | takes peeked complete => exact .inl (passes_takeRecord peeked complete)
  | skips peeked corrupt =>
      by_cases hmagic : fromMagic? (r.buffer.drop 1) = none
      · exact .inr ⟨rfl, ⟨_, peeked, corrupt⟩, hmagic⟩
      · exact .inl ⟨[], fun unread => passes_skipDamage hnoted peeked corrupt
          fun hnone => absurd hnone hmagic⟩

/-- **How far a reader gets with what has arrived**: to where it has to wait, having passed over
what it took, or to an error, and then the stream carries nothing. -/
theorem run_passes (hnoted : r.Noted) (hwhole : ∀ bytes, r.Discards bytes → ¬Severed bytes unread) :
    (∃ after taken, r.run = (after, none) ∧ Passes unread r after taken ∧
      Carries after.buffer []) ∨
    ∃ after e, r.run = (after, some e) ∧ ∀ messages, ¬Carries (r.buffer ++ unread) messages := by
  induction r using run.induct with
  | case1 r next hstep =>
      have hnext := hnoted.next
      rw [hstep] at hnext
      cases hnext with
      | waits buffer_eq queue_eq noted carries =>
          refine .inl ⟨next, [], run_of_wait hstep, .of_buffer_eq noted buffer_eq queue_eq, ?_⟩
          rw [buffer_eq]
          exact carries
  | case2 r next e hstep =>
      have hnext := hnoted.next
      rw [hstep] at hnext
      cases hnext with
      | fails peeked foreign =>
          refine .inr ⟨r, e, run_of_fail hstep, fun messages => ?_⟩
          refine not_carries_of_foreign (e := e) ?_ foreign
          rw [RecordHeader.peek_append (RecordHeader.headerSize_le_of_peek_error peeked), peeked]
  | case3 r next hstep ih =>
      obtain ⟨taken, hpasses⟩ : ∃ taken, Passes unread r next taken := by
        rcases hnoted.passes_or_discards hstep with ⟨taken, hpasses⟩ | ⟨rfl, hbarren⟩
        · exact ⟨taken, hpasses unread⟩
        · -- Everything that has arrived is thrown away; here it matters that nothing is severed.
          obtain ⟨e, hpeek, hcorrupt⟩ := hbarren.corrupt
          exact ⟨[], passes_skipDamage hnoted hpeek hcorrupt fun _ => hwhole _ (.here hbarren)⟩
      rw [run_of_more hstep]
      rcases ih hpasses.noted fun bytes h => hwhole bytes (.later hstep h) with
        ⟨after, taken', hrun, hpasses', hwaits⟩ | ⟨after, e, hrun, hnothing⟩
      · exact .inl ⟨after, taken ++ taken', hrun, hpasses.trans hpasses', hwaits⟩
      · refine .inr ⟨after, e, hrun, fun messages hcarries => ?_⟩
        obtain ⟨rest, -, hrest⟩ := (hpasses.carries_iff messages).mp hcarries
        exact hnothing rest hrest

/-! ### Chunks -/

/-- In taking in chunks one after another, the reader throws away the beginning of magic bytes of
which the rest is in the chunks that follow. -/
def Loses (r : StreamReader) : List (List UInt8) → Prop
  | [] => False
  | chunk :: rest =>
    (∃ bytes, (r.receive chunk).Discards bytes ∧ Severed bytes rest.flatten) ∨
      (r.feed chunk).1.Loses rest

/-- What a chunk brings about in a stream. -/
theorem feed_passes (hnoted : r.Noted)
    (hwhole : ∀ bytes, (r.receive chunk).Discards bytes → ¬Severed bytes unread) :
    (∃ n taken, (r.feed chunk).2 = .ok n ∧
      Passes unread (r.receive chunk) (r.feed chunk).1 taken ∧ Carries (r.feed chunk).1.buffer []) ∨
    (∃ e, (r.feed chunk).2 = .error e) ∧
      ∀ messages, ¬Carries (r.buffer ++ chunk ++ unread) messages := by
  rcases run_passes (hnoted.receive chunk) hwhole with
    ⟨after, taken, hrun, hpasses, hwaits⟩ | ⟨after, e, hrun, hnothing⟩
  · rw [feed_of_run hrun]
    exact .inl ⟨_, taken, rfl, ⟨hpasses.noted, hpasses.queue_eq, hpasses.carries_iff⟩, hwaits⟩
  · rw [feed_of_run_error hrun]
    exact .inr ⟨⟨e, rfl⟩, hnothing⟩

theorem exists_carries_of_feed (hnoted : r.Noted) {n : Nat} (h : (r.feed chunk).2 = .ok n) :
    ∃ messages, Carries (r.buffer ++ chunk) messages ∧
      (r.feed chunk).1.queue = r.queue ++ messages := by
  rcases feed_passes hnoted fun bytes _ => not_severed_nil bytes with
    ⟨_, taken, -, hpasses, hwaits⟩ | ⟨⟨e, herror⟩, -⟩
  · have hcarries := (hpasses.carries_iff taken).mpr
      ⟨[], (List.append_nil _).symm, by rwa [List.append_nil]⟩
    rw [List.append_nil] at hcarries
    exact ⟨taken, hcarries, hpasses.queue_eq⟩
  · rw [h] at herror
    cases herror

/-- What is read from a stream that is there at once is what the stream carries. -/
theorem ofMessages_eq_ok_iff : ofMessages bytes = .ok messages ↔ Carries bytes messages := by
  refine ⟨fun h => ?_, ofMessages_of_carries⟩
  rw [ofMessages] at h
  split at h
  · next after n hfeed =>
      cases h
      have hok : (feed {} bytes).2 = .ok n := by rw [hfeed]
      obtain ⟨messages, hcarries, hqueue⟩ := exists_carries_of_feed noted_new hok
      rw [hfeed] at hqueue
      exact hqueue ▸ hcarries
  · cases h

/-- **Chunks that lose nothing bring what the stream carries**: no call fails exactly if the
stream carries messages, and then these are queued. -/
theorem feedAll_carries {chunks : List (List UInt8)} (hnoted : r.Noted)
    (hkept : ¬r.Loses chunks) (hwaits : Carries r.buffer []) :
    ((∀ result ∈ (r.feedAll chunks).1, ∃ n, result = .ok n) ↔
      ∃ messages, Carries (r.buffer ++ chunks.flatten) messages) ∧
    ∀ messages, Carries (r.buffer ++ chunks.flatten) messages →
      (r.feedAll chunks).2.queue = r.queue ++ messages := by
  induction chunks generalizing r with
  | nil =>
      rw [List.flatten_nil, List.append_nil]
      refine ⟨iff_of_true nofun ⟨[], hwaits⟩, fun messages hcarries => ?_⟩
      rw [hcarries.unique hwaits, List.append_nil]
      rfl
  | cons chunk rest ih =>
      have hresults : (r.feedAll (chunk :: rest)).1 =
          (r.feed chunk).2 :: ((r.feed chunk).1.feedAll rest).1 := rfl
      have hlast : (r.feedAll (chunk :: rest)).2 = ((r.feed chunk).1.feedAll rest).2 := rfl
      have hwhole : ∀ bytes, (r.receive chunk).Discards bytes → ¬Severed bytes rest.flatten :=
        fun bytes hdiscards hsevered => hkept (.inl ⟨bytes, hdiscards, hsevered⟩)
      rw [hresults, hlast, List.flatten_cons, ← List.append_assoc, List.forall_mem_cons]
      rcases feed_passes hnoted hwhole with
        ⟨n, taken, hok, hpasses, hwaits'⟩ | ⟨⟨e, herror⟩, hnothing⟩
      · obtain ⟨hiff, hqueue⟩ := ih hpasses.noted (fun h => hkept (.inr h)) hwaits'
        constructor
        · rw [hiff]
          constructor
          · rintro ⟨-, messages, hcarries⟩
            exact ⟨_, (hpasses.carries_iff _).mpr ⟨messages, rfl, hcarries⟩⟩
          · rintro ⟨messages, hcarries⟩
            obtain ⟨left, -, hleft⟩ := (hpasses.carries_iff messages).mp hcarries
            exact ⟨⟨n, hok⟩, left, hleft⟩
        · intro messages hcarries
          obtain ⟨left, rfl, hleft⟩ := (hpasses.carries_iff messages).mp hcarries
          rw [hqueue left hleft, hpasses.queue_eq, List.append_assoc]
          rfl
      · constructor
        · refine iff_of_false ?_ fun ⟨messages, hcarries⟩ => hnothing messages hcarries
          rintro ⟨⟨n, hok⟩, -⟩
          rw [herror] at hok
          cases hok
        · exact fun messages hcarries => absurd hcarries (hnothing messages)

/-! ### Cuts outside magic bytes -/

theorem takeRecord_suffix (r : StreamReader) (size : Nat) :
    (r.takeRecord size).buffer <:+ r.buffer := by
  cases hread : read (r.buffer.take size) with
  | ok m =>
      rw [(takeRecord_of_ok hread).1]
      exact List.drop_suffix size _
  | error e =>
      rw [(takeRecord_of_error hread).1]
      obtain ⟨passed, hpassed⟩ :=
        (suffix_getD_fromMagic? ((r.buffer.take size).drop 1)).trans (List.drop_suffix 1 _)
      exact ⟨passed, by rw [← List.append_assoc, hpassed, List.take_append_drop]⟩

/-- A reader keeps the end of what it holds. -/
theorem Noted.of_step (hnoted : r.Noted) (hstep : r.step = .more next) :
    next.Noted ∧ next.buffer <:+ r.buffer := by
  have hnext := hnoted.next
  rw [hstep] at hnext
  cases hnext with
  | takes => exact ⟨noted_takeRecord _ _, takeRecord_suffix _ _⟩
  | skips peeked =>
      exact ⟨hnoted.skipDamage peeked, (suffix_getD_fromMagic? _).trans (List.drop_suffix 1 _)⟩

theorem Noted.of_run (hnoted : r.Noted) : r.run.1.Noted ∧ r.run.1.buffer <:+ r.buffer := by
  induction r using run.induct with
  | case1 r next hstep =>
      have hnext := hnoted.next
      rw [hstep] at hnext
      rw [run_of_wait hstep]
      cases hnext with
      | waits buffer_eq _ noted => exact ⟨noted, buffer_eq ▸ List.suffix_rfl⟩
  | case2 r next e hstep =>
      have hnext := hnoted.next
      rw [hstep] at hnext
      rw [run_of_fail hstep]
      cases hnext with
      | fails => exact ⟨hnoted, List.suffix_rfl⟩
  | case3 r next hstep ih =>
      obtain ⟨hnoted', hsuffix⟩ := hnoted.of_step hstep
      rw [run_of_more hstep]
      exact ⟨(ih hnoted').1, (ih hnoted').2.trans hsuffix⟩

theorem Noted.of_feed (hnoted : r.Noted) (chunk : List UInt8) :
    (r.feed chunk).1.Noted ∧ (r.feed chunk).1.buffer <:+ r.buffer ++ chunk := by
  have hafter := (hnoted.receive chunk).of_run
  rcases hrun : (r.receive chunk).run with ⟨after, _ | e⟩
  · rw [hrun] at hafter
    rw [feed_of_run hrun]
    exact hafter
  · rw [hrun] at hafter
    rw [feed_of_run_error hrun]
    exact hafter

theorem Discards.suffix (h : r.Discards bytes) (hnoted : r.Noted) : bytes <:+ r.buffer := by
  induction h with
  | here => exact List.suffix_rfl
  | later step _ ih => exact (ih (hnoted.of_step step).1).trans (hnoted.of_step step).2

/-- A stream that comes in at once is not cut. -/
theorem not_loses_singleton : ¬r.Loses [chunk] := by
  rintro (⟨bytes, -, hsevered⟩ | hlater)
  · exact not_severed_nil bytes hsevered
  · exact hlater

/-- **Cuts outside magic bytes lose nothing.** -/
theorem not_loses {chunks : List (List UInt8)} {before : List UInt8} (hnoted : r.Noted)
    (hbefore : r.buffer <:+ before)
    (hcuts : ∀ n, ¬Severed (before ++ (chunks.take n).flatten) (chunks.drop n).flatten) :
    ¬r.Loses chunks := by
  induction chunks generalizing r before with
  | nil => exact id
  | cons chunk rest ih =>
      have hsuffix : r.buffer ++ chunk <:+ before ++ chunk := by
        obtain ⟨passed, rfl⟩ := hbefore
        exact ⟨passed, (List.append_assoc ..).symm⟩
      rintro (⟨bytes, hdiscards, hsevered⟩ | hlater)
      · refine hcuts 1 (hsevered.of_suffix ?_)
        rw [List.take_one, List.head?_cons, Option.toList_some, List.flatten_singleton]
        exact (hdiscards.suffix (hnoted.receive chunk)).trans hsuffix
      · obtain ⟨hnoted', hkept⟩ := hnoted.of_feed chunk
        refine ih hnoted' (hkept.trans hsuffix) (fun n => ?_) hlater
        rw [List.append_assoc, ← List.flatten_cons]
        exact hcuts (n + 1)

/-! ### A parcel -/

/-- A parcel without contents. -/
def parcel : Message where
  id := ⟨1⟩
  address := ⟨"parcels", by decide⟩
  durable := true
  timestamp := .epoch

/-- The record of the parcel. -/
def parcelRecord : List UInt8 :=
  Record.front parcel ++ Wire.bigEndian 4 (headerOf [] parcel).checksum.toNat ++
    parcel.recordBody []

theorem toRecord_parcel : parcel.toRecord = .ok parcelRecord :=
  toRecordAs_eq_ok_iff.mpr ⟨by decide, rfl⟩

theorem block_parcelRecord : Block (some parcel) parcelRecord :=
  .intact ⟨by decide, .new⟩ parcel.properties.canonicalOrder_perm toRecord_parcel

theorem carries_parcelRecord : Carries parcelRecord [parcel.asRead] := by
  have h := block_parcelRecord.carries (.short (by decide) : Carries [] [])
  rwa [List.append_nil] at h

/-! ### Two ways of cutting a stream -/

/-- **The chunks do not matter.** If a stream is cut in two ways of which neither loses the
beginning of magic bytes, and no call fails in one way, then none fails in the other, and both give
the same messages: those that the stream carries. -/
theorem drain_feedAll_eq {left right : List (List UInt8)} (hsame : left.flatten = right.flatten)
    (hkeptLeft : ¬Loses {} left) (hkeptRight : ¬Loses {} right)
    (hleft : ∀ result ∈ (feedAll {} left).1, ∃ n, result = .ok n) :
    (∀ result ∈ (feedAll {} right).1, ∃ n, result = .ok n) ∧
      (feedAll {} left).2.drain = (feedAll {} right).2.drain ∧
      Carries left.flatten (feedAll {} left).2.drain := by
  have hstart : Carries [] [] := .short (by decide)
  obtain ⟨hiff, hqueue⟩ := feedAll_carries noted_new hkeptLeft hstart
  obtain ⟨hiff', hqueue'⟩ := feedAll_carries noted_new hkeptRight hstart
  obtain ⟨messages, hcarries⟩ := hiff.mp hleft
  have hcarries' : Carries ([] ++ right.flatten) messages := hsame ▸ hcarries
  refine ⟨hiff'.mpr ⟨messages, hcarries'⟩, ?_, ?_⟩
  · rw [drain_eq, drain_eq, hqueue messages hcarries, hqueue' messages hcarries']
  · rw [drain_eq, hqueue messages hcarries]
    exact hcarries

/-- Damaged bytes, a torn record and the record of the parcel, with cuts in the middle of both
records. -/
def delivery : List (List UInt8) :=
  [List.replicate 20 0, torn.take 7, torn.drop 7 ++ parcelRecord.take 9, parcelRecord.drop 9]

theorem carries_delivery : Carries delivery.flatten [parcel.asRead] := by
  have hrecords : Carries (torn ++ parcelRecord) [parcel.asRead] :=
    (Block.damaged damaged_torn).carries carries_parcelRecord
  have hflatten : delivery.flatten = List.replicate 20 0 ++ (torn ++ parcelRecord) := by
    decide +kernel
  have hmagic : fromMagic? delivery.flatten = some (torn ++ parcelRecord) := by
    rw [hflatten, fromMagic?_append_of_none (by decide) (by decide +kernel)]
    exact fromMagic?_eq_some_self (by decide +kernel)
  exact carries_fromMagic?_iff.mp (by rwa [hmagic])

/-- The delivery gives the parcel, as it does when it comes in at once. -/
theorem drain_feedAll_eq_delivery :
    delivery.flatten = [delivery.flatten].flatten ∧ ¬Loses {} delivery ∧
      ¬Loses {} [delivery.flatten] ∧
      (∀ result ∈ (feedAll {} delivery).1, ∃ n, result = .ok n) ∧
      (∀ result ∈ (feedAll {} [delivery.flatten]).1, ∃ n, result = .ok n) ∧
      (feedAll {} delivery).2.drain = (feedAll {} [delivery.flatten]).2.drain ∧
      Carries delivery.flatten (feedAll {} delivery).2.drain := by
  have hsame : delivery.flatten = [delivery.flatten].flatten := List.flatten_singleton.symm
  have hkept : ¬Loses {} delivery := by
    refine not_loses noted_new List.suffix_rfl fun n => ?_
    rcases Nat.lt_or_ge n delivery.length with hlt | hge
    · revert n
      decide +kernel
    · rw [List.drop_eq_nil_of_le hge]
      exact not_severed_nil _
  have hkept' : ¬Loses {} [delivery.flatten] := not_loses_singleton
  have hok := (feedAll_carries noted_new hkept (.short (by decide))).1.mpr ⟨_, carries_delivery⟩
  exact ⟨hsame, hkept, hkept', hok, drain_feedAll_eq hsame hkept hkept' hok⟩

/-! ### Cuts within magic bytes -/

theorem Barren.headerSize_le (h : Barren bytes) : headerSize ≤ bytes.length := by
  obtain ⟨e, hpeek, -⟩ := h.corrupt
  exact RecordHeader.headerSize_le_of_peek_error hpeek

theorem Barren.buffer_skipDamage (h : Barren r.buffer) : r.skipDamage.buffer = [] := by
  rw [skipDamage, h.nowhere, Option.getD_none]

/-- Magic bytes that begin in barren bytes are found once their rest is there. -/
theorem Barren.carries_append {front rest : List UInt8} (h : Barren bytes) (hend : front <:+ bytes)
    (hshort : front.length < magic.length) (hmagic : magic <+: front ++ rest)
    (hcarries : Carries (front ++ rest) messages) : Carries (bytes ++ rest) messages := by
  obtain ⟨e, hpeek, hcorrupt⟩ := h.corrupt
  have hnowhere := h.nowhere
  have hlength := h.headerSize_le
  obtain ⟨passed, rfl⟩ := hend
  have hpassed : 1 ≤ passed.length := by
    rw [List.length_append, headerSize] at hlength
    have hfour : magic.length = 4 := rfl
    omega
  rw [List.drop_append_of_le_length hpassed] at hnowhere
  have hfound : fromMagic? ((passed ++ front ++ rest).drop 1) = some (front ++ rest) := by
    rw [List.append_assoc, List.drop_append_of_le_length hpassed,
      fromMagic?_append_of_none (fromMagic?_eq_none_of_append hnowhere)
        (not_severed_of_magic hmagic _), fromMagic?_eq_some_self hmagic]
  refine .garbage (e := e) ?_ hcorrupt ?_
  · rw [RecordHeader.peek_append hlength, hpeek]
  · rw [hfound]
    exact hcarries

theorem Discards.barren (h : r.Discards bytes) : Barren bytes := by
  induction h with
  | here barren => exact barren
  | later _ _ ih => exact ih

theorem Discards.headerSize_le (h : r.Discards bytes) : headerSize ≤ r.buffer.length := by
  cases h with
  | here barren => exact barren.headerSize_le
  | later step =>
      by_contra hshort
      rw [step_of_short (Nat.lt_of_not_le hshort)] at step
      cases step

/-- What is in front of the bytes that are thrown away is passed over, and then nothing is left. -/
theorem Discards.run (h : r.Discards bytes) (hnoted : r.Noted) :
    ∃ last taken, (∀ unread, Passes unread r last taken) ∧ last.buffer = bytes ∧
      r.run = (last.skipDamage, none) ∧ last.skipDamage.buffer = [] := by
  induction h with
  | @here r barren =>
      obtain ⟨e, hpeek, hcorrupt⟩ := barren.corrupt
      have hstep := hnoted.step_of_peek_error hpeek
      rw [if_pos hcorrupt] at hstep
      have hwait : r.skipDamage.step = .wait r.skipDamage :=
        step_of_short (by rw [barren.buffer_skipDamage]; decide)
      exact ⟨r, [], fun _ => .of_buffer_eq hnoted rfl rfl, rfl,
        (run_of_more hstep).trans (run_of_wait hwait), barren.buffer_skipDamage⟩
  | @later r next bytes step rest ih =>
      rcases hnoted.passes_or_discards step with ⟨taken, hpasses⟩ | ⟨rfl, hbarren⟩
      · obtain ⟨last, taken', hpasses', hlast, hrun, hnothing⟩ := ih (hnoted.of_step step).1
        exact ⟨last, taken ++ taken', fun unread => (hpasses unread).trans (hpasses' unread), hlast,
          (run_of_more step).trans hrun, hnothing⟩
      · -- Nothing is left then, so that no more bytes can be thrown away.
        have hlength := rest.headerSize_le
        rw [hbarren.buffer_skipDamage] at hlength
        exact absurd hlength (by decide)

/-- What comes behind the bytes that were thrown away is read without them, while the stream goes
on with them. -/
theorem Discards.feed (h : (r.receive chunk).Discards bytes) (hnoted : r.Noted) :
    ∃ n taken, (r.feed chunk).2 = .ok n ∧ (r.feed chunk).1.buffer = [] ∧
      (r.feed chunk).1.queue = r.queue ++ taken ∧
      ∀ later messages, Carries (bytes ++ later) messages →
        Carries (r.buffer ++ (chunk ++ later)) (taken ++ messages) := by
  obtain ⟨last, taken, hpasses, rfl, hrun, hnothing⟩ := h.run (hnoted.receive chunk)
  rw [feed_of_run hrun]
  refine ⟨_, taken, rfl, hnothing, (hpasses []).queue_eq, fun later messages hcarries => ?_⟩
  rw [← List.append_assoc]
  exact ((hpasses later).carries_iff _).mpr ⟨messages, rfl, hcarries⟩

/-- **A record whose magic bytes are severed is lost.** The bytes that are thrown away end with
the beginning of a record; the rest of it comes next, and is not read, although the stream carries
its messages. -/
theorem Discards.loses {front rest : List UInt8} (h : (r.receive chunk).Discards bytes)
    (hnoted : r.Noted) (hend : front <:+ bytes) (hshort : front.length < magic.length)
    (hmagic : magic <+: front ++ rest) (honce : fromMagic? rest = none)
    (hcarries : Carries (front ++ rest) messages) :
    ((∃ n, (r.feed chunk).2 = .ok n) ∧ (∃ n, ((r.feed chunk).1.feed rest).2 = .ok n) ∧
      ((r.feed chunk).1.feed rest).1.queue = (r.feed chunk).1.queue) ∧
    (∃ n, (r.feed (chunk ++ rest)).2 = .ok n) ∧
      (r.feed (chunk ++ rest)).1.queue = (r.feed chunk).1.queue ++ messages := by
  obtain ⟨n, taken, hok, hnothing, hqueue, hstream⟩ := h.feed hnoted
  have hrest : Carries ((r.feed chunk).1.buffer ++ rest) [] := by
    rw [hnothing, List.nil_append]
    exact carries_fromMagic?_iff.mp (by rw [honce]; exact .short (by decide))
  have hwhole := h.barren.carries_append hend hshort hmagic hcarries
  obtain ⟨hok', hqueue'⟩ := feed_of_carries (hnoted.of_feed chunk).1 hrest
  obtain ⟨hok'', hqueue''⟩ := feed_of_carries hnoted (hstream rest messages hwhole)
  refine ⟨⟨⟨n, hok⟩, hok', hqueue'.trans (List.append_nil _)⟩, hok'', ?_⟩
  rw [hqueue'', hqueue, List.append_assoc]

/-- The record of the parcel has magic bytes only at its front. -/
theorem fromMagic?_drop_parcelRecord :
    ∀ k < magic.length, 0 < k → fromMagic? (parcelRecord.drop k) = none := by
  decide +kernel

/-- **A cut is harmless, whatever comes later, exactly if the reader does not throw away the
beginning of magic bytes.** -/
theorem cut_harmless_iff (hnoted : r.Noted) :
    (∀ later n n', ((r.feed chunk).1.feed later).2 = .ok n →
      (r.feed (chunk ++ later)).2 = .ok n' →
      ((r.feed chunk).1.feed later).1.queue = (r.feed (chunk ++ later)).1.queue) ↔
    ∀ bytes later, (r.receive chunk).Discards bytes → ¬Severed bytes later := by
  constructor
  · -- The bytes that are thrown away may be the first ones of the parcel's record.
    rintro hsame bytes later hdiscards ⟨k, hlt, hpos, hend, -⟩
    have hsplit : magic.take k ++ parcelRecord.drop k = parcelRecord := by
      have htake : parcelRecord.take k = magic.take k := by
        exact List.take_append_of_le_length (Nat.le_of_lt hlt)
      rw [← htake, List.take_append_drop]
    have hshort : (magic.take k).length < magic.length := by
      rw [List.length_take]
      omega
    obtain ⟨⟨-, ⟨n, hok⟩, hlost⟩, ⟨n', hok'⟩, hqueue⟩ := hdiscards.loses hnoted hend hshort
      (hsplit.symm ▸ List.prefix_append magic _) (fromMagic?_drop_parcelRecord k hlt hpos)
      (hsplit.symm ▸ carries_parcelRecord)
    have hequal := hsame _ n n' hok hok'
    rw [hlost, hqueue] at hequal
    simp at hequal
  · intro hwhole later n n' hok hok'
    obtain ⟨messages, hcarries, hqueue⟩ := exists_carries_of_feed hnoted hok'
    rw [← List.append_assoc] at hcarries
    rcases feed_passes hnoted fun bytes h => hwhole bytes later h with
      ⟨_, taken, -, hpasses, -⟩ | ⟨-, hnothing⟩
    · obtain ⟨rest, rfl, hrest⟩ := (hpasses.carries_iff messages).mp hcarries
      rw [(feed_of_carries hpasses.noted hrest).2, hpasses.queue_eq, hqueue, List.append_assoc]
      rfl
    · exact absurd hcarries (hnothing messages)

/-- Damaged bytes, and the first two bytes of the parcel's record. -/
def early : List UInt8 :=
  List.replicate 16 0 ++ parcelRecord.take 2

/-- The rest of the parcel's record. -/
def late : List UInt8 :=
  parcelRecord.drop 2

/-- The parcel is lost if its record comes in two pieces, and read if it comes in at once. -/
theorem drain_feedAll_ne_severed :
    [early, late].flatten = [early ++ late].flatten ∧
      (∀ result ∈ (feedAll {} [early, late]).1, ∃ n, result = .ok n) ∧
      (∀ result ∈ (feedAll {} [early ++ late]).1, ∃ n, result = .ok n) ∧
      (feedAll {} [early, late]).2.drain = [] ∧
      (feedAll {} [early ++ late]).2.drain = [parcel.asRead] := by
  have hbarren : Barren early :=
    ⟨⟨.badMagic magic [0, 0, 0, 0], by decide +kernel, rfl⟩, by decide +kernel⟩
  have hdiscards : (receive {} early).Discards early := .here hbarren
  have hnone : fromMagic? early = none := by decide +kernel
  have hempty : Carries ([] ++ early) [] := by
    refine carries_fromMagic?_iff.mp ?_
    rw [List.nil_append, hnone]
    exact .short (by decide)
  have hqueue : (feed {} early).1.queue = [] := (feed_of_carries noted_new hempty).2
  have hend : parcelRecord.take 2 <:+ early := List.suffix_append ..
  have honce : fromMagic? late = none := by decide +kernel
  have hrecord : Carries (parcelRecord.take 2 ++ late) [parcel.asRead] := by
    rw [late, List.take_append_drop]
    exact carries_parcelRecord
  obtain ⟨⟨hok, hok', hlost⟩, hok'', hfound⟩ :=
    hdiscards.loses noted_new hend (by decide +kernel) (by decide +kernel) honce hrecord
  refine ⟨by simp, ?_, ?_, ?_, ?_⟩
  · simp only [feedAll, List.forall_mem_cons]
    exact ⟨hok, hok', nofun⟩
  · simp only [feedAll, List.forall_mem_cons]
    exact ⟨hok'', nofun⟩
  · rw [drain_eq]
    exact hlost.trans hqueue
  · rw [drain_eq]
    exact hfound.trans (by rw [hqueue, List.nil_append])

end StreamReader

end Courier
