import Courier.Proofs.Record.Blocks

/-!
# What a Stream Carries

The bytes of a whole stream determine which messages it carries: records one after another, where
a header that cannot be read is passed over up to the next magic bytes, and a record that cannot
be read up to the next magic bytes within it. `Carries` says so of the stream itself, without a
reader that is in the middle of it. A reader that is given the stream at once queues exactly the
messages that the stream carries.

Streams that hold a header of another version, or of a record that is too large, where a record
should start carry nothing in this sense: reading them fails.

## Main definitions

* `Record.Carries`: the messages that the bytes of a stream carry.
* `StreamReader.Noted`: a reader noted no header but the one at the front of its bytes.
* `Recorded`: bytes that are the records of messages, one after another.

## Main results

* `Record.Carries.unique`: a stream carries one list of messages.
* `Record.carries_fromMagic?_iff`: bytes in front of the first magic bytes carry nothing.
* `Record.Block.carries`: what a block adds to what a stream carries.
* `StreamReader.Noted.next`: everything that a reader may do next.
* `StreamReader.run_of_carries`: a reader that is given a stream reads what it carries.
* `StreamReader.ofMessages_recorded`: the messages of records that stand one after another.
-/

namespace Courier

open StreamReader

/-! ### Magic bytes -/

namespace StreamReader

open Record

theorem fromMagic?_eq_some_self {bytes : List UInt8} (h : magic <+: bytes) :
    fromMagic? bytes = some bytes := by
  cases bytes with
  | nil => exact absurd h.length_le (by decide)
  | cons b bytes => rw [fromMagic?, if_pos (List.isPrefixOf_iff_prefix.mpr h)]

theorem fromMagic?_cons_of_not {b : UInt8} {bytes : List UInt8} (h : ¬magic <+: b :: bytes) :
    fromMagic? (b :: bytes) = fromMagic? bytes := by
  rw [fromMagic?, if_neg fun hprefix => h (List.isPrefixOf_iff_prefix.mp hprefix)]

/-- Bytes that do not start with the magic bytes have the same magic bytes without the first. -/
theorem fromMagic?_drop_one {bytes : List UInt8} (h : ¬magic <+: bytes) :
    fromMagic? (bytes.drop 1) = fromMagic? bytes := by
  cases bytes with
  | nil => rfl
  | cons b bytes => exact (fromMagic?_cons_of_not h).symm

theorem prefix_of_fromMagic? {bytes rest : List UInt8} (h : fromMagic? bytes = some rest) :
    magic <+: rest := by
  induction bytes with
  | nil => cases h
  | cons b bytes ih =>
      by_cases hmagic : magic <+: b :: bytes
      · rw [fromMagic?_eq_some_self hmagic] at h
        cases h
        exact hmagic
      · exact ih (fromMagic?_cons_of_not hmagic ▸ h)

theorem suffix_of_fromMagic? {bytes rest : List UInt8} (h : fromMagic? bytes = some rest) :
    rest <:+ bytes := by
  induction bytes with
  | nil => cases h
  | cons b bytes ih =>
      by_cases hmagic : magic <+: b :: bytes
      · rw [fromMagic?_eq_some_self hmagic] at h
        cases h
        exact List.suffix_rfl
      · exact (ih (fromMagic?_cons_of_not hmagic ▸ h)).trans (List.suffix_cons b bytes)

theorem suffix_getD_fromMagic? (bytes : List UInt8) : (fromMagic? bytes).getD [] <:+ bytes := by
  cases h : fromMagic? bytes with
  | none => exact List.nil_suffix
  | some rest => exact suffix_of_fromMagic? h

/-- Bytes that come later do not matter once there are magic bytes. -/
theorem fromMagic?_append_of_some {xs ys rest : List UInt8} (h : fromMagic? xs = some rest) :
    fromMagic? (xs ++ ys) = some (rest ++ ys) := by
  induction xs with
  | nil => cases h
  | cons b xs ih =>
      by_cases hmagic : magic <+: b :: xs
      · rw [fromMagic?_eq_some_self hmagic] at h
        cases h
        exact fromMagic?_eq_some_self (hmagic.trans (List.prefix_append _ ys))
      · rw [fromMagic?_cons_of_not hmagic] at h
        have hlater : ¬magic <+: b :: (xs ++ ys) := by
          intro hprefix
          refine hmagic
            (List.prefix_of_prefix_length_le hprefix (List.prefix_append (b :: xs) ys) ?_)
          have hrest := (prefix_of_fromMagic? h).length_le
          have hle := length_le_of_fromMagic? h
          rw [List.length_cons]
          omega
        rw [List.cons_append, fromMagic?_cons_of_not hlater, ih h]

end StreamReader

/-! ### The messages of a stream -/

namespace Record

/-- The messages that the bytes of a whole stream carry. -/
inductive Carries : List UInt8 → List Message → Prop
  /-- There is no room for a header. -/
  | short {bytes : List UInt8} (short : bytes.length < headerSize) : Carries bytes []
  /-- The last record is not there as a whole. -/
  | unfinished {bytes : List UInt8} {header : RecordHeader}
      (peeked : RecordHeader.peek bytes = .ok (some header))
      (unfinished : bytes.length < header.recordSize) : Carries bytes []
  /-- A record at the front is read. -/
  | record {bytes : List UInt8} {header : RecordHeader} {m : Message} {messages : List Message}
      (peeked : RecordHeader.peek bytes = .ok (some header))
      (complete : header.recordSize ≤ bytes.length)
      (readable : read (bytes.take header.recordSize) = .ok m)
      (rest : Carries (bytes.drop header.recordSize) messages) : Carries bytes (m :: messages)
  /-- A record at the front cannot be read and is passed over, up to magic bytes within it. -/
  | damaged {bytes : List UInt8} {header : RecordHeader} {e : WireError} {messages : List Message}
      (peeked : RecordHeader.peek bytes = .ok (some header))
      (complete : header.recordSize ≤ bytes.length)
      (unreadable : read (bytes.take header.recordSize) = .error e)
      (rest : Carries ((fromMagic? ((bytes.take header.recordSize).drop 1)).getD [] ++
        bytes.drop header.recordSize) messages) : Carries bytes messages
  /-- Bytes that are no header are passed over, up to magic bytes behind them. -/
  | garbage {bytes : List UInt8} {e : WireError} {messages : List Message}
      (peeked : RecordHeader.peek bytes = .error e) (corrupt : e.isCorruption)
      (rest : Carries ((fromMagic? (bytes.drop 1)).getD []) messages) : Carries bytes messages

section Front

variable {bytes : List UInt8} {header : RecordHeader} {messages : List Message}

theorem carries_iff_of_read {m : Message} (hpeek : RecordHeader.peek bytes = .ok (some header))
    (hcomplete : header.recordSize ≤ bytes.length)
    (hread : read (bytes.take header.recordSize) = .ok m) :
    Carries bytes messages ↔
      ∃ rest, messages = m :: rest ∧ Carries (bytes.drop header.recordSize) rest := by
  constructor
  · intro h
    cases h with
    | short short => simp [RecordHeader.peek_of_short short] at hpeek
    | unfinished peeked => grind
    | record peeked => grind
    | damaged peeked => grind
    | garbage peeked => simp [hpeek] at peeked
  · rintro ⟨rest, rfl, hrest⟩
    exact .record hpeek hcomplete hread hrest

theorem carries_iff_of_unreadable {e : WireError}
    (hpeek : RecordHeader.peek bytes = .ok (some header))
    (hcomplete : header.recordSize ≤ bytes.length)
    (hread : read (bytes.take header.recordSize) = .error e) :
    Carries bytes messages ↔
      Carries ((fromMagic? ((bytes.take header.recordSize).drop 1)).getD [] ++
        bytes.drop header.recordSize) messages := by
  constructor
  · intro h
    cases h with
    | short short => simp [RecordHeader.peek_of_short short] at hpeek
    | unfinished peeked => grind
    | record peeked => grind
    | damaged peeked => grind
    | garbage peeked => simp [hpeek] at peeked
  · exact .damaged hpeek hcomplete hread

theorem carries_iff_of_corrupt {e : WireError} (hpeek : RecordHeader.peek bytes = .error e)
    (hcorrupt : e.isCorruption) :
    Carries bytes messages ↔ Carries ((fromMagic? (bytes.drop 1)).getD []) messages := by
  constructor
  · intro h
    cases h with
    | short short => simp [RecordHeader.peek_of_short short] at hpeek
    | unfinished peeked => simp [hpeek] at peeked
    | record peeked => simp [hpeek] at peeked
    | damaged peeked => simp [hpeek] at peeked
    | garbage _ _ rest => exact rest
  · exact .garbage hpeek hcorrupt

/-- Where a record of another kind should start, a stream carries nothing. -/
theorem not_carries_of_foreign {e : WireError} (hpeek : RecordHeader.peek bytes = .error e)
    (hforeign : ¬e.isCorruption) : ¬Carries bytes messages := by
  intro h
  cases h with
  | short short => simp [RecordHeader.peek_of_short short] at hpeek
  | unfinished peeked => simp [hpeek] at peeked
  | record peeked => simp [hpeek] at peeked
  | damaged peeked => simp [hpeek] at peeked
  | garbage peeked corrupt =>
      rw [hpeek] at peeked
      cases peeked
      exact hforeign corrupt

end Front

end Record

/-! ### Readers that are given a stream -/

namespace StreamReader

open Record

variable {r : StreamReader} {bytes : List UInt8} {messages : List Message}

/-- The reader noted no header but the one at the front of its bytes. -/
def Noted (r : StreamReader) : Prop :=
  ∀ header, r.expected = some header → RecordHeader.peek r.buffer = .ok (some header)

theorem noted_of_expected_eq_none (h : r.expected = none) : r.Noted := by
  intro header hexpected
  rw [h] at hexpected
  cases hexpected

theorem noted_new : Noted {} :=
  noted_of_expected_eq_none rfl

theorem step_of_short (h : r.buffer.length < headerSize) : r.step = .wait r :=
  if_pos h

theorem Noted.step_of_peek {header : RecordHeader} (h : r.Noted)
    (hpeek : RecordHeader.peek r.buffer = .ok (some header)) : r.step = r.stepAt header := by
  refine step_eq_stepAt (RecordHeader.headerSize_le_of_peek hpeek) hpeek fun noted hexpected => ?_
  have hnoted := h noted hexpected
  rw [hpeek] at hnoted
  cases hnoted
  rfl

theorem Noted.expected_eq_none {e : WireError} (h : r.Noted)
    (hpeek : RecordHeader.peek r.buffer = .error e) : r.expected = none := by
  cases hexpected : r.expected with
  | none => rfl
  | some header =>
      have hnoted := h header hexpected
      rw [hpeek] at hnoted
      cases hnoted

theorem Noted.step_of_peek_error {e : WireError} (h : r.Noted)
    (hpeek : RecordHeader.peek r.buffer = .error e) :
    r.step = if e.isCorruption then .more r.skipDamage else .fail r e := by
  have hlength := RecordHeader.headerSize_le_of_peek_error hpeek
  rw [step, if_neg (Nat.not_lt_of_le hlength), h.expected_eq_none hpeek]
  simp only [hpeek]

theorem Noted.skipDamage {e : WireError} (h : r.Noted)
    (hpeek : RecordHeader.peek r.buffer = .error e) : r.skipDamage.Noted :=
  noted_of_expected_eq_none (h.expected_eq_none hpeek)

theorem noted_takeRecord (r : StreamReader) (size : Nat) : (r.takeRecord size).Noted := by
  refine noted_of_expected_eq_none ?_
  rw [takeRecord]
  split <;> rfl

theorem takeRecord_of_ok {size : Nat} {m : Message} (h : read (r.buffer.take size) = .ok m) :
    (r.takeRecord size).buffer = r.buffer.drop size ∧
      (r.takeRecord size).queue = r.queue ++ [m] := by
  rw [takeRecord]
  simp only [h, and_self]

theorem takeRecord_of_error {size : Nat} {e : WireError}
    (h : read (r.buffer.take size) = .error e) :
    (r.takeRecord size).buffer =
        (fromMagic? ((r.buffer.take size).drop 1)).getD [] ++ r.buffer.drop size ∧
      (r.takeRecord size).queue = r.queue := by
  rw [takeRecord]
  simp only [h, and_self]

/-- Everything that a reader may do next, with what it found at the front of its bytes. -/
inductive Next (r : StreamReader) : Step → Prop
  | waits {next : StreamReader} (buffer_eq : next.buffer = r.buffer)
      (queue_eq : next.queue = r.queue) (noted : next.Noted) (carries : Carries r.buffer []) :
      Next r (.wait next)
  | takes {header : RecordHeader} (peeked : RecordHeader.peek r.buffer = .ok (some header))
      (complete : header.recordSize ≤ r.buffer.length) :
      Next r (.more (r.takeRecord header.recordSize))
  | skips {e : WireError} (peeked : RecordHeader.peek r.buffer = .error e)
      (corrupt : e.isCorruption) : Next r (.more r.skipDamage)
  | fails {e : WireError} (peeked : RecordHeader.peek r.buffer = .error e)
      (foreign : ¬e.isCorruption) : Next r (.fail r e)

theorem Noted.next (h : r.Noted) : Next r r.step := by
  by_cases hshort : r.buffer.length < headerSize
  · rw [step_of_short hshort]
    exact .waits rfl rfl h (.short hshort)
  cases hpeek : RecordHeader.peek r.buffer with
  | error e =>
      rw [h.step_of_peek_error hpeek]
      by_cases hcorrupt : e.isCorruption
      · rw [if_pos hcorrupt]
        exact .skips hpeek hcorrupt
      · rw [if_neg hcorrupt]
        exact .fails hpeek hcorrupt
  | ok found =>
      cases found with
      | none => exact absurd (RecordHeader.short_of_peek hpeek) hshort
      | some header =>
          rw [h.step_of_peek hpeek, stepAt]
          split
          · next hunfinished =>
              refine .waits rfl rfl ?_ (.unfinished hpeek hunfinished)
              rintro _ ⟨rfl⟩
              exact hpeek
          · next hcomplete => exact .takes hpeek (Nat.le_of_not_lt hcomplete)

/-- **A reader that is given a stream reads what the stream carries.** -/
theorem run_of_carries (h : Carries bytes messages) (hnoted : r.Noted)
    (hbuffer : r.buffer = bytes) :
    ∃ after, r.run = (after, none) ∧ after.queue = r.queue ++ messages := by
  induction h generalizing r with
  | short short =>
      subst hbuffer
      exact ⟨r, run_of_wait (step_of_short short), (List.append_nil _).symm⟩
  | @unfinished bytes header peeked unfinished =>
      subst hbuffer
      have hstep := hnoted.step_of_peek peeked
      rw [stepAt, if_pos unfinished] at hstep
      exact ⟨_, run_of_wait hstep, (List.append_nil _).symm⟩
  | @record bytes header m messages peeked complete readable _ ih =>
      subst hbuffer
      have hstep := hnoted.step_of_peek peeked
      rw [stepAt, if_neg (Nat.not_lt_of_le complete)] at hstep
      obtain ⟨hrest, htaken⟩ := takeRecord_of_ok readable
      obtain ⟨after, hrun, hqueue⟩ := ih (noted_takeRecord _ _) hrest
      refine ⟨after, (run_of_more hstep).trans hrun, ?_⟩
      rw [hqueue, htaken, List.append_assoc]
      rfl
  | @damaged bytes header e messages peeked complete unreadable _ ih =>
      subst hbuffer
      have hstep := hnoted.step_of_peek peeked
      rw [stepAt, if_neg (Nat.not_lt_of_le complete)] at hstep
      obtain ⟨hrest, htaken⟩ := takeRecord_of_error unreadable
      obtain ⟨after, hrun, hqueue⟩ := ih (noted_takeRecord _ _) hrest
      exact ⟨after, (run_of_more hstep).trans hrun, htaken ▸ hqueue⟩
  | @garbage bytes e messages peeked corrupt _ ih =>
      subst hbuffer
      have hstep := hnoted.step_of_peek_error peeked
      rw [if_pos corrupt] at hstep
      obtain ⟨after, hrun, hqueue⟩ := ih (hnoted.skipDamage peeked) rfl
      exact ⟨after, (run_of_more hstep).trans hrun, hqueue⟩

/-! ### Chunks and streams that come in at once -/

variable {after : StreamReader} {chunk : List UInt8}

/-- The reader with a chunk behind the bytes that are waiting. -/
def receive (r : StreamReader) (chunk : List UInt8) : StreamReader :=
  { r with
    buffer := r.buffer ++ chunk
    stats.processed := r.stats.processed + chunk.length
    stats.peak := max r.stats.peak (r.buffer ++ chunk).length }

theorem Noted.receive (h : r.Noted) (chunk : List UInt8) : (r.receive chunk).Noted := by
  intro header hexpected
  have hpeek := h header hexpected
  change RecordHeader.peek (r.buffer ++ chunk) = _
  rw [RecordHeader.peek_append (RecordHeader.headerSize_le_of_peek hpeek), hpeek]

theorem feed_of_run (h : (r.receive chunk).run = (after, none)) :
    r.feed chunk = ({ after with stats.buffered := after.buffer.length },
      .ok (after.stats.decoded - r.stats.decoded)) := by
  rw [receive] at h
  rw [feed, h]

theorem feed_of_run_error {e : WireError} (h : (r.receive chunk).run = (after, some e)) :
    r.feed chunk = ({ after with stats.buffered := after.buffer.length }, .error e) := by
  rw [receive] at h
  rw [feed, h]

theorem feed_of_carries (hnoted : r.Noted) (h : Carries (r.buffer ++ chunk) messages) :
    (∃ n, (r.feed chunk).2 = .ok n) ∧ (r.feed chunk).1.queue = r.queue ++ messages := by
  obtain ⟨after, hrun, hqueue⟩ := run_of_carries h (hnoted.receive chunk) rfl
  rw [feed_of_run hrun]
  exact ⟨⟨_, rfl⟩, hqueue⟩

/-- A stream that is there at once is read as what it carries. -/
theorem ofMessages_of_carries (h : Carries bytes messages) : ofMessages bytes = .ok messages := by
  obtain ⟨⟨n, hok⟩, hqueue⟩ := feed_of_carries noted_new h
  rw [ofMessages]
  split
  · next hfeed =>
      rw [hfeed] at hqueue
      exact congrArg Except.ok hqueue
  · next hfeed =>
      rw [hfeed] at hok
      cases hok

end StreamReader

namespace Record

variable {bytes : List UInt8} {messages : List Message}

/-- **A stream carries one list of messages.** -/
theorem Carries.unique {messages' : List Message} (h : Carries bytes messages)
    (h' : Carries bytes messages') : messages = messages' := by
  -- Both lists are what one and the same reader queues.
  have hnoted : StreamReader.Noted { buffer := bytes } := noted_of_expected_eq_none rfl
  obtain ⟨after, hrun, hqueue⟩ := run_of_carries h hnoted rfl
  obtain ⟨after', hrun', hqueue'⟩ := run_of_carries h' hnoted rfl
  rw [hrun] at hrun'
  cases hrun'
  exact List.append_cancel_left (hqueue.symm.trans hqueue')

/-- **Bytes in front of the first magic bytes carry nothing.** -/
theorem carries_fromMagic?_iff :
    Carries ((fromMagic? bytes).getD []) messages ↔ Carries bytes messages := by
  by_cases hmagic : magic <+: bytes
  · rw [fromMagic?_eq_some_self hmagic, Option.getD_some]
  by_cases hshort : bytes.length < headerSize
  · have hle := length_getD_fromMagic? bytes
    have hnil : ∀ {bytes : List UInt8}, bytes.length < headerSize →
        (Carries bytes messages ↔ messages = []) := by
      intro bytes hshort
      constructor
      · exact fun h => h.unique (.short hshort)
      · rintro rfl
        exact .short hshort
    rw [hnil hshort, hnil (Nat.lt_of_le_of_lt hle hshort)]
  · obtain ⟨found, hpeek⟩ := RecordHeader.peek_of_not_magic (Nat.le_of_not_lt hshort) hmagic
    rw [carries_iff_of_corrupt hpeek rfl, fromMagic?_drop_one hmagic]

/-- A block carries its message in front of what the rest of the stream carries. -/
theorem Block.carries {block : Option Message} {part : List UInt8} (h : Block block part)
    (hrest : Carries bytes messages) :
    Carries (part ++ bytes) ((block.map Message.asRead).toList ++ messages) := by
  obtain ⟨header, hpeek, hsize⟩ := h.peek
  have hpeek' : RecordHeader.peek (part ++ bytes) = .ok (some header) := by
    rw [RecordHeader.peek_append h.headerSize_le, hpeek]
  have hcomplete : header.recordSize ≤ (part ++ bytes).length := by
    rw [hsize, List.length_append]
    omega
  have htake : (part ++ bytes).take header.recordSize = part := List.take_left' hsize.symm
  have hdrop : (part ++ bytes).drop header.recordSize = bytes := List.drop_left' hsize.symm
  cases h with
  | @intact m order _ readable ordered written =>
      have hread := read_append readable ordered written []
      rw [List.append_nil] at hread
      exact .record hpeek' hcomplete (htake.symm ▸ hread) (hdrop.symm ▸ hrest)
  | damaged damaged =>
      obtain ⟨e, hread⟩ := damaged.unreadable
      have hmagic : fromMagic? (part.drop 1) = none := by
        refine fromMagic?_eq_none fun offset => ?_
        rw [List.drop_drop]
        exact damaged.magic_once _ (by omega)
      refine .damaged hpeek' hcomplete (htake.symm ▸ hread) ?_
      rw [htake, hdrop, hmagic]
      exact hrest

end Record

/-! ### Records one after another -/

/-- Bytes that are the records of some messages, one after another. -/
inductive Recorded : List Message → List UInt8 → Prop
  | nil : Recorded [] []
  | cons {m : Message} {messages : List Message} {record bytes : List UInt8}
      (readable : m.Readable) (written : m.toRecord = .ok record)
      (rest : Recorded messages bytes) : Recorded (m :: messages) (record ++ bytes)

namespace Recorded

/-- One more message is recorded behind the others. -/
theorem append {messages : List Message} {bytes record : List UInt8} {m : Message}
    (h : Recorded messages bytes) (hm : m.Readable) (hw : m.toRecord = .ok record) :
    Recorded (messages ++ [m]) (bytes ++ record) := by
  induction h with
  | nil => simpa using cons hm hw nil
  | cons readable written _ ih =>
      rw [List.append_assoc]
      exact cons readable written ih

theorem readable {messages : List Message} {bytes : List UInt8} (h : Recorded messages bytes)
    {m : Message} (hm : m ∈ messages) : m.Readable := by
  induction h with
  | nil => cases hm
  | cons readable _ _ ih =>
      rcases List.mem_cons.mp hm with rfl | hm
      · exact readable
      · exact ih hm

/-- Every recorded message can be written by itself. -/
theorem toRecord {messages : List Message} {bytes : List UInt8} (h : Recorded messages bytes)
    {m : Message} (hm : m ∈ messages) : ∃ record, m.toRecord = .ok record := by
  induction h with
  | nil => cases hm
  | cons _ written _ ih =>
      rcases List.mem_cons.mp hm with rfl | hm
      · exact ⟨_, written⟩
      · exact ih hm

theorem carries {messages : List Message} {bytes : List UInt8} (h : Recorded messages bytes) :
    Record.Carries bytes (messages.map Message.asRead) := by
  induction h with
  | nil => exact .short (by decide)
  | cons readable written _ ih =>
      exact (Record.Block.intact readable (Properties.canonicalOrder_perm _) written).carries ih

end Recorded

/-- **Records are read as the messages that were written**, in the same order. -/
theorem StreamReader.ofMessages_recorded {messages : List Message} {bytes : List UInt8}
    (h : Recorded messages bytes) :
    ofMessages bytes = .ok (messages.map Message.asRead) :=
  ofMessages_of_carries h.carries

end Courier
