import Mathlib.Data.List.Forall2
import Mathlib.Data.List.ReduceOption
import Courier.Record.Stream
import Courier.Proofs.Record

/-!
# Reading a Stream with Damaged Records

A stream is made of blocks: records of messages, and records that were damaged behind their
headers. However the stream is cut into chunks, a reader finds the messages of the records that
are whole, and passes over the others.

Between two chunks the reader holds the beginning of one block, and possibly the header of that
block, which it does not read twice. The proof follows the blocks that were dealt with and those
that are left through all chunks.

## Main definitions

* `Record.Damaged`, `Record.Block`: the blocks of a stream.
* `StreamReader.feedAll`, `StreamReader.drain`: taking in chunks, and taking out messages.
* `StreamReader.Progress`: a reader in the middle of a stream.

## Main results

* `StreamReader.Progress.step`: what a reader does next in the middle of a stream.
* `StreamReader.Progress.feed`: what a chunk brings about.
* `StreamReader.feedAll_blocks`: what a reader makes of a whole stream.
* `StreamReader.feedAll_blocks_bytewise`: a stream that comes in byte by byte.
-/

namespace Courier

/-! ### Blocks -/

namespace Record

/-- A record that was damaged behind its header: the header states the length of these bytes, no
message can be read, and there are no magic bytes but the first ones. -/
structure Damaged (bytes : List UInt8) : Prop where
  header : ∃ header, RecordHeader.peek bytes = .ok (some header) ∧
    header.recordSize = bytes.length
  unreadable : ∃ e, read bytes = .error e
  magic_once : ∀ offset, 1 ≤ offset → ¬magic <+: bytes.drop offset

/-- A block of a stream: the record of a message, with its properties in any order, or a damaged
record. -/
inductive Block : Option Message → List UInt8 → Prop
  | intact {m : Message} {order : List (String × PropertyValue)} {record : List UInt8}
      (readable : m.Readable) (ordered : order.Perm m.properties.toList)
      (written : m.toRecordAs order = .ok record) : Block (some m) record
  | damaged {bytes : List UInt8} (damaged : Damaged bytes) : Block none bytes

/-- The header of a block states the block's length. -/
theorem Block.peek {block : Option Message} {bytes : List UInt8} (h : Block block bytes) :
    ∃ header, RecordHeader.peek bytes = .ok (some header) ∧
      header.recordSize = bytes.length := by
  cases h with
  | @intact m order record readable ordered written =>
      refine ⟨headerOf order m, ?_, (length_record readable.properties_made ordered written).symm⟩
      simpa using peek_append written []
  | damaged damaged => exact damaged.header

theorem Block.headerSize_le {block : Option Message} {bytes : List UInt8}
    (h : Block block bytes) : headerSize ≤ bytes.length := by
  obtain ⟨header, hpeek, -⟩ := h.peek
  exact RecordHeader.headerSize_le_of_peek hpeek

end Record

namespace StreamReader

open Record

/-- Nothing is left of bytes without magic bytes. -/
theorem fromMagic?_eq_none {bytes : List UInt8} (h : ∀ offset, ¬magic <+: bytes.drop offset) :
    fromMagic? bytes = none := by
  induction bytes with
  | nil => rfl
  | cons b bytes ih =>
      have hfirst : ¬magic.isPrefixOf (b :: bytes) = true := fun hprefix =>
        h 0 (List.isPrefixOf_iff_prefix.mp hprefix)
      rw [fromMagic?, if_neg hfirst]
      exact ih fun offset => h (offset + 1)

/-! ### Chunks -/

/-- Takes in chunks one after another. -/
def feedAll (r : StreamReader) : List (List UInt8) → List (Except WireError Nat) × StreamReader
  | [] => ([], r)
  | chunk :: rest =>
    let (r, result) := r.feed chunk
    let (results, r) := r.feedAll rest
    (result :: results, r)

/-- Takes out the messages that are waiting, one after another. -/
def drain (r : StreamReader) : List Message :=
  match _h : r.next? with
  | none => []
  | some (m, next) => m :: next.drain
termination_by r.queue.length
decreasing_by
  rw [next?] at _h
  split at _h
  · cases _h
  · next hqueue =>
      cases _h
      rw [hqueue]
      exact Nat.lt_succ_self _

theorem drain_eq (r : StreamReader) : r.drain = r.queue := by
  induction hqueue : r.queue generalizing r with
  | nil =>
      rw [drain]
      split
      · rfl
      · next heq => simp [next?, hqueue] at heq
  | cons m rest ih =>
      rw [drain]
      split
      · next heq => simp [next?, hqueue] at heq
      · next heq =>
          simp only [next?, hqueue, Option.some.injEq, Prod.mk.injEq] at heq
          obtain ⟨rfl, rfl⟩ := heq
          rw [ih _ rfl]

/-! ### Runs -/

theorem run_of_wait {r next : StreamReader} (h : r.step = .wait next) : r.run = (next, none) := by
  rw [run]
  split <;> simp_all

theorem run_of_more {r next : StreamReader} (h : r.step = .more next) : r.run = next.run := by
  rw [run]
  split <;> simp_all

theorem run_of_fail {r next : StreamReader} {e : WireError} (h : r.step = .fail next e) :
    r.run = (next, some e) := by
  rw [run]
  split <;> simp_all

/-! ### In the middle of a stream -/

/-- A reader in the middle of a stream of a given length: some blocks were dealt with, the reader
holds the first bytes of those that are left, and the other bytes are still to come. -/
structure Progress (total : Nat) (done todo : List (Option Message)) (parts : List (List UInt8))
    (unread : List UInt8) (r : StreamReader) : Prop where
  blocks : List.Forall₂ Block todo parts
  buffer_eq : r.buffer ++ unread = parts.flatten
  expected_eq : ∀ header, r.expected = some header →
    RecordHeader.peek parts.flatten = .ok (some header)
  queue_eq : r.queue = done.reduceOption.map Message.asRead
  decoded_eq : r.stats.decoded = done.countP Option.isSome
  corrupted_eq : r.stats.corrupted = done.countP Option.isNone
  processed_eq : r.stats.processed + unread.length = total

/-- The block at the front has not arrived as a whole. -/
def Waits (parts : List (List UInt8)) (r : StreamReader) : Prop :=
  ∀ part rest, parts = part :: rest → r.buffer.length < part.length

variable {total : Nat} {done todo : List (Option Message)} {parts : List (List UInt8)}
  {unread : List UInt8} {r : StreamReader}

/-- A block that arrived as a whole is taken out. -/
theorem Progress.takeRecord {block : Option Message} {part : List UInt8}
    (h : Progress total done (block :: todo) (part :: parts) unread r)
    (hlength : part.length ≤ r.buffer.length) :
    Progress total (done ++ [block]) todo parts unread (r.takeRecord part.length) := by
  obtain ⟨hblock, hblocks⟩ := List.forall₂_cons.mp h.blocks
  have hbuffer := h.buffer_eq
  rw [List.flatten_cons] at hbuffer
  obtain ⟨rest, hrest⟩ : part <+: r.buffer :=
    List.prefix_of_prefix_length_le ⟨parts.flatten, hbuffer.symm⟩ ⟨unread, rfl⟩ hlength
  have hleft : rest ++ unread = parts.flatten := by
    rw [← hrest, List.append_assoc] at hbuffer
    exact List.append_cancel_left hbuffer
  have hdecoded := h.decoded_eq
  have hcorrupted := h.corrupted_eq
  cases hblock with
  | @intact m order _ readable ordered written =>
      have hread := read_append readable ordered written []
      rw [List.append_nil] at hread
      have htake : r.takeRecord part.length =
          { r with
            buffer := rest
            expected := none
            queue := r.queue ++ [m.asRead]
            stats.decoded := r.stats.decoded + 1 } := by
        simp [StreamReader.takeRecord, ← hrest, hread]
      rw [htake]
      refine ⟨hblocks, hleft, fun _ hnone => absurd hnone (by simp), ?_, ?_, ?_, h.processed_eq⟩
      · simp [h.queue_eq, List.reduceOption_append]
      · simp [hdecoded]
      · simp [hcorrupted]
  | damaged damaged =>
      obtain ⟨e, hread⟩ := damaged.unreadable
      have hmagic : fromMagic? part.tail = none := by
        refine fromMagic?_eq_none fun offset => ?_
        rw [← List.drop_one, List.drop_drop]
        exact damaged.magic_once _ (by omega)
      have htake : r.takeRecord part.length =
          { r with
            buffer := rest
            expected := none
            stats.corrupted := r.stats.corrupted + 1 } := by
        simp [StreamReader.takeRecord, ← hrest, hread, hmagic]
      rw [htake]
      refine ⟨hblocks, hleft, fun _ hnone => absurd hnone (by simp), ?_, ?_, ?_, h.processed_eq⟩
      · simp [h.queue_eq, List.reduceOption_append]
      · simp [hdecoded]
      · simp [hcorrupted]

/-- With the header of the front block at hand, the reader takes that block out or waits. -/
theorem Progress.stepAt {block : Option Message} {part : List UInt8} {header : RecordHeader}
    (h : Progress total done (block :: todo) (part :: parts) unread r)
    (hpeek : RecordHeader.peek part = .ok (some header))
    (hsize : header.recordSize = part.length) :
    (∃ next, r.stepAt header = .wait next ∧
      Progress total done (block :: todo) (part :: parts) unread next ∧
      next.Waits (part :: parts)) ∨
    ∃ next, r.stepAt header = .more next ∧
      Progress total (done ++ [block]) todo parts unread next := by
  rw [StreamReader.stepAt, hsize]
  split
  · next hshort =>
      refine .inl ⟨_, rfl, ⟨h.blocks, h.buffer_eq, ?_, h.queue_eq, h.decoded_eq, h.corrupted_eq,
        h.processed_eq⟩, ?_⟩
      · rintro _ ⟨rfl⟩
        rw [List.flatten_cons,
          RecordHeader.peek_append (RecordHeader.headerSize_le_of_peek hpeek), hpeek]
      · rintro _ _ ⟨rfl, rfl⟩
        exact hshort
  · next hlong => exact .inr ⟨_, rfl, h.takeRecord (Nat.le_of_not_lt hlong)⟩

/-- A reader goes by the header at the front, whether it noted that header before or reads it
now. -/
theorem step_eq_stepAt {header : RecordHeader} (hlength : Record.headerSize ≤ r.buffer.length)
    (hpeek : RecordHeader.peek r.buffer = .ok (some header))
    (hnoted : ∀ noted, r.expected = some noted → noted = header) :
    r.step = r.stepAt header := by
  rw [StreamReader.step, if_neg (Nat.not_lt_of_le hlength)]
  cases hexpected : r.expected with
  | none => simp only [hpeek]
  | some noted => simp only [hnoted noted hexpected]

/-- **In the middle of a stream a reader waits, or takes the block at the front out.** -/
theorem Progress.step (h : Progress total done todo parts unread r) :
    (∃ next, r.step = .wait next ∧ Progress total done todo parts unread next ∧
      next.Waits parts) ∨
    ∃ block todo' part parts' next, todo = block :: todo' ∧ parts = part :: parts' ∧
      r.step = .more next ∧ Progress total (done ++ [block]) todo' parts' unread next := by
  by_cases hshort : r.buffer.length < Record.headerSize
  · refine .inl ⟨r, by rw [StreamReader.step, if_pos hshort], h, ?_⟩
    rintro part rest rfl
    cases h.blocks with
    | cons hblock _ => exact Nat.lt_of_lt_of_le hshort hblock.headerSize_le
  · have hlength := Nat.le_of_not_lt hshort
    cases hblocks : h.blocks with
    | nil =>
        have hbuffer := h.buffer_eq
        rw [List.flatten_nil, List.append_eq_nil_iff] at hbuffer
        rw [hbuffer.1] at hlength
        exact absurd hlength (by decide)
    | @cons block part todo' parts' hblock _ =>
        obtain ⟨header, hpeek, hsize⟩ := hblock.peek
        have hfront : RecordHeader.peek (part :: parts').flatten = .ok (some header) := by
          rw [List.flatten_cons, RecordHeader.peek_append hblock.headerSize_le, hpeek]
        have hsame : RecordHeader.peek r.buffer = .ok (some header) := by
          rw [← RecordHeader.peek_append hlength unread, h.buffer_eq, hfront]
        have hstep : r.step = r.stepAt header := by
          refine step_eq_stepAt hlength hsame fun noted hexpected => ?_
          have hnoted := h.expected_eq noted hexpected
          rw [hfront] at hnoted
          cases hnoted
          rfl
        rw [hstep]
        rcases h.stepAt hpeek hsize with hwait | ⟨next, hmore, hnext⟩
        · exact .inl hwait
        · exact .inr ⟨block, todo', part, parts', next, rfl, rfl, hmore, hnext⟩

/-- A reader goes on until the block at the front has not arrived as a whole. -/
theorem Progress.run (h : Progress total done todo parts unread r) :
    ∃ done' todo' parts' after, r.run = (after, none) ∧ done ++ todo = done' ++ todo' ∧
      Progress total done' todo' parts' unread after ∧ after.Waits parts' := by
  induction todo generalizing done parts r with
  | nil =>
      rcases h.step with ⟨next, hstep, hnext, hwaits⟩ | ⟨_, _, _, _, _, htodo, -⟩
      · exact ⟨done, [], parts, next, run_of_wait hstep, rfl, hnext, hwaits⟩
      · cases htodo
  | cons block todo ih =>
      rcases h.step with ⟨next, hstep, hnext, hwaits⟩ |
        ⟨_, _, part, parts', next, htodo, rfl, hstep, hnext⟩
      · exact ⟨done, block :: todo, parts, next, run_of_wait hstep, rfl, hnext, hwaits⟩
      · cases htodo
        obtain ⟨done', todo', parts'', after, hrun, hsplit, hafter, hwaits⟩ := ih hnext
        refine ⟨done', todo', parts'', after, (run_of_more hstep).trans hrun, ?_, hafter, hwaits⟩
        rw [← hsplit, List.append_assoc]
        rfl

/-- **A chunk is taken in without an error.** -/
theorem Progress.feed {chunk : List UInt8}
    (h : Progress total done todo parts (chunk ++ unread) r) :
    ∃ done' todo' parts' n, (r.feed chunk).2 = .ok n ∧ done ++ todo = done' ++ todo' ∧
      Progress total done' todo' parts' unread (r.feed chunk).1 ∧
      (r.feed chunk).1.Waits parts' := by
  have hstart : Progress total done todo parts unread
      { r with
        buffer := r.buffer ++ chunk
        stats.processed := r.stats.processed + chunk.length
        stats.peak := max r.stats.peak (r.buffer ++ chunk).length } := by
    refine ⟨h.blocks, ?_, h.expected_eq, h.queue_eq, h.decoded_eq, h.corrupted_eq, ?_⟩
    · rw [List.append_assoc]
      exact h.buffer_eq
    · have hprocessed := h.processed_eq
      rw [List.length_append] at hprocessed
      dsimp only
      omega
  obtain ⟨done', todo', parts', after, hrun, hsplit, hafter, hwaits⟩ := hstart.run
  have hfeed : r.feed chunk =
      ({ after with stats.buffered := after.buffer.length },
        .ok (after.stats.decoded - r.stats.decoded)) := by
    rw [StreamReader.feed, hrun]
  rw [hfeed]
  exact ⟨done', todo', parts', _, rfl, hsplit, ⟨hafter.blocks, hafter.buffer_eq,
    hafter.expected_eq, hafter.queue_eq, hafter.decoded_eq, hafter.corrupted_eq,
    hafter.processed_eq⟩, hwaits⟩

/-- At the end of the stream no block is left. -/
theorem Progress.finished (h : Progress total done todo parts [] r) (hwaits : r.Waits parts) :
    todo = [] ∧ r.buffer = [] := by
  have hbuffer := h.buffer_eq
  rw [List.append_nil] at hbuffer
  cases hblocks : h.blocks with
  | nil => exact ⟨rfl, hbuffer⟩
  | @cons block part todo' parts' _ _ =>
      have hshort := hwaits part parts' rfl
      rw [hbuffer, List.flatten_cons, List.length_append] at hshort
      omega

theorem Progress.feedAll {chunks : List (List UInt8)}
    (h : Progress total done todo parts chunks.flatten r) (hwaits : r.Waits parts) :
    (∀ result ∈ (r.feedAll chunks).1, ∃ n, result = .ok n) ∧
      Progress total (done ++ todo) [] [] [] (r.feedAll chunks).2 := by
  induction chunks generalizing done todo parts r with
  | nil =>
      obtain ⟨rfl, -⟩ := h.finished hwaits
      have hblocks := h.blocks
      rw [List.forall₂_nil_left_iff] at hblocks
      subst hblocks
      refine ⟨nofun, ?_⟩
      rw [List.append_nil]
      exact h
  | cons chunk chunks ih =>
      obtain ⟨done', todo', parts', n, hok, hsplit, hnext, hwaits'⟩ := h.feed
      obtain ⟨hresults, hafter⟩ := ih hnext hwaits'
      rw [hsplit]
      refine ⟨fun result hresult => ?_, hafter⟩
      rcases List.mem_cons.mp hresult with rfl | hresult
      · exact ⟨n, hok⟩
      · exact hresults result hresult

/-! ### Whole streams -/

/-- **A stream of records and damaged records is read to its end, however it is cut into
chunks.** No call fails, the messages are those of the records, every damaged record is counted
once, and no byte is left. -/
theorem feedAll_blocks {blocks : List (Option Message)} {parts chunks : List (List UInt8)}
    (hblocks : List.Forall₂ Block blocks parts) (hchunks : chunks.flatten = parts.flatten) :
    (∀ result ∈ (feedAll {} chunks).1, ∃ n, result = .ok n) ∧
      (feedAll {} chunks).2.drain = blocks.reduceOption.map Message.asRead ∧
      (feedAll {} chunks).2.stats.corrupted = blocks.countP Option.isNone ∧
      (feedAll {} chunks).2.stats.decoded = blocks.countP Option.isSome ∧
      (feedAll {} chunks).2.stats.processed = parts.flatten.length ∧
      (feedAll {} chunks).2.buffer = [] := by
  have hstart : Progress chunks.flatten.length [] blocks parts chunks.flatten {} :=
    ⟨hblocks, hchunks, nofun, rfl, rfl, rfl, Nat.zero_add _⟩
  have hwaits : Waits parts {} := by
    rintro part rest rfl
    cases hblocks with
    | cons hblock _ => exact Nat.lt_of_lt_of_le (by decide) hblock.headerSize_le
  obtain ⟨hresults, hend⟩ := hstart.feedAll hwaits
  have hprocessed := hend.processed_eq
  have hbuffer := hend.buffer_eq
  refine ⟨hresults, ?_, hend.corrupted_eq, hend.decoded_eq, ?_, ?_⟩
  · rw [drain_eq]
    exact hend.queue_eq
  · rw [← hchunks]
    exact hprocessed
  · simpa using hbuffer

/-- A short note. -/
def note : Message where
  id := ⟨1⟩
  address := ⟨"notes", by decide⟩
  timestamp := .epoch
  body := [0x4b, 0x41, 0x45, 0x58]

/-- A record whose body of three bytes does not have the checksum in its header. -/
def torn : List UInt8 :=
  magic ++ [version, 0, 0, 0, 0, 0, 0, 3, 0, 0, 0, 0, 1, 2, 3]

theorem damaged_torn : Damaged torn := by
  refine ⟨⟨⟨0, 3, 0⟩, by decide +kernel, by decide⟩, ?_, ?_⟩
  · cases hread : read torn with
    | error e => exact ⟨e, rfl⟩
    | ok m =>
        have hfails : (read torn).isOk = false := by decide +kernel
        rw [hread] at hfails
        cases hfails
  · intro offset hpos hmagic
    have hoffset : offset ≤ torn.length - magic.length := by
      have hlength := hmagic.length_le
      rw [List.length_drop] at hlength
      have hpositive : 1 ≤ magic.length := by decide
      omega
    have hnone : ∀ offset ≤ torn.length - magic.length, 1 ≤ offset →
        ¬magic <+: torn.drop offset := by decide +kernel
    exact hnone offset hoffset hpos hmagic

/-- A damaged record between two notes whose bodies look like magic bytes, after an empty chunk
byte by byte. -/
theorem feedAll_blocks_bytewise :
    ∃ record, note.toRecordAs [] = .ok record ∧
      List.Forall₂ Block [some note, none, some note] [record, torn, record] ∧
      ([] :: [record, torn, record].flatten.map fun b => [b]).flatten =
        [record, torn, record].flatten ∧
      let after := (feedAll {} ([] :: [record, torn, record].flatten.map fun b => [b])).2
      after.drain = [note.asRead, note.asRead] ∧ after.stats.corrupted = 1 ∧
        after.stats.decoded = 2 ∧ after.buffer = [] := by
  obtain ⟨record, hrecord⟩ : ∃ record, note.toRecordAs [] = .ok record :=
    ⟨_, toRecordAs_eq_ok_iff.mpr ⟨by decide, rfl⟩⟩
  have hnote : Block (some note) record := .intact ⟨by decide, .new⟩ .nil hrecord
  have hblocks : List.Forall₂ Block [some note, none, some note] [record, torn, record] :=
    .cons hnote (.cons (.damaged damaged_torn) (.cons hnote .nil))
  have hchunks : ([] :: [record, torn, record].flatten.map fun b => [b]).flatten =
      [record, torn, record].flatten := by
    rw [List.flatten_cons, List.nil_append, ← List.flatMap_def, List.flatMap_singleton']
  obtain ⟨-, hdrain, hcorrupted, hdecoded, -, hbuffer⟩ := feedAll_blocks hblocks hchunks
  exact ⟨record, hrecord, hblocks, hchunks, hdrain, hcorrupted, hdecoded, hbuffer⟩

end StreamReader

end Courier
