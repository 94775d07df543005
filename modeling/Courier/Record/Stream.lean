import Courier.Record

/-!
# Streams of Records

Records arrive in chunks that need not end where a record ends. A stream reader gathers the
chunks, takes out every record that is complete and queues its message. Damaged bytes are
skipped up to the next magic bytes: after a bad header within what has arrived, after a bad
record within the record itself.

## Main definitions

* `StreamReader`: the bytes, the messages and the counts of a reader.
* `StreamReader.feed`: takes in a chunk and reads as many records as it can.
* `StreamReader.next?`: takes out the oldest message that is waiting.
* `StreamReader.ofMessages`: the messages in a whole stream.
-/

namespace Courier

/-- What a stream reader counts. -/
structure StreamStats where
  /-- Records that were read. -/
  decoded : Nat := 0
  /-- Bytes that came in. -/
  processed : Nat := 0
  /-- How often a record had to wait for more bytes. -/
  incomplete : Nat := 0
  /-- Stretches of damaged bytes that were skipped. -/
  corrupted : Nat := 0
  /-- Bytes that are waiting, as of the last feed. -/
  buffered : Nat := 0
  /-- The most bytes that were ever waiting. -/
  peak : Nat := 0
  deriving DecidableEq, Repr

/-- A reader of a stream of records. -/
structure StreamReader where
  /-- The bytes that are waiting. -/
  buffer : List UInt8 := []
  /-- The messages that are waiting, oldest first. -/
  queue : List Message := []
  /-- The header at the front, once it was read. -/
  expected : Option RecordHeader := none
  /-- The counts. -/
  stats : StreamStats := {}
  deriving Repr

namespace StreamReader

/-- The rest of some bytes from the first magic bytes on. -/
def fromMagic? : List UInt8 → Option (List UInt8)
  | [] => none
  | b :: rest =>
    if Record.magic.isPrefixOf (b :: rest) then some (b :: rest) else fromMagic? rest

theorem length_le_of_fromMagic? {bytes rest : List UInt8} (h : fromMagic? bytes = some rest) :
    rest.length ≤ bytes.length := by
  induction bytes with
  | nil => simp [fromMagic?] at h
  | cons b bytes ih =>
    simp only [fromMagic?] at h
    split at h
    · cases h; exact Nat.le_refl _
    · exact Nat.le_succ_of_le (ih h)

/-- What a reader does next with the bytes that are waiting. -/
inductive Step where
  /-- There is nothing to do before more bytes arrive. -/
  | wait (reader : StreamReader)
  /-- The bytes at the front belong to another kind of reader. -/
  | fail (reader : StreamReader) (error : WireError)
  /-- Some bytes were used up. -/
  | more (reader : StreamReader)
  deriving Repr

/-- The reader without the bytes up to the next magic bytes behind the first byte. -/
def skipDamage (r : StreamReader) : StreamReader :=
  { r with
    buffer := (fromMagic? (r.buffer.drop 1)).getD []
    stats.corrupted := r.stats.corrupted + 1 }

/-- The reader after taking out a complete record of the given size. Of a record that cannot be
read the bytes from the next magic bytes inside it on are kept. -/
def takeRecord (r : StreamReader) (size : Nat) : StreamReader :=
  let record := r.buffer.take size
  let rest := r.buffer.drop size
  match Record.read record with
  | .ok m =>
    { r with
      buffer := rest
      expected := none
      queue := r.queue ++ [m]
      stats.decoded := r.stats.decoded + 1 }
  | .error _ =>
    { r with
      buffer := (fromMagic? (record.drop 1)).getD [] ++ rest
      expected := none
      stats.corrupted := r.stats.corrupted + 1 }

/-- What the reader does next when the given header stands at the front. -/
def stepAt (r : StreamReader) (header : RecordHeader) : Step :=
  if r.buffer.length < header.recordSize then
    .wait { r with expected := some header, stats.incomplete := r.stats.incomplete + 1 }
  else .more (r.takeRecord header.recordSize)

/-- What the reader does next. -/
def step (r : StreamReader) : Step :=
  if r.buffer.length < Record.headerSize then .wait r
  else
    match r.expected with
    | some header => r.stepAt header
    | none =>
      match RecordHeader.peek r.buffer with
      | .ok (some header) => r.stepAt header
      | .ok none => .wait r
      | .error e => if e.isCorruption then .more r.skipDamage else .fail r e

theorem length_getD_fromMagic? (bytes : List UInt8) :
    ((fromMagic? bytes).getD []).length ≤ bytes.length := by
  cases h : fromMagic? bytes with
  | none => simp
  | some rest => simpa using length_le_of_fromMagic? h

theorem length_skipDamage {r : StreamReader} (h : 0 < r.buffer.length) :
    r.skipDamage.buffer.length < r.buffer.length := by
  have := length_getD_fromMagic? (r.buffer.drop 1)
  rw [List.length_drop] at this
  simp only [skipDamage]
  omega

theorem length_takeRecord {r : StreamReader} {size : Nat} (hpos : 0 < size)
    (hsize : size ≤ r.buffer.length) : (r.takeRecord size).buffer.length < r.buffer.length := by
  simp only [takeRecord]
  split
  · simp only [List.length_drop]
    omega
  · have := length_getD_fromMagic? ((r.buffer.take size).drop 1)
    rw [List.length_drop, List.length_take] at this
    simp only [List.length_append, List.length_drop]
    omega

/-- Every step that uses bytes up leaves fewer of them, also when some are put back. -/
theorem length_lt_of_step_more {r next : StreamReader} (h : r.step = .more next) :
    next.buffer.length < r.buffer.length := by
  have hat : ∀ header, r.stepAt header = .more next →
      next.buffer.length < r.buffer.length := by
    intro header h
    unfold stepAt at h
    split at h
    · cases h
    · cases h
      exact length_takeRecord header.recordSize_pos (by omega)
  unfold step at h
  split at h
  · cases h
  · next hlen =>
    split at h
    · exact hat _ h
    · split at h
      · exact hat _ h
      · cases h
      · split at h
        · cases h
          exact length_skipDamage (by simp only [Record.headerSize] at hlen; omega)
        · cases h

/-- Goes on with `step` as long as it uses bytes up. -/
def run (r : StreamReader) : StreamReader × Option WireError :=
  match _h : r.step with
  | .wait r => (r, none)
  | .fail r e => (r, some e)
  | .more next => run next
termination_by r.buffer.length
decreasing_by exact length_lt_of_step_more _h

/-- Takes in a chunk and reads as many records as it can. The result is the number of messages
that were added. -/
def feed (r : StreamReader) (chunk : List UInt8) : StreamReader × Except WireError Nat :=
  let buffer := r.buffer ++ chunk
  let (after, error) :=
    run
      { r with
        buffer
        stats.processed := r.stats.processed + chunk.length
        stats.peak := max r.stats.peak buffer.length }
  ({ after with stats.buffered := after.buffer.length },
    match error with
    | some e => .error e
    | none => .ok (after.stats.decoded - r.stats.decoded))

/-- Takes out the oldest message that is waiting. -/
def next? (r : StreamReader) : Option (Message × StreamReader) :=
  match r.queue with
  | [] => none
  | m :: rest => some (m, { r with queue := rest })

/-- Takes in a chunk and takes out the oldest message that is then waiting. -/
def decode (r : StreamReader) (chunk : List UInt8) :
    StreamReader × Except WireError (Option Message) :=
  match r.feed chunk with
  | (r, .error e) => (r, .error e)
  | (r, .ok _) =>
    match r.next? with
    | some (m, r) => (r, .ok (some m))
    | none => (r, .ok none)

/-- The messages in a whole stream. -/
def ofMessages (bytes : List UInt8) : Except WireError (List Message) :=
  match feed {} bytes with
  | (r, .ok _) => .ok r.queue
  | (_, .error e) => .error e

end StreamReader

end Courier
