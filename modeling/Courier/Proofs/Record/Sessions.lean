import Courier.Proofs.Record.Cuts

/-!
# Sessions with a Stream Reader

Whoever uses a stream reader feeds it chunks, takes out messages and resets it, in any order and
also after a call has failed. Between any two of these requests the reader's books agree with what
it holds: the header that it noted, the bytes that are waiting, and the messages that it read since
it was last reset.

Taking in a chunk is a loop. An iteration that uses bytes up may put some of them back, but fewer
than it took, so the loop comes to an end.

## Main definitions

* `StreamReader.Request`, `StreamReader.Answer`: what is asked of a reader, and what it answers.
* `StreamReader.serveAll`: requests one after another.
* `StreamReader.takenAfter`: the messages that were taken out since the last reset.
* `StreamReader.Accounted`: the books of a reader.
* `StreamReader.Iterates`, `StreamReader.Pending`: the loop, and what is left behind it.

## Main results

* `StreamReader.exists_iterates_run`: the loop comes to an end.
* `StreamReader.Noted.pending_feed`: what is left behind a call that does not fail.
* `StreamReader.Accounted.serve`, `StreamReader.serveAll_accounted`: the books after requests.
-/

namespace Courier

namespace StreamReader

open Record

/-! ### Requests -/

/-- What is asked of a reader. -/
inductive Request where
  /-- To take in a chunk. -/
  | feed (chunk : List UInt8)
  /-- To take in a chunk and hand out a message. -/
  | decode (chunk : List UInt8)
  /-- To hand out a message. -/
  | next
  /-- To start over. -/
  | reset
  deriving DecidableEq, Repr

/-- What a reader answers. -/
inductive Answer where
  /-- How many messages a chunk added. -/
  | fed (result : Except WireError Nat)
  /-- The oldest message behind a chunk. -/
  | decoded (result : Except WireError (Option Message))
  /-- The oldest message. -/
  | next (message : Option Message)
  /-- The reader is as new. -/
  | reset

/-- A reader serves a request. -/
def serve (r : StreamReader) : Request → Answer × StreamReader
  | .feed chunk => (.fed (r.feed chunk).2, (r.feed chunk).1)
  | .decode chunk => (.decoded (r.decode chunk).2, (r.decode chunk).1)
  | .next =>
    match r.next? with
    | none => (.next none, r)
    | some (m, r) => (.next (some m), r)
  | .reset => (.reset, {})

/-- A reader serves requests one after another. -/
def serveAll (r : StreamReader) : List Request → List Answer × StreamReader
  | [] => ([], r)
  | request :: rest =>
    let (answer, r) := r.serve request
    let (answers, r) := r.serveAll rest
    (answer :: answers, r)

/-- The messages that were taken out since the last reset, with those of one more answer. -/
def takenAfter (taken : List Message) : Answer → List Message
  | .fed _ => taken
  | .decoded (.error _) => taken
  | .decoded (.ok message) => taken ++ message.toList
  | .next message => taken ++ message.toList
  | .reset => []

/-! ### The loop -/

/-- A number of iterations that use bytes up. -/
inductive Iterates : Nat → StreamReader → StreamReader → Prop
  | zero (r : StreamReader) : Iterates 0 r r
  | succ {n : Nat} {r next last : StreamReader} (step : r.step = .more next)
      (rest : Iterates n next last) : Iterates (n + 1) r last

variable {r next : StreamReader} {taken : List Message} {chunk : List UInt8}

/-- **The loop comes to an end**, after no more iterations than there are bytes, when the reader
waits for more bytes or finds bytes of another kind of reader. -/
theorem exists_iterates_run (r : StreamReader) :
    ∃ n last, Iterates n r last ∧ n + last.buffer.length ≤ r.buffer.length ∧
      ((∃ after, last.step = .wait after ∧ r.run = (after, none)) ∨
        ∃ after e, last.step = .fail after e ∧ r.run = (after, some e)) := by
  induction r using run.induct with
  | case1 r after hstep =>
      exact ⟨0, r, .zero r, by omega, .inl ⟨after, hstep, run_of_wait hstep⟩⟩
  | case2 r after e hstep =>
      exact ⟨0, r, .zero r, by omega, .inr ⟨after, e, hstep, run_of_fail hstep⟩⟩
  | case3 r next hstep ih =>
      obtain ⟨n, last, hiterates, hlength, hend⟩ := ih
      have hfewer := length_lt_of_step_more hstep
      rw [run_of_more hstep]
      exact ⟨n + 1, last, .succ hstep hiterates, by omega, hend⟩

/-- Bytes that a reader cannot go on with before more of them arrive: no header, or the header of
a longer record. -/
def Pending (bytes : List UInt8) : Prop :=
  bytes.length < headerSize ∨
    ∃ header, RecordHeader.peek bytes = .ok (some header) ∧ bytes.length < header.recordSize

theorem Noted.pending_of_wait (h : r.Noted) (hstep : r.step = .wait next) :
    Pending next.buffer := by
  have hnext := h.next
  have hbuffer : next.buffer = r.buffer := by
    rw [hstep] at hnext
    cases hnext with
    | waits buffer_eq => exact buffer_eq
  rw [hbuffer]
  by_cases hshort : r.buffer.length < headerSize
  · exact .inl hshort
  refine .inr ?_
  cases hpeek : RecordHeader.peek r.buffer with
  | error e =>
      rw [h.step_of_peek_error hpeek] at hstep
      split at hstep <;> cases hstep
  | ok found =>
      cases found with
      | none => exact absurd (RecordHeader.short_of_peek hpeek) hshort
      | some header =>
          rw [h.step_of_peek hpeek, stepAt] at hstep
          split at hstep
          · next hunfinished => exact ⟨header, rfl, hunfinished⟩
          · cases hstep

theorem Iterates.noted {n : Nat} {last : StreamReader} (h : Iterates n r last) (hr : r.Noted) :
    last.Noted := by
  induction h with
  | zero => exact hr
  | succ step _ ih => exact ih (hr.of_step step).1

/-- **A call that does not fail leaves bytes behind that the reader cannot go on with.** -/
theorem Noted.pending_feed (h : r.Noted) {n : Nat} (hok : (r.feed chunk).2 = .ok n) :
    Pending (r.feed chunk).1.buffer := by
  obtain ⟨_, last, hiterates, -, ⟨after, hstep, hrun⟩ | ⟨after, e, -, hrun⟩⟩ :=
    exists_iterates_run (r.receive chunk)
  · have hpending := (hiterates.noted (h.receive chunk)).pending_of_wait hstep
    rwa [feed_of_run hrun]
  · rw [feed_of_run_error hrun] at hok
    cases hok

/-! ### The books -/

/-- The books of a reader agree with what it holds, when these messages were taken out since it was
new. -/
structure Accounted (taken : List Message) (r : StreamReader) : Prop where
  noted : r.Noted
  buffered_eq : r.stats.buffered = r.buffer.length
  length_le_peak : r.buffer.length ≤ r.stats.peak
  decoded_eq : r.stats.decoded = taken.length + r.queue.length

theorem accounted_new : Accounted [] {} :=
  ⟨noted_new, rfl, Nat.le_refl _, rfl⟩

/-- The reader behind a step. -/
def Step.reader : Step → StreamReader
  | .wait r => r
  | .fail r _ => r
  | .more r => r

/-- A step counts the messages that it queues, and does not touch the peak. -/
theorem counts_step (r : StreamReader) :
    r.step.reader.stats.peak = r.stats.peak ∧
      r.step.reader.stats.decoded + r.queue.length =
        r.stats.decoded + r.step.reader.queue.length := by
  have htake : ∀ size, (r.takeRecord size).stats.peak = r.stats.peak ∧
      (r.takeRecord size).stats.decoded + r.queue.length =
        r.stats.decoded + (r.takeRecord size).queue.length := by
    intro size
    rw [takeRecord]
    split
    · simp only [List.length_append, List.length_singleton, true_and]
      omega
    · exact ⟨rfl, rfl⟩
  have hat : ∀ header, (r.stepAt header).reader.stats.peak = r.stats.peak ∧
      (r.stepAt header).reader.stats.decoded + r.queue.length =
        r.stats.decoded + (r.stepAt header).reader.queue.length := by
    intro header
    rw [stepAt]
    split
    · exact ⟨rfl, rfl⟩
    · exact htake _
  rw [step]
  split
  · exact ⟨rfl, rfl⟩
  · split
    · exact hat _
    · split
      · exact hat _
      · exact ⟨rfl, rfl⟩
      · split <;> exact ⟨rfl, rfl⟩

theorem counts_run (r : StreamReader) :
    r.run.1.stats.peak = r.stats.peak ∧
      r.run.1.stats.decoded + r.queue.length = r.stats.decoded + r.run.1.queue.length := by
  induction r using run.induct with
  | case1 r after hstep =>
      have hcounts := r.counts_step
      rw [hstep] at hcounts
      rwa [run_of_wait hstep]
  | case2 r after e hstep =>
      have hcounts := r.counts_step
      rw [hstep] at hcounts
      rwa [run_of_fail hstep]
  | case3 r next hstep ih =>
      obtain ⟨hpeak, hdecoded⟩ := r.counts_step
      rw [hstep] at hpeak hdecoded
      simp only [Step.reader] at hpeak hdecoded
      rw [run_of_more hstep]
      exact ⟨ih.1.trans hpeak, by omega⟩

/-- What a call makes of a reader, whether it fails or not. -/
theorem feed_fst (r : StreamReader) (chunk : List UInt8) :
    (r.feed chunk).1 =
      { (r.receive chunk).run.1 with
        stats.buffered := (r.receive chunk).run.1.buffer.length } := by
  rcases hrun : (r.receive chunk).run with ⟨after, _ | e⟩
  · rw [feed_of_run hrun]
  · rw [feed_of_run_error hrun]

theorem Accounted.feed (h : Accounted taken r) (chunk : List UInt8) :
    Accounted taken (r.feed chunk).1 := by
  obtain ⟨hnoted, hsuffix⟩ := (h.noted.receive chunk).of_run
  obtain ⟨hpeak, hdecoded⟩ := (r.receive chunk).counts_run
  have hbefore := h.decoded_eq
  rw [feed_fst]
  refine ⟨hnoted, rfl, ?_, ?_⟩
  · dsimp only
    rw [hpeak]
    exact Nat.le_trans hsuffix.length_le (Nat.le_max_right ..)
  · dsimp only
    dsimp only [receive] at hdecoded ⊢
    omega

/-- Handing out a message. -/
theorem Accounted.next? (h : Accounted taken r) {m : Message} {after : StreamReader}
    (hnext : r.next? = some (m, after)) : Accounted (taken ++ [m]) after := by
  rw [StreamReader.next?] at hnext
  split at hnext
  · cases hnext
  · next hqueue =>
      cases hnext
      refine ⟨h.noted, h.buffered_eq, h.length_le_peak, ?_⟩
      have hdecoded := h.decoded_eq
      rw [hqueue, List.length_cons] at hdecoded
      rw [List.length_append, List.length_singleton]
      dsimp only
      omega

/-- The three outcomes of taking in a chunk and handing out a message. -/
theorem decode_cases (r : StreamReader) (chunk : List UInt8) :
    (∃ e, (r.feed chunk).2 = .error e ∧ r.decode chunk = ((r.feed chunk).1, .error e)) ∨
    (∃ n, (r.feed chunk).2 = .ok n ∧ (r.feed chunk).1.next? = none ∧
      r.decode chunk = ((r.feed chunk).1, .ok none)) ∨
    ∃ n m after, (r.feed chunk).2 = .ok n ∧ (r.feed chunk).1.next? = some (m, after) ∧
      r.decode chunk = (after, .ok (some m)) := by
  rcases hfeed : r.feed chunk with ⟨after, e | n⟩
  · exact .inl ⟨e, rfl, by rw [decode, hfeed]⟩
  · cases hnext : after.next? with
    | none => exact .inr (.inl ⟨n, rfl, rfl, by simp only [decode, hfeed, hnext]⟩)
    | some taken =>
        exact .inr (.inr ⟨n, taken.1, taken.2, rfl, rfl, by simp only [decode, hfeed, hnext]⟩)

theorem buffer_of_next? {m : Message} {after : StreamReader} (h : r.next? = some (m, after)) :
    after.buffer = r.buffer := by
  rw [next?] at h
  split at h <;> cases h
  rfl

theorem Noted.pending_decode (h : r.Noted) {m : Option Message}
    (hok : (r.decode chunk).2 = .ok m) : Pending (r.decode chunk).1.buffer := by
  rcases r.decode_cases chunk with ⟨e, -, heq⟩ | ⟨n, hfeed, -, heq⟩ |
    ⟨n, m', after, hfeed, hnext, heq⟩
  · rw [heq] at hok
    cases hok
  · rw [heq]
    exact h.pending_feed hfeed
  · rw [heq, buffer_of_next? hnext]
    exact h.pending_feed hfeed

/-- **The books after one request.** -/
theorem Accounted.serve (h : Accounted taken r) (request : Request) :
    Accounted (takenAfter taken (r.serve request).1) (r.serve request).2 := by
  cases request with
  | feed chunk => exact h.feed chunk
  | decode chunk =>
      simp only [StreamReader.serve]
      rcases r.decode_cases chunk with ⟨e, -, heq⟩ | ⟨n, -, -, heq⟩ | ⟨n, m, after, -, hnext, heq⟩
      · rw [heq]
        exact h.feed chunk
      · rw [heq, takenAfter, Option.toList_none, List.append_nil]
        exact h.feed chunk
      · rw [heq]
        exact (h.feed chunk).next? hnext
  | next =>
      simp only [StreamReader.serve]
      split
      · rw [takenAfter, Option.toList_none, List.append_nil]
        exact h
      · next hnext => exact h.next? hnext
  | reset => exact accounted_new

theorem Accounted.serveAll (h : Accounted taken r) (requests : List Request) :
    Accounted ((r.serveAll requests).1.foldl takenAfter taken) (r.serveAll requests).2 := by
  induction requests generalizing taken r with
  | nil => exact h
  | cons request rest ih => exact ih (h.serve request)

/-- **The books of a reader after any requests.** For a reader that was new:

* a header that it noted is the one at the front of its bytes;
* the bytes that it says are waiting are those that are, and never more than the peak;
* it read as many messages as were taken out since the last reset and are queued;
* for each chunk the loop ends after no more iterations than there are bytes, each of which leaves
  fewer bytes, also where some are put back;
* a call that does not fail leaves fewer bytes than a header has, or the header of a record that is
  longer than what is there. -/
theorem serveAll_accounted (requests : List Request) :
    let (answers, r) := serveAll {} requests
    (∀ header, r.expected = some header → RecordHeader.peek r.buffer = .ok (some header)) ∧
      r.stats.buffered = r.buffer.length ∧ r.buffer.length ≤ r.stats.peak ∧
      r.stats.decoded = (answers.foldl takenAfter []).length + r.queue.length ∧
      ∀ chunk,
        (∃ n last, Iterates n (r.receive chunk) last ∧ n ≤ (r.buffer ++ chunk).length ∧
          ((∃ after, last.step = .wait after ∧ (r.receive chunk).run = (after, none)) ∨
            ∃ after e, last.step = .fail after e ∧ (r.receive chunk).run = (after, some e))) ∧
        (∀ n between next, Iterates n (r.receive chunk) between → between.step = .more next →
          next.buffer.length < between.buffer.length) ∧
        (∀ n, (r.feed chunk).2 = .ok n → Pending (r.feed chunk).1.buffer) ∧
        ∀ m, (r.decode chunk).2 = .ok m → Pending (r.decode chunk).1.buffer := by
  have h := accounted_new.serveAll requests
  refine ⟨h.noted, h.buffered_eq, h.length_le_peak, h.decoded_eq, fun chunk =>
    ⟨?_, fun _ _ _ _ => length_lt_of_step_more, fun _ => h.noted.pending_feed,
      fun _ => h.noted.pending_decode⟩⟩
  obtain ⟨n, last, hiterates, hlength, hend⟩ :=
    exists_iterates_run ((serveAll {} requests).2.receive chunk)
  exact ⟨n, last, hiterates, Nat.le_trans (Nat.le_add_right ..) hlength, hend⟩

end StreamReader

end Courier
