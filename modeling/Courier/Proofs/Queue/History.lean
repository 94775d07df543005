import Courier.Proofs.Queue.Plain

/-!
# A Queue over its History

A queue that does not collapse values is compared with plain lists over any history of requests.
The queue and the lists get the same requests and give the same answers, and what the queue shows
in between is read off the lists.

## Main definitions

* `Queue.Request`, `Queue.Answer`, `Queue.serve`: the requests to a queue and what it answers.
* `PlainQueue.serve`: the same requests to plain lists.
* `Queue.serveAll`: requests in turn.

## Main results

* `Queue.LaidOut.serve`, `Queue.LaidOut.serve_plain`: a queue follows the lists in one step.
* `Queue.serveAll_eq_plain`: a queue follows the lists over any history.
-/

namespace Courier

namespace Queue

/-- A request to a queue. -/
inductive Request where
  /-- A message is added. -/
  | add (m : Message)
  /-- A reference is handed out. -/
  | poll (now : Timestamp)
  /-- A delivery is acknowledged. -/
  | acknowledge (id : MessageId)
  /-- A delivery is cancelled. -/
  | cancel (id : MessageId)
  /-- What is expired is taken out. -/
  | expire (now : Timestamp)
  /-- Everything is taken out. -/
  | drain

/-- What a queue answers. -/
inductive Answer where
  /-- What became of a message that was added. -/
  | added (outcome : AddOutcome)
  /-- The reference that was handed out, if there was one. -/
  | polled (r : Option Reference)
  /-- The reference whose delivery was acknowledged. -/
  | acknowledged (result : Except BrokerError Reference)
  /-- What became of the reference whose delivery was cancelled. -/
  | cancelled (result : Except BrokerError CancelOutcome)
  /-- The references that were taken out. -/
  | removed (references : List Reference)

/-- The answer to a request that may fail, and the state afterwards. -/
def Answer.after {α σ : Type} (answer : Except BrokerError α → Answer) (s : σ) :
    Except BrokerError (α × σ) → Answer × σ
  | .ok (a, s') => (answer (.ok a), s')
  | .error e => (answer (.error e), s)

/-- The answer to a request and the queue afterwards. -/
def serve (q : Queue) : Request → Answer × Queue
  | .add m => (.added (q.add m).1, (q.add m).2)
  | .poll now => (.polled (q.poll now).1, (q.poll now).2)
  | .acknowledge id => Answer.after .acknowledged q (q.acknowledge id)
  | .cancel id => Answer.after .cancelled q (q.cancel id)
  | .expire now => (.removed (q.expire now).1, (q.expire now).2)
  | .drain => (.removed q.drain.1, q.drain.2)

end Queue

/-- The answer to a request and the lists afterwards. -/
def PlainQueue.serve (p : PlainQueue) : Queue.Request → Queue.Answer × PlainQueue
  | .add m => (.added .added, p.add m)
  | .poll now => (.polled (p.poll now).1, (p.poll now).2)
  | .acknowledge id => Queue.Answer.after .acknowledged p (p.acknowledge id)
  | .cancel id => Queue.Answer.after .cancelled p (p.cancel id)
  | .expire now => (.removed (p.expire now).1, (p.expire now).2)
  | .drain => (.removed p.drain.1, p.drain.2)

namespace Queue

/-- The answers to requests in turn, and what they lead to. -/
def serveAll {σ : Type} (serve : σ → Request → Answer × σ) (s : σ) :
    List Request → List Answer × σ
  | [] => ([], s)
  | request :: requests =>
    let (answer, s) := serve s request
    let (answers, s) := serveAll serve s requests
    (answer :: answers, s)

/-- One more request after others. -/
theorem serveAll_concat {σ : Type} (serve : σ → Request → Answer × σ) (s : σ)
    (requests : List Request) (request : Request) :
    serveAll serve s (requests ++ [request]) =
      ((serveAll serve s requests).1 ++
          [(serve (serveAll serve s requests).2 request).1],
        (serve (serveAll serve s requests).2 request).2) := by
  induction requests generalizing s with
  | nil => rfl
  | cons first requests ih =>
      rw [List.cons_append, serveAll]
      dsimp only
      rw [ih]
      rfl

variable {q : Queue}

theorem after_map {α σ τ : Type} (answer : Except BrokerError α → Answer) (s : σ) (f : σ → τ)
    (result : Except BrokerError (α × σ)) :
    Answer.after answer (f s) (result.map fun (a, s') => (a, f s')) =
      ((Answer.after answer s result).1, f (Answer.after answer s result).2) := by
  rcases result with e | ⟨a, s'⟩ <;> rfl

/-- What holds before a request that may fail, and after it whenever it does not. -/
theorem Answer.of_after {α σ : Type} {P : σ → Prop} {answer : Except BrokerError α → Answer}
    {s : σ} {result : Except BrokerError (α × σ)} (h : P s)
    (hok : ∀ a s', result = .ok (a, s') → P s') : P (Answer.after answer s result).2 := by
  rcases result with e | ⟨a, s'⟩
  · exact h
  · exact hok a s' rfl

/-! ### One step -/

/-- Slots lead to the pending references after every request. -/
theorem LaidOut.serve (h : q.LaidOut q.order) (request : Request) :
    (q.serve request).2.LaidOut (q.serve request).2.order := by
  cases request with
  | add m => exact h.add m
  | poll now => exact (h.poll now).1
  | acknowledge id =>
      exact Answer.of_after (P := fun q : Queue => q.LaidOut q.order) h fun _ _ => h.acknowledge
  | cancel id =>
      exact Answer.of_after (P := fun q : Queue => q.LaidOut q.order) h fun _ _ => h.cancel
  | expire now => exact (h.expire now).1
  | drain => exact h.drain.1

/-- Whatever a queue is asked but to take a message, it does what the lists do. -/
theorem LaidOut.serve_plain_of_not_add (h : q.LaidOut q.order) {request : Request}
    (hadd : ∀ m, request ≠ .add m) :
    q.plain.serve request = ((q.serve request).1, (q.serve request).2.plain) := by
  cases request with
  | add m => exact absurd rfl (hadd m)
  | poll now => rw [PlainQueue.serve, (h.poll now).2, Queue.serve]
  | acknowledge id => rw [PlainQueue.serve, acknowledge_plain, after_map, Queue.serve]
  | cancel id => rw [PlainQueue.serve, h.cancel_plain, after_map, Queue.serve]
  | expire now => rw [PlainQueue.serve, (h.expire now).2, Queue.serve]
  | drain => rw [PlainQueue.serve, h.drain.2, Queue.serve]

/-- A queue that does not collapse values does what the lists do. -/
theorem LaidOut.serve_plain (h : q.LaidOut q.order) (hq : q.isLastValue = false)
    (request : Request) :
    q.plain.serve request = ((q.serve request).1, (q.serve request).2.plain) := by
  cases request with
  | add m =>
      have hkey : q.settings.lastValueKey = none := by simpa [QueueInfo.isLastValue] using hq
      have hvalue : q.lastValueOf m = none := by rw [QueueInfo.lastValueOf, hkey, Option.bind_none]
      obtain ⟨-, hadded, hplain⟩ := h.add_behind (m := m) (by rw [hvalue, Option.bind_none])
      rw [Queue.serve, hadded, hplain, hvalue]
      rfl
  | _ => exact h.serve_plain_of_not_add fun m hadd => by cases hadd

end Queue

theorem PlainQueue.info_serve (p : PlainQueue) (request : Queue.Request) :
    (p.serve request).2.toQueueInfo = p.toQueueInfo := by
  cases request with
  | poll now =>
      rw [serve, poll]
      dsimp only
      split <;> rfl
  | acknowledge id =>
      rw [serve, acknowledge]
      split <;> rfl
  | cancel id =>
      rw [serve, cancel]
      split
      · rfl
      · dsimp only
        split <;> rfl
  | _ => rfl

namespace Queue

variable {q : Queue}

theorem LaidOut.info_serve (h : q.LaidOut q.order) (request : Request) :
    (q.serve request).2.toQueueInfo = q.toQueueInfo := by
  by_cases hadd : ∃ m, request = .add m
  · obtain ⟨m, rfl⟩ := hadd
    cases hindexed : (q.lastValueOf m).bind q.indexed? with
    | none => exact congrArg PlainQueue.toQueueInfo (h.add_behind hindexed).2.2
    | some found =>
        obtain ⟨-, -, _, _, -, hplain⟩ := h.add_inPlace hindexed
        exact congrArg PlainQueue.toQueueInfo hplain
  · have hplain := h.serve_plain_of_not_add fun m hrequest => hadd ⟨m, hrequest⟩
    exact (congrArg (·.2.toQueueInfo) hplain).symm.trans (q.plain.info_serve request)

/-! ### Any history -/

theorem LaidOut.serveAll (h : q.LaidOut q.order) (requests : List Request) :
    (Queue.serveAll Queue.serve q requests).2.LaidOut
      (Queue.serveAll Queue.serve q requests).2.order := by
  induction requests generalizing q with
  | nil => exact h
  | cons request requests ih => exact ih (h.serve request)

theorem LaidOut.serveAll_plain (h : q.LaidOut q.order) (hq : q.isLastValue = false)
    (requests : List Request) :
    Queue.serveAll PlainQueue.serve q.plain requests =
      ((Queue.serveAll Queue.serve q requests).1,
        (Queue.serveAll Queue.serve q requests).2.plain) := by
  induction requests generalizing q with
  | nil => rfl
  | cons request requests ih =>
      have hnext : (q.serve request).2.isLastValue = false := by rw [h.info_serve, hq]
      rw [Queue.serveAll, Queue.serveAll, h.serve_plain hq]
      dsimp only
      rw [ih (h.serve request) hnext]

/-- **A queue that does not collapse values is its plain lists**: whatever it is asked, in any
order and with any identifiers, it gives the answers that the lists give and shows what they
show. -/
theorem serveAll_eq_plain {info : QueueInfo} (hinfo : info.isLastValue = false)
    (requests : List Request) :
    let run := Queue.serveAll Queue.serve (.empty info) requests
    let plain := Queue.serveAll PlainQueue.serve (.empty info) requests
    run.1 = plain.1 ∧ run.2.browse = plain.2.browse ∧
      run.2.messageCount = plain.2.messageCount ∧
      run.2.delivering.size = plain.2.delivering.size := by
  have hnew := laidOut_empty info
  have hsame := hnew.serveAll_plain hinfo requests
  have hlast := hnew.serveAll requests
  intro run plain
  have hplain : plain = (run.1, run.2.plain) := hsame
  rw [hplain]
  exact ⟨rfl, browse_eq _, hlast.messageCount_eq, rfl⟩

/-- A queue that gives messages up after two deliveries. -/
def counter : QueueInfo where
  name := "counter"
  address := ⟨"tickets", by decide⟩
  settings := { maxDeliveryAttempts := 2 }

/-- A ticket with a number, which may expire. -/
def ticket (number : BitVec 128) (expiration : Option Timestamp := none) : Message where
  id := ⟨number⟩
  address := ⟨"tickets", by decide⟩
  timestamp := .epoch
  expiration

/-- A busy day: everything is withdrawn once, one ticket is handed out twice at a time, comes back
and is given up, one is found to be late when it would be handed out and one by the sweep, and a
delivery is acknowledged that there is not. -/
def busyDay : List Request :=
  let later : Timestamp := .atMillis 2000 (by decide)
  [.add (ticket 9), .poll .epoch, .add (ticket 9), .drain,
    .add (ticket 1), .add (ticket 1), .add (ticket 2 (some (.atMillis 1000 (by decide)))),
    .add (ticket 3), .poll .epoch, .poll .epoch, .cancel ⟨1⟩, .poll later, .acknowledge ⟨7⟩,
    .cancel ⟨1⟩, .poll later, .add (ticket 4 (some (.atMillis 1500 (by decide)))),
    .add (ticket 5), .expire later]

/-- At the end of the day the last ticket waits and the one before is in delivery. -/
theorem serveAll_eq_plain_busyDay :
    counter.isLastValue = false ∧
      (let run := Queue.serveAll Queue.serve (.empty counter) busyDay
      let plain := Queue.serveAll PlainQueue.serve (.empty counter) busyDay
      run.1 = plain.1 ∧ run.2.browse = plain.2.browse ∧
        run.2.messageCount = plain.2.messageCount ∧
        run.2.delivering.size = plain.2.delivering.size) ∧
      (let plain := Queue.serveAll PlainQueue.serve (.empty counter) busyDay
      plain.2.browse = [ticket 5] ∧ plain.2.messageCount = 2) :=
  ⟨rfl, serveAll_eq_plain rfl busyDay, by decide +kernel⟩

end Queue

end Courier
