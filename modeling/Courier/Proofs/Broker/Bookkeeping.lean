import Courier.Proofs.Broker.Lifetime

/-!
# The Bookkeeping of a Broker

However queues and diverts come and go and messages are published and delivered, the count that a
broker keeps of each durable message is the number of references to it in the durable queues that
are deployed, and its store has exactly the messages with a reference, in the order in which they
were stored.

## Main definitions

* `Broker.InBalance`: the counts and the store agree with the queues.

## Main results

* `Books.inBalance`: books that are right with nothing owed say so.
* `Broker.serve_inBalance`: **a broker is in balance after every request.**
-/

namespace Courier

/-- The counts and the store of a broker agree with its queues. -/
structure Broker.InBalance (b : Broker MessageLog) : Prop where
  /-- A message is counted once for each durable queue that holds it, and not at all if there is
  none. -/
  count_eq : ∀ id, b.durableCounts.get? id = positive ((b.heldDurably.map Message.id).count id)
  /-- The store has taken each durable message that is held, no message twice, and loads those
  that are counted, in the order in which it took them. -/
  stored : ∃ appended, b.store.Holds appended ∧ (appended.map Message.id).Nodup ∧
    (∀ m ∈ b.heldDurably, m ∈ appended) ∧
    b.store.load =
      .ok ((appended.filter fun m => b.durableCounts.contains m.id).map Message.asRead)

theorem contains_iff_of_count_eq {counts : Dictionary MessageId Nat} {id : MessageId}
    {ids : List MessageId} (h : counts.get? id = positive (ids.count id)) :
    counts.contains id ↔ id ∈ ids := by
  rw [Dictionary.contains, h, positive, ← List.count_pos_iff]
  split
  · next hzero => simp [hzero]
  · next hpos => simpa using Nat.pos_of_ne_zero hpos

/-- Books that are right with nothing owed, over a store that was empty. -/
theorem Books.inBalance {good : BindingId → Message → Prop} {turns : Nat}
    {pool appended : List Message} {b : Broker MessageLog}
    (h : Books good turns {} pool [] appended b) (hwired : b.Wired) : b.InBalance := by
  have hstored : b.store.Holds appended := h.stored
  have hheld := hwired.heldDurably_perm h.router
  have hkept := h.kept_mem
  have hcount := h.count_eq
  rw [List.append_nil] at hkept hcount
  refine ⟨fun id => ?_, appended, hstored, h.appended_nodup, fun m hm => ?_, ?_⟩
  · rw [hcount, ((hheld.map Message.id).count_eq id)]
  · exact hkept m (hheld.mem_iff.mp hm)
  · rw [hstored.load_eq, MessageLog.unhidden]
    congr 2
    refine List.filter_congr fun m hm => ?_
    have hremoved := h.removed_iff m hm
    rw [List.append_nil] at hremoved
    have hcontains := contains_iff_of_count_eq (hcount m.id)
    rw [Bool.eq_iff_iff, hcontains, Bool.not_eq_true', ← Bool.not_eq_true, List.contains_iff_mem,
      hremoved, not_not]

/-- **A broker is in balance after every request**, as long as messages come with identifiers of
their own and no message is lost to a store that refuses its copy. If their times are whole
milliseconds, what is loaded of a held message is the same message. -/
theorem Broker.serve_inBalance {levels : String → Bool} {walks : WalkOrders} {c : Config}
    {ids : IdSupply} {b : Broker MessageLog} (hdeploy : deploy levels walks c {} ids = .ok b)
    {requests : List BrokerRequest}
    (hread : ∀ m ∈ requests.flatMap BrokerRequest.published, m.Readable)
    (hfresh : ((requests.flatMap BrokerRequest.published).map Message.id ++
      ids.handedOut (b.serve requests).2.ids.used).Nodup)
    (hstore : ∀ e ∈ (b.serve requests).1, e.owes = false) {before : List BrokerRequest}
    (hbefore : before <+: requests) :
    (b.serve before).2.InBalance ∧
      ((∀ m ∈ requests.flatMap BrokerRequest.published, m.TimesWhole) →
        ∀ m ∈ (b.serve before).2.heldDurably, m.asRead.sameContent m) := by
  obtain ⟨after, hrequests⟩ := hbefore
  have htrue : ∀ id m, b.router.registry.Accepts id m → True := fun _ _ _ => trivial
  obtain ⟨hwired, pool, owed, appended, hbooks, -, howed⟩ := serve_books_of_deploy hdeploy .empty
    hrequests.symm htrue (fun _ _ _ _ _ => trivial) hread
    (Leftovers.admits_iff_of_empty.mpr hfresh)
  rw [← hrequests, serve_append] at hstore
  rw [howed fun e he => hstore e (List.mem_append_left _ he)] at hbooks
  refine ⟨hbooks.inBalance hwired, fun hwhole m hm => ?_⟩
  rw [← hrequests, List.flatMap_append] at hwhole
  obtain ⟨-, id, q, hq, -, hheld⟩ :=
    Router.mem_kept_iff.mp ((hwired.heldDurably_perm hbooks.router).mem_iff.mp hm)
  exact (held_timesWhole hdeploy (fun n hn => hwhole n (List.mem_append_left _ hn)) hq
    hheld).sameContent_asRead

/-- Of two orders the first queue acknowledges one and gives the other one up. -/
def Broker.mixedFates : List BrokerRequest :=
  [.publish (order 1), .publish (order 2), .receive "first" .epoch,
    .acknowledge "first" (order 1).id, .receive "first" .epoch,
    .cancelDelivery "first" (order 2).id]

/-- Afterwards the second queue still holds both orders, and a third message was made. -/
theorem Broker.serve_inBalance_mixedFates :
    ∃ b, deploy LogLevel.isSound {} twoQueues {} (consecutive 100) = .ok b ∧
      (b.serve mixedFates).2.InBalance ∧
      (∀ m ∈ (b.serve mixedFates).2.heldDurably, m.asRead.sameContent m) ∧
      (b.serve mixedFates).2.heldDurably.map Message.id = [⟨100⟩, ⟨1⟩, ⟨2⟩] := by
  have hcheck : (deploy LogLevel.isSound {} twoQueues ({} : MessageLog)
      (consecutive 100)).toOption.any fun b =>
      decide (((mixedFates.flatMap BrokerRequest.published).map Message.id ++
        (consecutive 100).handedOut (b.serve mixedFates).2.ids.used).Nodup) &&
      (b.serve mixedFates).1.all (fun e => !e.owes) &&
      decide ((b.serve mixedFates).2.heldDurably.map Message.id = [⟨100⟩, ⟨1⟩, ⟨2⟩]) := by
    decide +kernel
  obtain ⟨b, hdeploy, hcheck⟩ := exists_ok_of_any hcheck
  rw [Bool.and_eq_true, Bool.and_eq_true, decide_eq_true_iff, decide_eq_true_iff,
    List.all_eq_true] at hcheck
  obtain ⟨⟨hfresh, howes⟩, hheld⟩ := hcheck
  have horders : ∀ m ∈ mixedFates.flatMap BrokerRequest.published, m.Readable ∧ m.TimesWhole := by
    intro m hm
    have hm : m = order 1 ∨ m = order 2 := by simpa [mixedFates, BrokerRequest.published] using hm
    rcases hm with rfl | rfl <;> exact ⟨readable_order _, timesWhole_order _⟩
  obtain ⟨hbalance, hsame⟩ := serve_inBalance hdeploy (fun m hm => (horders m hm).1) hfresh
    (fun e he => by simpa using howes e he) (List.prefix_refl mixedFates)
  exact ⟨b, hdeploy, hbalance, hsame fun m hm => (horders m hm).2, hheld⟩

end Courier
