import Courier.Proofs.Queue.Collapsing

/-!
# How the Parts of a Queue Fit Together

A queue keeps its pending references in slots, lists the slots in order of delivery, and finds a
slot by a value. The three agree in every queue that came about by the operations on queues: the
slots that are listed are those in use, none is listed twice, and the index leads only to references
of the value that it is asked for. It does not lead to all of them: a reference that comes back
while its value is indexed waits without being found.

That is enough for a message to take no place but that of a reference with its own value, and for a
queue that gives up everything to be left with nothing in any of its parts.

## Main definitions

* `Queue.Coherent`: order, slots and index agree.
* `Queue.Supersedes`: a message takes the place in one slot, and all else stays.
* `Queue.Vacant`: nothing is in any part of a queue.

## Main results

* `Queue.Coherent.add_replaced`: what it means that a message took the place of another one.
* `Queue.Coherent.drain`: a queue that gave up everything.
* `Queue.serveAll_coherent`: all of this in every queue that came about by requests.
-/

namespace Courier

namespace Queue

/-- The slots that are listed are those in use, each of them once, and the index leads to pending
references of the value. -/
structure Coherent (q : Queue) : Prop extends q.LaidOut q.order where
  indexed : ∀ value slot, q.lastValues.get? value = some slot →
    ∃ r, q.pending.get? slot = some r ∧ r.lastValue = some value

/-- A message has a value and takes the place of the pending reference in a slot, which has the
same value and an identifier. The order of the slots, the references in the other slots, those in
delivery and those that were set aside stay as they were. -/
structure Supersedes (q : Queue) (m : Message) (id : MessageId) (slot : Slot) (q' : Queue) :
    Prop where
  isSome_value : (q.lastValueOf m).isSome
  previous : ∃ r, q.pending.get? slot = some r ∧ r.message.id = id ∧
    r.lastValue = q.lastValueOf m
  placed : q'.pending.get? slot = some { message := m, lastValue := q.lastValueOf m }
  others_eq : ∀ other, other ≠ slot → q'.pending.get? other = q.pending.get? other
  order_eq : q'.order = q.order
  delivering_eq : q'.delivering = q.delivering
  expired_eq : q'.expired = q.expired

/-- Nothing is in any part of a queue. -/
structure Vacant (q : Queue) : Prop where
  order_eq : q.order = []
  pending_eq : q.pending = .empty
  lastValues_eq : q.lastValues = .empty
  delivering_eq : q.delivering = .empty
  expired_eq : q.expired = []

variable {q q' : Queue}

theorem LaidOut.coherent (h : q.LaidOut q.order) (hkeyed : q.Keyed) : q.Coherent :=
  { h with indexed := hkeyed.indexed }

/-- A message that is told to have replaced another one stands in the slot where that one waited
with its value. -/
theorem Coherent.add_replaced (h : q.Coherent) {m : Message} {id : MessageId}
    (hadd : q.add m = (.replaced id, q')) : ∃ slot ∈ q.order, q.Supersedes m id slot q' := by
  rw [add] at hadd
  split at hadd
  · next slot r hfound =>
      cases hadd
      obtain ⟨value, hm, hvalue⟩ := Option.bind_eq_some_iff.mp hfound
      obtain ⟨hslot, hr⟩ := indexed?_eq_some_iff.mp hvalue
      obtain ⟨indexed, hindexed, hsame⟩ := h.indexed value slot hslot
      obtain rfl : r = indexed := Option.some.inj (hr.symm.trans hindexed)
      refine ⟨slot, (h.mem_iff slot).mpr ⟨r, hr⟩, ?_⟩
      exact {
        isSome_value := Option.isSome_of_eq_some hm
        previous := ⟨r, hr, rfl, hsame.trans hm.symm⟩
        placed := Dictionary.get?_insert_self ..
        others_eq := fun other hne => Dictionary.get?_insert_of_ne hne
        order_eq := rfl
        delivering_eq := rfl
        expired_eq := rfl }
  · cases hadd

/-- Where no slot is listed none is in use, and the index leads nowhere. -/
theorem Coherent.empty_of_order_eq_nil (h : q.Coherent) (horder : q.order = []) :
    q.pending = .empty ∧ q.lastValues = .empty := by
  have hpending : ∀ slot, q.pending.get? slot = none := by
    intro slot
    refine Option.eq_none_iff_forall_ne_some.mpr fun r hr => ?_
    have hmem := (h.mem_iff slot).mpr ⟨r, hr⟩
    rw [horder] at hmem
    cases hmem
  have hvalues : ∀ value, q.lastValues.get? value = none := by
    intro value
    refine Option.eq_none_iff_forall_ne_some.mpr fun slot hslot => ?_
    obtain ⟨r, hr, -⟩ := h.indexed value slot hslot
    rw [hpending] at hr
    cases hr
  exact ⟨Dictionary.eq_empty_of_get? hpending, Dictionary.eq_empty_of_get? hvalues⟩

/-- A queue that gave up everything has nothing left. -/
theorem LaidOut.vacant_drain (h : q.LaidOut q.order) (hkeyed : q.Keyed) : q.drain.2.Vacant := by
  obtain ⟨hpending, hvalues⟩ :=
    (h.drain.1.coherent hkeyed.drain).empty_of_order_eq_nil rfl
  exact ⟨rfl, hpending, hvalues, rfl, rfl⟩

/-- **The parts of a queue fit together**, whatever was asked of it in whatever order: each slot is
listed once, those that are listed are those in use, all are below the next one, and the index leads
to references that wait with the value. Hence a message only ever replaces one that waits with its
value, in its slot and without any other change; and when everything is given up nothing is left. -/
theorem serveAll_coherent (info : QueueInfo) (requests : List Request) :
    let q := (Queue.serveAll Queue.serve (.empty info) requests).2
    q.Coherent ∧
      (∀ m id q', q.add m = (.replaced id, q') → ∃ slot ∈ q.order, q.Supersedes m id slot q') ∧
      q.drain.2.Vacant := by
  have hlaid := (laidOut_empty info).serveAll requests
  have hkeyed := (keyed_new info).serveAll requests
  have hcoherent := hlaid.coherent hkeyed
  exact ⟨hcoherent, fun m id q' => hcoherent.add_replaced, hlaid.vacant_drain hkeyed⟩

/-- The first quote was handed out and came back while the second one was indexed. The third one
takes the place of the second one, behind the first one, which waits without being indexed. -/
theorem serveAll_coherent_returned :
    let q := (Queue.serveAll Queue.serve (.empty quotes)
      [.add (quote 1), .poll .epoch, .add (quote 2), .cancel ⟨1⟩]).2
    let q' := (q.add (quote 3)).2
    q.add (quote 3) = (.replaced ⟨2⟩, q') ∧
      (∃ slot ∈ q.order, q.Supersedes (quote 3) ⟨2⟩ slot q') ∧
      q'.browse = [quote 1, quote 3] := by
  intro q q'
  have hadd : q.add (quote 3) = (.replaced ⟨2⟩, q') := Prod.ext (by decide +kernel) rfl
  exact ⟨hadd, (serveAll_coherent quotes _).2.1 _ _ _ hadd, by decide +kernel⟩

end Queue

end Courier
