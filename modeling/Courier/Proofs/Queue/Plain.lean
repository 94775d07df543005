import Courier.Proofs.Queue

/-!
# A Queue as Plain Lists

A queue spreads its pending references over slots, an order of slots and an index. What it does is
described here by plain lists: the references that wait, those that were set aside, and those in
delivery by identifier. Every queue is such a plain queue when its slots are read in order, and
handing out, acknowledging, cancelling, expiring and withdrawing do to the lists what they say,
whatever the identifiers of the messages are. Adding puts a reference at the end of the list, or in
the place of one that waits there.

## Conventions

As for `Queue.SoundAt`, the slots are an argument of the invariant and of the reading, because the
operations that walk over slots take them off one by one.

## Main definitions

* `PlainQueue`: the lists, with `PlainQueue.add`, `PlainQueue.poll` and the other operations.
* `Queue.LaidOut`: slots lead to the pending references, each slot to one of its own.
* `Queue.plain`: a queue read as plain lists.

## Main results

* `Queue.LaidOut.push`, `Queue.LaidOut.poll`, `Queue.acknowledge_plain`,
  `Queue.LaidOut.cancel_plain`, `Queue.LaidOut.expire`, `Queue.LaidOut.drain`: the operations on
  the lists.
* `Queue.LaidOut.add`: a message waits behind the others or in the place of one of them.
-/

namespace Courier

/-- A reference after one more delivery. -/
def Reference.delivered (r : Reference) : Reference :=
  { r with deliveryCount := r.deliveryCount + 1 }

@[simp] theorem Reference.message_delivered (r : Reference) : r.delivered.message = r.message := rfl

/-- Whether a reference is expired at a time. -/
def Reference.isLate (now : Timestamp) (r : Reference) : Bool :=
  r.message.isExpired now

/-- A queue as plain lists, with the references in delivery by identifier. -/
structure PlainQueue extends QueueInfo where
  /-- The references that wait for delivery, in order. -/
  waiting : List Reference := []
  /-- The references in delivery. -/
  delivering : Dictionary MessageId Reference := .empty
  /-- The references that were set aside as expired. -/
  setAside : List Reference := []

namespace PlainQueue

/-- Lists that hold nothing. -/
def empty (info : QueueInfo) : PlainQueue :=
  { info with }

/-- The messages that wait for delivery, in order. -/
def browse (p : PlainQueue) : List Message :=
  p.waiting.map Reference.message

/-- The number of references of all kinds. -/
def messageCount (p : PlainQueue) : Nat :=
  p.waiting.length + p.delivering.size + p.setAside.length

/-- A message waits behind the others. -/
def add (p : PlainQueue) (m : Message) : PlainQueue :=
  { p with waiting := p.waiting ++ [{ message := m }] }

/-- The references that are expired are set aside up to the first that is not, which is handed
out. -/
def poll (p : PlainQueue) (now : Timestamp) : Option Reference × PlainQueue :=
  let setAside := p.setAside ++ p.waiting.takeWhile (·.isLate now)
  match p.waiting.dropWhile (·.isLate now) with
  | [] => (none, { p with waiting := [], setAside })
  | r :: rest =>
    (some r.delivered,
      { p with
        waiting := rest
        setAside
        delivering := p.delivering.insert r.message.id r.delivered })

/-- A reference in delivery leaves. -/
def acknowledge (p : PlainQueue) (id : MessageId) : Except BrokerError (Reference × PlainQueue) :=
  match p.delivering.get? id with
  | none => .error (.notInDelivery p.name id)
  | some r => .ok (r, { p with delivering := p.delivering.erase id })

/-- A reference in delivery waits before the others, or leaves if it was delivered as often as is
permitted. -/
def cancel (p : PlainQueue) (id : MessageId) : Except BrokerError (CancelOutcome × PlainQueue) :=
  match p.delivering.get? id with
  | none => .error (.notInDelivery p.name id)
  | some r =>
    let delivering := p.delivering.erase id
    if p.settings.maxDeliveryAttempts.toNat ≤ r.deliveryCount then
      .ok (.deadLetter r p.settings.deadLetterAddress, { p with delivering })
    else .ok (.redelivered r.deliveryCount, { p with waiting := r :: p.waiting, delivering })

/-- The references that were set aside leave, and then those that wait and are expired. -/
def expire (p : PlainQueue) (now : Timestamp) : List Reference × PlainQueue :=
  (p.setAside ++ p.waiting.filter (·.isLate now),
    { p with waiting := p.waiting.filter (!·.isLate now), setAside := [] })

/-- All references leave: those that wait in order, those in delivery by their identifiers, and
those that were set aside. -/
def drain (p : PlainQueue) : List Reference × PlainQueue :=
  (p.waiting ++ p.delivering.values ++ p.setAside,
    { p with waiting := [], delivering := .empty, setAside := [] })

theorem poll_of_late {p : PlainQueue} {now : Timestamp} {r : Reference} {rest : List Reference}
    (hp : p.waiting = r :: rest) (hr : r.isLate now) :
    p.poll now = { p with waiting := rest, setAside := p.setAside ++ [r] }.poll now := by
  simp [poll, hp, hr]

theorem poll_of_not_late {p : PlainQueue} {now : Timestamp} {r : Reference}
    {rest : List Reference} (hp : p.waiting = r :: rest) (hr : ¬r.isLate now) :
    p.poll now = (some r.delivered,
      { p with
        waiting := rest, delivering := p.delivering.insert r.message.id r.delivered }) := by
  simp [poll, hp, hr]

end PlainQueue

namespace Queue

/-- Slots lead to the pending references, each slot to one of its own. -/
structure LaidOut (q : Queue) (slots : List Slot) : Prop where
  nodup : slots.Nodup
  mem_iff : ∀ slot, slot ∈ slots ↔ ∃ r, q.pending.get? slot = some r
  slot_lt : ∀ slot ∈ slots, slot < q.nextSlot

/-- A queue that holds nothing. -/
def empty (info : QueueInfo) : Queue :=
  { info with }

/-- A queue read as plain lists when some slots are those of its pending references. -/
def plainAt (q : Queue) (slots : List Slot) : PlainQueue :=
  { q.toQueueInfo with
    waiting := slots.filterMap q.pending.get?
    delivering := q.delivering
    setAside := q.expired }

/-- A queue read as plain lists. -/
def plain (q : Queue) : PlainQueue := q.plainAt q.order

theorem laidOut_empty (info : QueueInfo) : (empty info).LaidOut [] where
  nodup := .nil
  mem_iff slot := by simp [empty]
  slot_lt slot h := by cases h

variable {q q' : Queue} {slots : List Slot}

theorem browse_eq (q : Queue) : q.browse = q.plain.browse := rfl

namespace LaidOut

theorem perm {slots' : List Slot} (h : q.LaidOut slots) (hperm : slots.Perm slots') :
    q.LaidOut slots' where
  nodup := hperm.nodup_iff.mp h.nodup
  mem_iff slot := hperm.mem_iff.symm.trans (h.mem_iff slot)
  slot_lt slot hslot := h.slot_lt slot (hperm.mem_iff.mpr hslot)

/-- What slots lead to is all that is pending. -/
theorem values_perm (h : q.LaidOut slots) :
    q.pending.values.Perm (slots.filterMap q.pending.get?) := by
  rw [← Dictionary.filterMap_get?_keys]
  refine List.Perm.filterMap _ ((List.perm_ext_iff_of_nodup q.pending.nodup_keys h.nodup).mpr ?_)
  intro slot
  rw [Dictionary.mem_keys_iff, h.mem_iff]

theorem messageCount_eq (h : q.LaidOut q.order) : q.messageCount = q.plain.messageCount := by
  have hsize : q.pending.size = q.pending.values.length := by
    simp [Dictionary.size, Dictionary.values]
  rw [messageCount, hsize, h.values_perm.length_eq]
  rfl

/-! ### Slots -/

/-- Slots without the first of them. -/
theorem erase {slot : Slot} (h : q.LaidOut (slot :: slots)) (lastValues : Dictionary String Slot) :
    LaidOut { q with pending := q.pending.erase slot, lastValues } slots := by
  obtain ⟨hslot, hnodup⟩ := List.nodup_cons.mp h.nodup
  refine ⟨hnodup, fun other => ?_, fun other hother => h.slot_lt other (.tail _ hother)⟩
  rw [Dictionary.get?_erase]
  split
  · next heq => simp [heq, hslot]
  · next hne => simpa [hne] using h.mem_iff other

theorem get?_erase {slot : Slot} (h : q.LaidOut (slot :: slots)) {other : Slot}
    (hother : other ∈ slots) : (q.pending.erase slot).get? other = q.pending.get? other :=
  Dictionary.get?_erase_of_ne fun heq => (List.nodup_cons.mp h.nodup).1 (heq ▸ hother)

/-- The first slot leads to a reference, which is taken out of it. -/
theorem take? {slot : Slot} (h : q.LaidOut (slot :: slots)) :
    ∃ r lastValues, q.pending.get? slot = some r ∧
      q.take? slot = some (r, { q with pending := q.pending.erase slot, lastValues }) := by
  obtain ⟨r, hr⟩ := (h.mem_iff slot).mp (.head _)
  exact ⟨r, _, hr, congrArg (Option.map _) hr⟩

/-- A reference in a new slot waits before the others or behind them. -/
theorem push (h : q.LaidOut q.order) (r : Reference) (atHead : Bool) :
    (q.push r atHead).LaidOut (q.push r atHead).order ∧
      (q.push r atHead).plain = { q.plain with
        waiting := if atHead then r :: q.plain.waiting else q.plain.waiting ++ [r] } := by
  have hfree : q.nextSlot ∉ q.order := fun hmem => Nat.lt_irrefl _ (h.slot_lt _ hmem)
  have hcons : (q.push r atHead).LaidOut (q.nextSlot :: q.order) := by
    refine ⟨List.nodup_cons.mpr ⟨hfree, h.nodup⟩, fun slot => ?_, fun slot hslot => ?_⟩
    · rw [show (q.push r atHead).pending = q.pending.insert q.nextSlot r from rfl,
        Dictionary.get?_insert, List.mem_cons, h.mem_iff]
      split
      · next heq => simp [heq]
      · next hne => simp [hne]
    · rcases List.mem_cons.mp hslot with rfl | hslot
      · exact Nat.lt_succ_self _
      · exact Nat.lt_succ_of_lt (h.slot_lt slot hslot)
  have hold : q.order.filterMap (q.pending.insert q.nextSlot r).get? =
      q.order.filterMap q.pending.get? :=
    List.filterMap_congr fun slot hslot =>
      Dictionary.get?_insert_of_ne fun heq => hfree (heq ▸ hslot)
  cases atHead with
  | true => exact ⟨hcons, by simp [plain, plainAt, Queue.push, hold]⟩
  | false =>
      refine ⟨hcons.perm (List.perm_append_singleton ..).symm, ?_⟩
      simp [plain, plainAt, Queue.push, hold]

end LaidOut

/-- Taking the references out of some slots. -/
theorem LaidOut.takeAll {taken : List Slot} (h : q.LaidOut (taken ++ slots)) :
    ∃ pending lastValues,
      Queue.takeAll taken q =
        (taken.filterMap q.pending.get?, { q with pending, lastValues }) ∧
      LaidOut { q with pending, lastValues } slots ∧
      ∀ slot ∈ slots, pending.get? slot = q.pending.get? slot := by
  induction taken generalizing q with
  | nil => exact ⟨q.pending, q.lastValues, rfl, h, fun _ _ => rfl⟩
  | cons slot taken ih =>
      obtain ⟨r, index, hr, htake⟩ := LaidOut.take? h
      obtain ⟨pending, lastValues, hall, hlaid, hget⟩ := ih (h.erase index)
      have hold := fun other (hother : other ∈ taken ++ slots) => LaidOut.get?_erase h hother
      refine ⟨pending, lastValues, ?_, hlaid, fun other hother => ?_⟩
      · rw [Queue.takeAll, htake, List.filterMap_cons_some hr,
          ← List.filterMap_congr fun other hother => hold other (List.mem_append_left _ hother)]
        dsimp only
        rw [hall]
      · exact (hget other hother).trans (hold other (List.mem_append_right _ hother))

/-! ### What happens to a queue -/

/-- Handing out walks over the slots as it walks over the list. -/
theorem LaidOut.pollFrom (h : q.LaidOut slots) (now : Timestamp) :
    (Queue.pollFrom now slots q).2.LaidOut (Queue.pollFrom now slots q).2.order ∧
      (q.plainAt slots).poll now =
        ((Queue.pollFrom now slots q).1, (Queue.pollFrom now slots q).2.plain) := by
  induction slots generalizing q with
  | nil =>
      refine ⟨⟨h.nodup, h.mem_iff, h.slot_lt⟩, ?_⟩
      simp [PlainQueue.poll, Queue.pollFrom, plain, plainAt]
  | cons slot slots ih =>
      obtain ⟨r, index, hr, htake⟩ := LaidOut.take? h
      have hlaid := h.erase index
      have hwaiting : (q.plainAt (slot :: slots)).waiting =
          r :: slots.filterMap (q.pending.erase slot).get? := by
        rw [List.filterMap_congr fun other hother => LaidOut.get?_erase h hother]
        exact List.filterMap_cons_some hr
      rw [Queue.pollFrom, htake]
      dsimp only
      split
      · next hlate =>
          rw [PlainQueue.poll_of_late hwaiting hlate]
          exact ih (q := { q with
            pending := q.pending.erase slot, lastValues := index, expired := q.expired ++ [r] })
            ⟨hlaid.nodup, hlaid.mem_iff, hlaid.slot_lt⟩
      · next hlate =>
          rw [PlainQueue.poll_of_not_late hwaiting hlate]
          exact ⟨⟨hlaid.nodup, hlaid.mem_iff, hlaid.slot_lt⟩, rfl⟩

theorem LaidOut.poll (h : q.LaidOut q.order) (now : Timestamp) :
    (q.poll now).2.LaidOut (q.poll now).2.order ∧
      q.plain.poll now = ((q.poll now).1, (q.poll now).2.plain) :=
  h.pollFrom now

theorem acknowledge_plain (q : Queue) (id : MessageId) :
    q.plain.acknowledge id = (q.acknowledge id).map fun (r, q') => (r, q'.plain) := by
  rw [PlainQueue.acknowledge, Queue.acknowledge, plain, plainAt]
  dsimp only
  cases q.delivering.get? id <;> rfl

theorem LaidOut.acknowledge (h : q.LaidOut q.order) {id : MessageId} {r : Reference}
    (hq' : q.acknowledge id = .ok (r, q')) : q'.LaidOut q'.order := by
  rw [Queue.acknowledge] at hq'
  split at hq'
  · cases hq'
  · cases hq'
    exact ⟨h.nodup, h.mem_iff, h.slot_lt⟩

theorem LaidOut.cancel_plain (h : q.LaidOut q.order) (id : MessageId) :
    q.plain.cancel id = (q.cancel id).map fun (outcome, q') => (outcome, q'.plain) := by
  have hpush := fun r =>
    (LaidOut.push (q := { q with delivering := q.delivering.erase id })
      ⟨h.nodup, h.mem_iff, h.slot_lt⟩ r true).2
  rw [PlainQueue.cancel, Queue.cancel, plain, plainAt]
  dsimp only
  cases q.delivering.get? id with
  | none => rfl
  | some r =>
      dsimp only
      split
      · rfl
      · rw [Except.map, hpush]
        rfl

theorem LaidOut.cancel (h : q.LaidOut q.order) {id : MessageId} {outcome : CancelOutcome}
    (hq' : q.cancel id = .ok (outcome, q')) : q'.LaidOut q'.order := by
  have herase : LaidOut { q with delivering := q.delivering.erase id } q.order :=
    ⟨h.nodup, h.mem_iff, h.slot_lt⟩
  rw [Queue.cancel] at hq'
  split at hq'
  · cases hq'
  · dsimp only at hq'
    split at hq'
    · cases hq'
      exact ⟨h.nodup, h.mem_iff, h.slot_lt⟩
    · cases hq'
      exact (herase.push _ true).1

/-- What those that pass a test lead to is what passes a test itself, if both tests agree. -/
theorem filterMap_filter_of_eq {α β : Type} {f : α → Option β} {p : α → Bool} {p' : β → Bool}
    (h : ∀ a b, f a = some b → p a = p' b) (l : List α) :
    (l.filter p).filterMap f = (l.filterMap f).filter p' := by
  rw [List.filterMap_filter, List.filter_filterMap]
  refine List.filterMap_congr fun a _ => ?_
  cases hb : f a with
  | none => simp
  | some b => simp [Option.filter, h a b hb]

theorem isStale_of_get? {now : Timestamp} {slot : Slot} {r : Reference}
    (hr : q.pending.get? slot = some r) : q.isStale now slot = r.isLate now := by
  rw [isStale, hr]
  rfl

/-- What was set aside and what waits and is expired leaves. -/
theorem LaidOut.expire (h : q.LaidOut q.order) (now : Timestamp) :
    (q.expire now).2.LaidOut (q.expire now).2.order ∧
      q.plain.expire now = ((q.expire now).1, (q.expire now).2.plain) := by
  have hsplit := h.perm (List.filter_append_perm (q.isStale now) q.order).symm
  obtain ⟨pending, lastValues, htaken, hlaid, hget⟩ := hsplit.takeAll
  have hlate : (q.order.filter (q.isStale now)).filterMap q.pending.get? =
      q.plain.waiting.filter (·.isLate now) :=
    filterMap_filter_of_eq (fun _ _ => isStale_of_get?) q.order
  have hkept : (q.order.filter (not ∘ q.isStale now)).filterMap q.pending.get? =
      q.plain.waiting.filter (!·.isLate now) :=
    filterMap_filter_of_eq (fun _ _ hr => congrArg not (isStale_of_get? hr)) q.order
  rw [Queue.expire, List.partition_eq_filter_filter]
  dsimp only
  rw [htaken]
  refine ⟨⟨hlaid.nodup, hlaid.mem_iff, hlaid.slot_lt⟩, ?_⟩
  have hwaiting := (List.filterMap_congr hget).trans hkept
  simp only [PlainQueue.expire, plain, plainAt, hlate]
  exact congrArg (fun waiting => (_, { q.plain with waiting, setAside := [] })) hwaiting.symm

/-- Everything leaves. -/
theorem LaidOut.drain (h : q.LaidOut q.order) :
    (q.drain).2.LaidOut (q.drain).2.order ∧ q.plain.drain = (q.drain.1, q.drain.2.plain) := by
  have hall : q.LaidOut (q.order ++ []) := by rwa [List.append_nil]
  obtain ⟨pending, lastValues, htaken, hlaid, -⟩ := hall.takeAll
  rw [Queue.drain, htaken]
  exact ⟨⟨hlaid.nodup, hlaid.mem_iff, hlaid.slot_lt⟩, rfl⟩

theorem indexed?_eq_some_iff {value : String} {slot : Slot} {r : Reference} :
    q.indexed? value = some (slot, r) ↔
      q.lastValues.get? value = some slot ∧ q.pending.get? slot = some r := by
  simp [indexed?, Option.bind_eq_some_iff]

/-- A message whose value is not indexed waits behind the others. -/
theorem LaidOut.add_behind (h : q.LaidOut q.order) {m : Message}
    (hnone : (q.lastValueOf m).bind q.indexed? = none) :
    (q.add m).2.LaidOut (q.add m).2.order ∧ (q.add m).1 = .added ∧
      (q.add m).2.plain = { q.plain with
        waiting := q.plain.waiting ++ [{ message := m, lastValue := q.lastValueOf m }] } := by
  let counters : QueueCounters := { q.counters with added := q.counters.added + 1 }
  obtain ⟨hlaid, hplain⟩ := LaidOut.push (q := { q with counters })
    ⟨h.nodup, h.mem_iff, h.slot_lt⟩ { message := m, lastValue := q.lastValueOf m } false
  rw [Queue.add, hnone]
  exact ⟨hlaid, rfl, hplain⟩

/-- A message whose value is indexed takes the place of the reference there. -/
theorem LaidOut.add_inPlace (h : q.LaidOut q.order) {m : Message} {slot : Slot}
    {previous : Reference} (hslot : (q.lastValueOf m).bind q.indexed? = some (slot, previous)) :
    (q.add m).2.LaidOut (q.add m).2.order ∧ (q.add m).1 = .replaced previous.message.id ∧
      ∃ before after, q.plain.waiting = before ++ previous :: after ∧
        (q.add m).2.plain = { q.plain with
          waiting := before ++ { message := m, lastValue := q.lastValueOf m } :: after } := by
  obtain ⟨value, -, hvalue⟩ := Option.bind_eq_some_iff.mp hslot
  obtain ⟨-, hr⟩ := indexed?_eq_some_iff.mp hvalue
  obtain ⟨first, last, horder⟩ := List.append_of_mem ((h.mem_iff slot).mpr ⟨previous, hr⟩)
  have hnodup := h.nodup
  rw [horder, List.nodup_middle, List.nodup_cons, List.mem_append, not_or] at hnodup
  obtain ⟨⟨hfirst, hlast⟩, -⟩ := hnodup
  let new : Reference := { message := m, lastValue := q.lastValueOf m }
  have hold : ∀ {slots : List Slot}, slot ∉ slots →
      slots.filterMap (q.pending.insert slot new).get? = slots.filterMap q.pending.get? :=
    fun hslots => List.filterMap_congr fun other hother =>
      Dictionary.get?_insert_of_ne fun heq => hslots (heq ▸ hother)
  rw [Queue.add, hslot]
  refine ⟨⟨h.nodup, fun other => ?_, h.slot_lt⟩, rfl, first.filterMap q.pending.get?,
    last.filterMap q.pending.get?, ?_, ?_⟩
  · rw [Dictionary.get?_insert, h.mem_iff]
    split
    · next heq => simp [heq, hr]
    · rfl
  · simp [plain, plainAt, horder, hr]
  · simp [plain, plainAt, horder, hold hfirst, hold hlast, new]

theorem LaidOut.add (h : q.LaidOut q.order) (m : Message) :
    (q.add m).2.LaidOut (q.add m).2.order := by
  cases hindexed : (q.lastValueOf m).bind q.indexed? with
  | none => exact (h.add_behind hindexed).1
  | some found => exact (h.add_inPlace hindexed).1

end Queue

end Courier
