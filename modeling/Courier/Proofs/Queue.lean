import Courier.Queue
import Courier.Proofs.Dictionary

/-!
# What a Queue Holds

A queue holds messages that are pending, in delivery, or set aside as expired. Every operation
is described by the messages that leave the queue and those that come into it; the order in
which messages are handed out plays no part.

## Conventions

The slots of pending references are an argument of the invariant `Queue.SoundAt`, because the
operations that walk over slots take them off one by one while the queue still lists them all.
Between operations the slots are those that the queue lists, which is `Queue.Sound`.

## Main results

* `Queue.Becomes`: a queue after some messages left it and others came.
* `Queue.Sound.add`, `Queue.Sound.poll`, `Queue.Sound.acknowledge`, `Queue.Sound.cancel`,
  `Queue.Sound.expire`, `Queue.Sound.drain`: what each operation does.
* `Queue.Sound.mem_browse`: the messages that wait for delivery.
-/

namespace Courier

namespace Queue

/-- The messages that a queue holds: pending, in delivery, or set aside as expired. -/
def heldMessages (q : Queue) : List Message :=
  (q.pending.values ++ q.delivering.values ++ q.expired).map Reference.message

/-- The invariant of queues, for given slots of the pending references. No message is held
twice. -/
structure SoundAt (slots : List Slot) (q : Queue) : Prop where
  nodup : slots.Nodup
  mem_slots : ∀ slot, slot ∈ slots ↔ ∃ r, q.pending.get? slot = some r
  slot_lt : ∀ slot ∈ slots, slot < q.nextSlot
  delivering_id : ∀ id r, q.delivering.get? id = some r → r.message.id = id
  ids_nodup : (q.heldMessages.map Message.id).Nodup

/-- The invariant of queues. -/
def Sound (q : Queue) : Prop := SoundAt q.order q

/-- A queue after some messages left it and others came into it. -/
structure Becomes (q : Queue) (out into : List Message) (slots : List Slot) (q' : Queue) :
    Prop where
  sound : SoundAt slots q'
  info_eq : q'.toQueueInfo = q.toQueueInfo
  perm : (out ++ q'.heldMessages).Perm (into ++ q.heldMessages)

/-- A change that keeps all messages, and then another change. -/
theorem Becomes.trans {q q' q'' : Queue} {out into : List Message} {slots slots' : List Slot}
    (h : Becomes q [] [] slots q') (h' : Becomes q' out into slots' q'') :
    Becomes q out into slots' q'' :=
  ⟨h'.sound, h'.info_eq.trans h.info_eq, h'.perm.trans (h.perm.append_left into)⟩

theorem sound_new (info : QueueInfo) : Sound { info with } where
  nodup := .nil
  mem_slots slot := by simp
  slot_lt slot h := by cases h
  delivering_id id r h := by simp at h
  ids_nodup := .nil

@[simp] theorem heldMessages_new (info : QueueInfo) :
    ({ info with } : Queue).heldMessages = [] := rfl

/-! ### The parts of a queue -/

variable {q : Queue} {slots : List Slot}

theorem heldMessages_perm_of_pending {r : Reference} {d : Dictionary Slot Reference}
    (h : q.pending.values.Perm (r :: d.values)) :
    q.heldMessages.Perm (r.message :: ({ q with pending := d } : Queue).heldMessages) :=
  ((h.append_right _).append_right _).map _

theorem heldMessages_perm_of_delivering {r : Reference} {d : Dictionary MessageId Reference}
    (h : q.delivering.values.Perm (r :: d.values)) :
    q.heldMessages.Perm (r.message :: ({ q with delivering := d } : Queue).heldMessages) := by
  refine (((h.append_left _).append_right _).map _).trans ?_
  exact (List.perm_middle.append_right _).map Reference.message

theorem mem_heldMessages_of_delivering {id : MessageId} {r : Reference}
    (h : q.delivering.get? id = some r) : r.message ∈ q.heldMessages :=
  (heldMessages_perm_of_delivering (Dictionary.values_perm_of_get? h)).mem_iff.mpr (.head _)

/-- A message that a queue does not hold is not in delivery there. -/
theorem SoundAt.get?_delivering_eq_none (h : SoundAt slots q) {id : MessageId}
    (hid : id ∉ q.heldMessages.map Message.id) : q.delivering.get? id = none := by
  rcases hr : q.delivering.get? id with _ | r
  · rfl
  · refine absurd (List.mem_map.mpr ⟨r.message, ?_, h.delivering_id id r hr⟩) hid
    exact mem_heldMessages_of_delivering hr

theorem SoundAt.perm {slots' : List Slot} (h : SoundAt slots q) (hp : slots.Perm slots') :
    SoundAt slots' q where
  nodup := hp.nodup_iff.mp h.nodup
  mem_slots slot := hp.mem_iff.symm.trans (h.mem_slots slot)
  slot_lt slot hs := h.slot_lt slot (hp.mem_iff.mpr hs)
  delivering_id := h.delivering_id
  ids_nodup := h.ids_nodup

theorem SoundAt.withCounters (h : SoundAt slots q) (counters : QueueCounters) :
    SoundAt slots { q with counters } :=
  ⟨h.nodup, h.mem_slots, h.slot_lt, h.delivering_id, h.ids_nodup⟩

/-! ### Slots -/

/-- Taking the reference out of a slot. -/
theorem SoundAt.take? {slot : Slot} (h : SoundAt (slot :: slots) q) :
    ∃ r q', q.take? slot = some (r, q') ∧ Becomes q [r.message] [] slots q' := by
  obtain ⟨r, hr⟩ := (h.mem_slots slot).mp (.head _)
  obtain ⟨hslot, hnodup⟩ := List.nodup_cons.mp h.nodup
  have hperm := heldMessages_perm_of_pending (Dictionary.values_perm_of_get? hr)
  have hids := (hperm.map Message.id).nodup_iff.mp h.ids_nodup
  refine ⟨r, _, congrArg (Option.map _) hr, ⟨hnodup, ?_, ?_, h.delivering_id, ?_⟩, rfl, ?_⟩
  · intro other
    rw [Dictionary.get?_erase]
    split
    · next heq => simp [heq, hslot]
    · next hne => simpa [hne] using h.mem_slots other
  · exact fun other hother => h.slot_lt other (.tail _ hother)
  · exact (List.nodup_cons.mp hids).2
  · exact hperm.symm

/-- A reference in a new slot. -/
theorem SoundAt.push (h : SoundAt q.order q) {r : Reference}
    (hid : r.message.id ∉ q.heldMessages.map Message.id) (atHead : Bool) :
    Becomes q [] [r.message] (q.push r atHead).order (q.push r atHead) := by
  have hnew : q.pending.get? q.nextSlot = none := by
    rcases hr : q.pending.get? q.nextSlot with _ | r'
    · rfl
    · exact absurd (h.slot_lt _ ((h.mem_slots _).mpr ⟨r', hr⟩)) (Nat.lt_irrefl _)
  have hslot : q.nextSlot ∉ q.order := fun hmem => Nat.lt_irrefl _ (h.slot_lt _ hmem)
  have horder : (q.push r atHead).order.Perm (q.nextSlot :: q.order) := by
    cases atHead with
    | true => exact .refl _
    | false => exact List.perm_append_singleton ..
  have hperm : (q.push r atHead).heldMessages.Perm (r.message :: q.heldMessages) :=
    (((Dictionary.values_insert_perm_of_get?_eq_none r hnew).append_right _).append_right _).map _
  refine ⟨SoundAt.perm ⟨List.nodup_cons.mpr ⟨hslot, h.nodup⟩, ?_, ?_, h.delivering_id, ?_⟩
    horder.symm, rfl, hperm⟩
  · intro other
    rw [show (q.push r atHead).pending = q.pending.insert q.nextSlot r from rfl,
      Dictionary.get?_insert, List.mem_cons, h.mem_slots]
    split
    · next heq => simp [heq]
    · next hne => simp [hne]
  · intro other hother
    rcases List.mem_cons.mp hother with rfl | hother
    · exact Nat.lt_succ_self _
    · exact Nat.lt_succ_of_lt (h.slot_lt other hother)
  · exact (hperm.map Message.id).nodup_iff.mpr (List.nodup_cons.mpr ⟨hid, h.ids_nodup⟩)

/-- Taking the references out of some slots. -/
theorem SoundAt.takeAll {taken : List Slot} (h : SoundAt (taken ++ slots) q) :
    Becomes q ((Queue.takeAll taken q).1.map Reference.message) [] slots
      (Queue.takeAll taken q).2 := by
  induction taken generalizing q with
  | nil => exact ⟨h, rfl, .refl _⟩
  | cons slot taken ih =>
      rw [List.cons_append] at h
      obtain ⟨r, q', htake, hbecomes⟩ := h.take?
      have hrest := ih hbecomes.sound
      rw [Queue.takeAll, htake]
      refine ⟨hrest.sound, hrest.info_eq.trans hbecomes.info_eq, ?_⟩
      exact (hrest.perm.cons r.message).trans hbecomes.perm

/-- Walking over slots touches nothing but pending references. -/
theorem takeAll_frame (slots : List Slot) (q : Queue) :
    (takeAll slots q).2.delivering = q.delivering ∧ (takeAll slots q).2.expired = q.expired := by
  induction slots generalizing q with
  | nil => exact ⟨rfl, rfl⟩
  | cons slot rest ih =>
      rw [takeAll]
      split
      · next r q' htake =>
          obtain ⟨r', -, heq⟩ := Option.map_eq_some_iff.mp htake
          cases heq
          exact ih _
      · exact ih q

/-! ### What happens to a queue -/

end Queue

/-- The message whose place a message took. -/
def AddOutcome.replacedIds : AddOutcome → List MessageId
  | added => []
  | replaced previous => [previous]

/-- The message that was given up. -/
def CancelOutcome.givenUp : CancelOutcome → List Message
  | redelivered _ => []
  | deadLetter r _ => [r.message]

namespace Queue

variable {q : Queue}

/-- A new message comes, and leaves no other message its place unless values say so. -/
theorem Sound.add (h : q.Sound) {m : Message} (hid : m.id ∉ q.heldMessages.map Message.id) :
    ∃ out, out.map Message.id = (q.add m).1.replacedIds ∧
      Becomes q out [m] (q.add m).2.order (q.add m).2 := by
  rw [Queue.add]
  split
  · next slot previous hindexed =>
      obtain ⟨value, -, hvalue⟩ := Option.bind_eq_some_iff.mp hindexed
      obtain ⟨slot', -, hslot⟩ := Option.bind_eq_some_iff.mp hvalue
      obtain ⟨r, hr, heq⟩ := Option.bind_eq_some_iff.mp hslot
      cases heq
      have hold := heldMessages_perm_of_pending (Dictionary.values_perm_of_get? hr)
      let r' : Reference := { message := m, lastValue := q.lastValueOf m }
      have hnew := heldMessages_perm_of_pending
        (q := { q with pending := q.pending.insert slot r' }) (q.pending.values_insert_perm slot r')
      have hids := List.nodup_cons.mp ((hold.map Message.id).nodup_iff.mp h.ids_nodup)
      have hfree : m.id ∉ ({ q with pending := q.pending.erase slot } : Queue).heldMessages.map
          Message.id := fun hmem => hid ((hold.map Message.id).mem_iff.mpr (.tail _ hmem))
      refine ⟨[previous.message], rfl, ⟨h.nodup, ?_, h.slot_lt, h.delivering_id, ?_⟩, rfl, ?_⟩
      · intro other
        rw [h.mem_slots, Dictionary.get?_insert]
        split
        · next heq => simp [heq, hr]
        · rfl
      · exact (hnew.map Message.id).nodup_iff.mpr (List.nodup_cons.mpr ⟨hfree, hids.2⟩)
      · exact (hnew.cons _).trans ((List.Perm.swap ..).trans (hold.symm.cons _))
  · let counters : QueueCounters := { q.counters with added := q.counters.added + 1 }
    have hpush := SoundAt.push (q := { q with counters })
      (r := { message := m, lastValue := q.lastValueOf m }) (h.withCounters counters) hid false
    exact ⟨[], rfl, hpush.sound, hpush.info_eq, hpush.perm⟩

theorem SoundAt.pollFrom {slots : List Slot} (h : SoundAt slots q) (now : Timestamp) :
    Becomes q [] [] (Queue.pollFrom now slots q).2.order (Queue.pollFrom now slots q).2 := by
  induction slots generalizing q with
  | nil => exact ⟨⟨.nil, h.mem_slots, h.slot_lt, h.delivering_id, h.ids_nodup⟩, rfl, .refl _⟩
  | cons slot slots ih =>
      obtain ⟨r, q', htake, hbecomes⟩ := h.take?
      have hsound := hbecomes.sound
      have hids := (hbecomes.perm.map Message.id).nodup_iff.mpr h.ids_nodup
      rw [Queue.pollFrom, htake]
      dsimp only
      split
      · have hmoved : ({ q' with expired := q'.expired ++ [r] } : Queue).heldMessages.Perm
            (r.message :: q'.heldMessages) := by
          simpa [heldMessages] using List.perm_append_singleton r.message q'.heldMessages
        have haside : Becomes q [] [] slots { q' with expired := q'.expired ++ [r] } :=
          ⟨⟨hsound.nodup, hsound.mem_slots, hsound.slot_lt, hsound.delivering_id,
            (hmoved.map Message.id).nodup_iff.mpr hids⟩, hbecomes.info_eq,
            hmoved.trans hbecomes.perm⟩
        exact haside.trans (ih haside.sound)
      · have hfree : q'.delivering.get? r.message.id = none :=
          hsound.get?_delivering_eq_none (List.nodup_cons.mp hids).1
        let r' : Reference := { r with deliveryCount := r.deliveryCount + 1 }
        have hmoved := heldMessages_perm_of_delivering
          (q := { q' with delivering := q'.delivering.insert r.message.id r' })
          (Dictionary.values_insert_perm_of_get?_eq_none r' hfree)
        refine ⟨⟨hsound.nodup, hsound.mem_slots, hsound.slot_lt, ?_, ?_⟩, hbecomes.info_eq, ?_⟩
        · intro id found hfound
          rw [Dictionary.get?_insert] at hfound
          split at hfound
          · next heq =>
              cases hfound
              exact heq.symm
          · exact hsound.delivering_id id found hfound
        · exact (hmoved.map Message.id).nodup_iff.mpr hids
        · exact hmoved.trans hbecomes.perm

/-- Polling moves a reference and sets others aside; all messages stay. -/
theorem Sound.poll (h : q.Sound) (now : Timestamp) :
    Becomes q [] [] (q.poll now).2.order (q.poll now).2 :=
  SoundAt.pollFrom h now

theorem SoundAt.erase_delivering {slots : List Slot} (h : SoundAt slots q) {id : MessageId}
    {r : Reference} (hr : q.delivering.get? id = some r) :
    Becomes q [r.message] [] slots { q with delivering := q.delivering.erase id } := by
  have hperm := heldMessages_perm_of_delivering (Dictionary.values_perm_of_get? hr)
  have hids := List.nodup_cons.mp ((hperm.map Message.id).nodup_iff.mp h.ids_nodup)
  refine ⟨⟨h.nodup, h.mem_slots, h.slot_lt, ?_, hids.2⟩, rfl, hperm.symm⟩
  intro other found hfound
  rw [Dictionary.get?_erase] at hfound
  split at hfound
  · cases hfound
  · exact h.delivering_id other found hfound

/-- An acknowledged message leaves the queue. -/
theorem Sound.acknowledge (h : q.Sound) {id : MessageId} {r : Reference} {q' : Queue}
    (hq' : q.acknowledge id = .ok (r, q')) :
    r.message.id = id ∧ Becomes q [r.message] [] q'.order q' := by
  rw [Queue.acknowledge] at hq'
  split at hq'
  · cases hq'
  · next found hfound =>
      cases hq'
      obtain ⟨hsound, hinfo, hperm⟩ := h.erase_delivering hfound
      exact ⟨h.delivering_id id _ hfound, hsound.withCounters _, hinfo, hperm⟩

theorem Sound.not_mem_of_acknowledge (h : q.Sound) {id : MessageId} {r : Reference} {q' : Queue}
    (hq' : q.acknowledge id = .ok (r, q')) :
    id ∈ q.heldMessages.map Message.id ∧ id ∉ q'.heldMessages.map Message.id := by
  obtain ⟨rfl, hbecomes⟩ := h.acknowledge hq'
  have hperm := hbecomes.perm.map Message.id
  have hnodup := hperm.nodup_iff.mpr h.ids_nodup
  exact ⟨hperm.mem_iff.mp (.head _), (List.nodup_cons.mp hnodup).1⟩

theorem acknowledge_eq_error {id : MessageId} {e : BrokerError} (h : q.acknowledge id = .error e) :
    e = .notInDelivery q.name id := by
  rw [Queue.acknowledge] at h
  split at h
  · cases h
    rfl
  · cases h

/-- A message whose delivery is cancelled stays unless it is given up. -/
theorem Sound.cancel (h : q.Sound) {id : MessageId} {outcome : CancelOutcome} {q' : Queue}
    (hq' : q.cancel id = .ok (outcome, q')) : Becomes q outcome.givenUp [] q'.order q' := by
  rw [Queue.cancel] at hq'
  split at hq'
  · cases hq'
  · next found hfound =>
      have herase := h.erase_delivering hfound
      dsimp only at hq'
      split at hq'
      · cases hq'
        exact ⟨herase.sound.withCounters _, herase.info_eq, herase.perm⟩
      · cases hq'
        have hids := (herase.perm.map Message.id).nodup_iff.mpr h.ids_nodup
        have hpush := SoundAt.push (r := found) herase.sound (List.nodup_cons.mp hids).1 true
        exact ⟨hpush.sound, hpush.info_eq, hpush.perm.trans herase.perm⟩

/-- The expired messages leave the queue. -/
theorem Sound.expire (h : q.Sound) (now : Timestamp) :
    Becomes q ((q.expire now).1.map Reference.message) [] (q.expire now).2.order
      (q.expire now).2 := by
  have hsplit : q.order.Perm ((q.order.filter (q.isStale now)) ++
      q.order.filter (not ∘ q.isStale now)) := (List.filter_append_perm ..).symm
  have htaken := SoundAt.takeAll (h.perm hsplit)
  have hexpired := (takeAll_frame (q.order.filter (q.isStale now)) q).2
  rw [Queue.expire, List.partition_eq_filter_filter]
  dsimp only
  have hgone : (takeAll (q.order.filter (q.isStale now)) q).2.heldMessages.Perm
      (q.expired.map Reference.message ++ ({ (takeAll (q.order.filter (q.isStale now)) q).2 with
        expired := [] } : Queue).heldMessages) := by
    simp only [heldMessages, List.map_append, List.append_nil, hexpired]
    exact List.perm_append_comm
  have hids := (hgone.map Message.id).nodup_iff.mp htaken.sound.ids_nodup
  rw [List.map_append] at hids
  refine ⟨⟨htaken.sound.nodup, htaken.sound.mem_slots, htaken.sound.slot_lt,
    htaken.sound.delivering_id, (List.nodup_append.mp hids).2.1⟩, htaken.info_eq, ?_⟩
  refine List.Perm.trans ?_ ((hgone.symm.append_left _).trans htaken.perm)
  rw [List.map_append, List.append_assoc]
  exact List.perm_append_comm_assoc ..

/-- A withdrawn queue gives back everything. -/
theorem Sound.drain (h : q.Sound) :
    ((q.drain).1.map Reference.message).Perm q.heldMessages := by
  have hsound : SoundAt (q.order ++ []) q := by
    rw [List.append_nil]
    exact h
  have hall := hsound.takeAll
  obtain ⟨hdelivering, hexpired⟩ := takeAll_frame q.order q
  have hpending : (takeAll q.order q).2.pending.values = [] := by
    refine List.eq_nil_iff_forall_not_mem.mpr fun r hr => ?_
    obtain ⟨slot, hslot⟩ := Dictionary.mem_values_iff.mp hr
    cases (hall.sound.mem_slots slot).mpr ⟨r, hslot⟩
  have hperm := hall.perm
  simpa [Queue.drain, heldMessages, hpending, hdelivering, hexpired] using hperm

/-- The messages that wait for delivery are those of the pending references. -/
theorem Sound.mem_browse (h : q.Sound) {m : Message} :
    m ∈ q.browse ↔ ∃ r ∈ q.pending.values, r.message = m := by
  rw [browse, pendingReferences, List.mem_map]
  constructor
  · rintro ⟨r, hr, rfl⟩
    obtain ⟨slot, -, hslot⟩ := List.mem_filterMap.mp hr
    exact ⟨r, Dictionary.mem_values_iff.mpr ⟨slot, hslot⟩, rfl⟩
  · rintro ⟨r, hr, rfl⟩
    obtain ⟨slot, hslot⟩ := Dictionary.mem_values_iff.mp hr
    exact ⟨r, List.mem_filterMap.mpr ⟨slot, (h.mem_slots slot).mpr ⟨r, hslot⟩, hslot⟩, rfl⟩

/-- Without a property that groups messages, a new message waits behind the others. -/
theorem Sound.browse_add (h : q.Sound) (hq : q.isLastValue = false) (m : Message) :
    (q.add m).2.browse = q.browse ++ [m] := by
  have hkey : q.settings.lastValueKey = none := by
    simpa [QueueInfo.isLastValue] using hq
  have hslot : ∀ slot ∈ q.order, slot ≠ q.nextSlot :=
    fun slot hs => Nat.ne_of_lt (h.slot_lt slot hs)
  have hold : q.order.filterMap (q.pending.insert q.nextSlot { message := m }).get? =
      q.order.filterMap q.pending.get? :=
    List.filterMap_congr fun slot hs => Dictionary.get?_insert_of_ne (hslot slot hs)
  simp [Queue.add, QueueInfo.lastValueOf, hkey, browse, pendingReferences, push, hold]

end Queue

end Courier
