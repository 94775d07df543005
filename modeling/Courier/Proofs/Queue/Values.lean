import Courier.Proofs.Queue

/-!
# The Values of a Last-Value Queue

A last-value queue finds the reference that a message replaces by the value of the message. The
index of values is right in every queue that came about by the operations on queues, whatever the
identifiers of the messages are: messages with one identifier may have been added again and again.

A message that is in a queue stays there until it is acknowledged, given up or taken out as
expired, or until a message with the same value takes its place. A queue retains a message as long
as the message, or one that took its place, is there.

## Main definitions

* `Queue.Keyed`: the index of values is right.
* `Queue.Yields`: a queue with a right index after some messages left it and others came.
* `Queue.Retains`: a queue holds a message, or one that took its place.

## Main results

* `Queue.Keyed.add`, `Queue.Keyed.poll`, `Queue.Keyed.acknowledge`, `Queue.Keyed.cancel`,
  `Queue.Keyed.expire`: what each operation does.
* `Queue.mem_expire_iff`: what is taken out as expired.
* `Queue.Retains.add`, `Queue.Retains.of_yields`: what is retained when messages come and go.
-/

namespace Courier

namespace Queue

/-- The index of values is right: it leads to a pending reference of the value. References carry
the values of their messages, and only messages that expire are set aside. -/
structure Keyed (q : Queue) : Prop where
  slot_lt : ∀ slot r, q.pending.get? slot = some r → slot < q.nextSlot
  indexed : ∀ value slot, q.lastValues.get? value = some slot →
    ∃ r, q.pending.get? slot = some r ∧ r.lastValue = some value
  pending_value : ∀ slot r, q.pending.get? slot = some r → r.lastValue = q.lastValueOf r.message
  delivering_value : ∀ id r, q.delivering.get? id = some r →
    r.lastValue = q.lastValueOf r.message
  expires : ∀ r ∈ q.expired, r.message.expiration.isSome

/-- A queue after some messages left it and others came into it. -/
structure Yields (q : Queue) (out into : List Message) (q' : Queue) : Prop where
  keyed : q'.Keyed
  info_eq : q'.toQueueInfo = q.toQueueInfo
  perm : (out ++ q'.heldMessages).Perm (into ++ q.heldMessages)

theorem keyed_new (info : QueueInfo) : Keyed { info with } where
  slot_lt slot r h := by simp at h
  indexed value slot h := by simp at h
  pending_value slot r h := by simp at h
  delivering_value id r h := by simp at h
  expires r h := absurd h List.not_mem_nil

variable {q q' : Queue} {out into : List Message}

/-- What left the queue was there before, or came. -/
theorem Yields.mem_of_mem_out (h : q.Yields out into q') {m : Message} (hm : m ∈ out) :
    m ∈ into ∨ m ∈ q.heldMessages :=
  List.mem_append.mp (h.perm.mem_iff.mp (List.mem_append_left _ hm))

/-- What is held was held before, or came. -/
theorem Yields.mem_of_mem (h : q.Yields out into q') {m : Message} (hm : m ∈ q'.heldMessages) :
    m ∈ into ∨ m ∈ q.heldMessages :=
  List.mem_append.mp (h.perm.mem_iff.mp (List.mem_append_right _ hm))

/-- What was held before left the queue, or is held. -/
theorem Yields.mem_or_mem (h : q.Yields out into q') {m : Message} (hm : m ∈ q.heldMessages) :
    m ∈ out ∨ m ∈ q'.heldMessages :=
  List.mem_append.mp (h.perm.mem_iff.mpr (List.mem_append_right _ hm))

/-- What came left the queue again, or is held. -/
theorem Yields.mem_of_mem_into (h : q.Yields out into q') {m : Message} (hm : m ∈ into) :
    m ∈ out ∨ m ∈ q'.heldMessages :=
  List.mem_append.mp (h.perm.mem_iff.mpr (List.mem_append_left _ hm))

theorem Yields.trans {q'' : Queue} {out' into' : List Message} (h : q.Yields out into q')
    (h' : q'.Yields out' into' q'') : q.Yields (out ++ out') (into ++ into') q'' := by
  refine ⟨h'.keyed, h'.info_eq.trans h.info_eq, ?_⟩
  have hthen := (List.perm_append_comm_assoc out into' q'.heldMessages).trans
    (h.perm.append_left into')
  rw [List.append_assoc, List.append_assoc]
  exact ((h'.perm.append_left out).trans hthen).trans (List.perm_append_comm_assoc ..)

/-! ### Slots -/

theorem Keyed.withCounters (h : q.Keyed) (counters : QueueCounters) :
    Keyed { q with counters } :=
  ⟨h.slot_lt, h.indexed, h.pending_value, h.delivering_value, h.expires⟩

theorem Keyed.withOrder (h : q.Keyed) (order : List Slot) : Keyed { q with order } :=
  ⟨h.slot_lt, h.indexed, h.pending_value, h.delivering_value, h.expires⟩

theorem Keyed.get?_nextSlot (h : q.Keyed) : q.pending.get? q.nextSlot = none := by
  rcases hr : q.pending.get? q.nextSlot with _ | r
  · rfl
  · exact absurd (h.slot_lt _ r hr) (Nat.lt_irrefl _)

/-- A reference in a new slot. -/
theorem Keyed.push (h : q.Keyed) {r : Reference} (hr : r.lastValue = q.lastValueOf r.message)
    (atHead : Bool) : q.Yields [] [r.message] (q.push r atHead) := by
  have hpending : (q.push r atHead).pending = q.pending.insert q.nextSlot r := rfl
  have hold : ∀ slot r', q.pending.get? slot = some r' →
      (q.push r atHead).pending.get? slot = some r' := by
    intro slot r' hr'
    rw [hpending, Dictionary.get?_insert_of_ne (Nat.ne_of_lt (h.slot_lt slot r' hr')), hr']
  have hindexed : ∀ value slot, q.lastValues.get? value = some slot →
      ∃ r', (q.push r atHead).pending.get? slot = some r' ∧ r'.lastValue = some value := by
    intro value slot hslot
    obtain ⟨r', hr', hvalue⟩ := h.indexed value slot hslot
    exact ⟨r', hold slot r' hr', hvalue⟩
  refine ⟨⟨fun slot r' hr' => ?_, fun value slot hslot => ?_, fun slot r' hr' => ?_,
    h.delivering_value, h.expires⟩, rfl, ?_⟩
  · rw [hpending, Dictionary.get?_insert] at hr'
    split at hr'
    · next heq => exact heq ▸ Nat.lt_succ_self _
    · exact Nat.lt_succ_of_lt (h.slot_lt slot r' hr')
  · simp only [Queue.push] at hslot
    split at hslot
    · next value' hvalue =>
        split at hslot
        · exact hindexed value slot hslot
        · rw [Dictionary.get?_insert] at hslot
          split at hslot
          · next heq =>
              cases hslot
              exact ⟨r, by rw [hpending, Dictionary.get?_insert_self], by rw [heq, hvalue]⟩
          · exact hindexed value slot hslot
    · exact hindexed value slot hslot
  · rw [hpending, Dictionary.get?_insert] at hr'
    split at hr'
    · cases hr'
      exact hr
    · exact h.pending_value slot r' hr'
  · exact (((Dictionary.values_insert_perm_of_get?_eq_none r h.get?_nextSlot).append_right
      _).append_right _).map _

/-- Taking the reference out of a slot. -/
theorem Keyed.take? (h : q.Keyed) {slot : Slot} {r : Reference}
    (htake : q.take? slot = some (r, q')) :
    q.pending.get? slot = some r ∧ q.Yields [r.message] [] q' := by
  obtain ⟨r', hr, heq⟩ := Option.map_eq_some_iff.mp htake
  cases heq
  have hpending : ∀ other r', (q.pending.erase slot).get? other = some r' →
      q.pending.get? other = some r' := by
    intro other r' hr'
    rw [Dictionary.get?_erase] at hr'
    split at hr'
    · cases hr'
    · exact hr'
  refine ⟨hr, ⟨fun other r' hr' => h.slot_lt other r' (hpending other r' hr'), ?_,
    fun other r' hr' => h.pending_value other r' (hpending other r' hr'), h.delivering_value,
    h.expires⟩, rfl, (heldMessages_perm_of_pending (Dictionary.values_perm_of_get? hr)).symm⟩
  intro value other hother
  -- The index has forgotten the slot, so it leads to one of the others.
  have hkept : q.lastValues.get? value = some other ∧ other ≠ slot := by
    dsimp only at hother
    split at hother
    · next value' hvalue =>
        split at hother
        · next hindexed =>
            rw [Dictionary.get?_erase] at hother
            split at hother
            · cases hother
            · next hne =>
                refine ⟨hother, fun heq => hne ?_⟩
                obtain ⟨r', hr', hvalue'⟩ := h.indexed value other hother
                rw [heq, hr] at hr'
                cases hr'
                exact Option.some.inj (hvalue'.symm.trans hvalue)
        · next hother' =>
            refine ⟨hother, fun heq => hother' ?_⟩
            obtain ⟨r', hr', hvalue'⟩ := h.indexed value other hother
            rw [heq, hr] at hr'
            cases hr'
            rw [Option.some.inj (hvalue.symm.trans hvalue'), hother, heq]
    · next hvalue =>
        refine ⟨hother, fun heq => ?_⟩
        obtain ⟨r', hr', hvalue'⟩ := h.indexed value other hother
        rw [heq, hr] at hr'
        cases hr'
        rw [hvalue] at hvalue'
        cases hvalue'
  obtain ⟨r', hr', hvalue⟩ := h.indexed value other hkept.1
  exact ⟨r', (Dictionary.get?_erase_of_ne hkept.2).trans hr', hvalue⟩

/-- Taking the references out of some slots. -/
theorem Keyed.takeAll (h : q.Keyed) (slots : List Slot) :
    q.Yields ((Queue.takeAll slots q).1.map Reference.message) [] (Queue.takeAll slots q).2 := by
  induction slots generalizing q with
  | nil => exact ⟨h, rfl, .refl _⟩
  | cons slot slots ih =>
      rw [Queue.takeAll]
      split
      · next r q' htake =>
          have hfirst := (h.take? htake).2
          exact hfirst.trans (ih hfirst.keyed)
      · exact ih h

/-- What is taken out of slots was pending there. -/
theorem mem_takeAll_iff {slots : List Slot} {r : Reference} :
    r ∈ (takeAll slots q).1 ↔ ∃ slot ∈ slots, q.pending.get? slot = some r := by
  induction slots generalizing q with
  | nil => simp [takeAll]
  | cons slot slots ih =>
      rw [takeAll]
      rcases hslot : q.pending.get? slot with _ | found
      · rw [take?, hslot, Option.map_none]
        dsimp only
        simp only [ih, List.mem_cons, exists_eq_or_imp, hslot, reduceCtorEq, false_or]
      · rw [take?, hslot, Option.map_some]
        simp only [List.mem_cons, ih, exists_eq_or_imp, hslot, Option.some.injEq]
        rw [eq_comm]
        refine or_congr_right' fun hne => exists_congr fun other => and_congr_right fun _ => ?_
        rw [Dictionary.get?_erase]
        split
        · next heq => simp [heq, hslot, hne]
        · rfl

theorem get?_of_get?_takeAll {slots : List Slot} {slot : Slot} {r : Reference}
    (h : (takeAll slots q).2.pending.get? slot = some r) : q.pending.get? slot = some r := by
  induction slots generalizing q with
  | nil => exact h
  | cons other slots ih =>
      rw [takeAll] at h
      split at h
      · next taken q' htake =>
          obtain ⟨found, -, heq⟩ := Option.map_eq_some_iff.mp htake
          cases heq
          have hr := ih h
          rw [Dictionary.get?_erase] at hr
          split at hr
          · cases hr
          · exact hr
      · exact ih h

/-! ### What happens to a queue -/

/-- A message takes the place of the one that its value is indexed for. -/
theorem Keyed.replace (h : q.Keyed) {m : Message} {value : String} {slot : Slot}
    {previous : Reference} (hm : q.lastValueOf m = some value)
    (hslot : q.lastValues.get? value = some slot) (hr : q.pending.get? slot = some previous) :
    q.lastValueOf previous.message = some value ∧
      q.Yields [previous.message] [m] { q with
        pending := q.pending.insert slot { message := m, lastValue := q.lastValueOf m } } := by
  obtain ⟨r', hr', hprevious⟩ := h.indexed value slot hslot
  rw [hr] at hr'
  cases hr'
  let new : Reference := { message := m, lastValue := q.lastValueOf m }
  have hget : ∀ other r', (q.pending.insert slot new).get? other = some r' →
      (other = slot ∧ r' = new) ∨ q.pending.get? other = some r' := by
    intro other r' hr'
    rw [Dictionary.get?_insert] at hr'
    split at hr'
    · next heq =>
        cases hr'
        exact .inl ⟨heq, rfl⟩
    · exact .inr hr'
  refine ⟨by rw [← h.pending_value slot previous hr, hprevious],
    ⟨fun other r' hr' => ?_, fun value' other hother => ?_, fun other r' hr' => ?_,
      h.delivering_value, h.expires⟩, rfl, ?_⟩
  · rcases hget other r' hr' with ⟨rfl, -⟩ | hr'
    · exact h.slot_lt _ previous hr
    · exact h.slot_lt other r' hr'
  · obtain ⟨r', hr', hvalue'⟩ := h.indexed value' other hother
    by_cases heq : other = slot
    · rw [heq, hr] at hr'
      cases hr'
      refine ⟨new, by rw [heq, Dictionary.get?_insert_self], ?_⟩
      exact hm.trans (hprevious.symm.trans hvalue')
    · exact ⟨r', (Dictionary.get?_insert_of_ne heq).trans hr', hvalue'⟩
  · rcases hget other r' hr' with ⟨-, rfl⟩ | hr'
    · rfl
    · exact h.pending_value other r' hr'
  · have hnew := heldMessages_perm_of_pending
      (q := { q with pending := q.pending.insert slot new }) (q.pending.values_insert_perm slot new)
    have hold := heldMessages_perm_of_pending (Dictionary.values_perm_of_get? hr)
    exact (hnew.cons _).trans ((List.Perm.swap ..).trans (hold.symm.cons _))

/-- A message comes. A message that leaves its place to it has the same value. -/
theorem Keyed.add (h : q.Keyed) (m : Message) :
    m ∈ (q.add m).2.heldMessages ∧ ∃ out, q.Yields out [m] (q.add m).2 ∧
      ∀ n ∈ out, (q.lastValueOf n).isSome ∧ q.lastValueOf m = q.lastValueOf n := by
  rw [Queue.add]
  split
  · next slot previous hindexed =>
      obtain ⟨value, hm, hvalue⟩ := Option.bind_eq_some_iff.mp hindexed
      obtain ⟨slot', hslot, hfound⟩ := Option.bind_eq_some_iff.mp hvalue
      obtain ⟨r, hr, heq⟩ := Option.bind_eq_some_iff.mp hfound
      cases heq
      obtain ⟨hsame, hreplaced⟩ := h.replace hm hslot hr
      refine ⟨?_, [previous.message], ⟨hreplaced.keyed.withCounters _, rfl, hreplaced.perm⟩,
        fun n hn => ?_⟩
      · refine (heldMessages_perm_of_pending (q.pending.values_insert_perm slot
          { message := m, lastValue := q.lastValueOf m })).mem_iff.mpr (.head _)
      · obtain rfl := List.mem_singleton.mp hn
        exact ⟨by rw [hsame]; rfl, hm.trans hsame.symm⟩
  · let counters : QueueCounters := { q.counters with added := q.counters.added + 1 }
    have hpush := Keyed.push (q := { q with counters })
      (r := { message := m, lastValue := q.lastValueOf m }) (h.withCounters counters) rfl false
    exact ⟨(hpush.mem_of_mem_into (.head _)).resolve_left List.not_mem_nil, [],
      ⟨hpush.keyed, hpush.info_eq, hpush.perm⟩, fun n hn => absurd hn List.not_mem_nil⟩

/-- A message that is in delivery from now on may take the place of another one of its
identifier, so nothing but the message comes. -/
theorem mem_of_mem_insert_delivering {id : MessageId} {r : Reference} {m : Message}
    (h : m ∈ ({ q with delivering := q.delivering.insert id r } : Queue).heldMessages) :
    m = r.message ∨ m ∈ q.heldMessages := by
  have hperm := heldMessages_perm_of_delivering
    (q := { q with delivering := q.delivering.insert id r }) (q.delivering.values_insert_perm id r)
  refine (List.mem_cons.mp (hperm.mem_iff.mp h)).imp_right fun hm => ?_
  simp only [heldMessages, List.map_append, List.mem_append] at hm ⊢
  refine hm.imp_left (Or.imp_right fun hm => ?_)
  obtain ⟨found, hfound, rfl⟩ := List.mem_map.mp hm
  obtain ⟨other, hother⟩ := Dictionary.mem_values_iff.mp hfound
  rw [Dictionary.get?_erase] at hother
  split at hother
  · cases hother
  · exact List.mem_map_of_mem (Dictionary.mem_values_iff.mpr ⟨other, hother⟩)

/-- Handing out moves a reference and sets others aside; nothing comes. -/
theorem Keyed.pollFrom (h : q.Keyed) (now : Timestamp) (slots : List Slot) :
    (Queue.pollFrom now slots q).2.Keyed ∧
      (Queue.pollFrom now slots q).2.toQueueInfo = q.toQueueInfo ∧
      ∀ m ∈ (Queue.pollFrom now slots q).2.heldMessages, m ∈ q.heldMessages := by
  induction slots generalizing q with
  | nil => exact ⟨h.withOrder [], rfl, fun _ hm => hm⟩
  | cons slot slots ih =>
      rw [Queue.pollFrom]
      split
      · exact ih h
      · next r q' htake =>
          obtain ⟨hr, htaken⟩ := h.take? htake
          have hkeyed := htaken.keyed
          have hall : ∀ m, m = r.message ∨ m ∈ q'.heldMessages → m ∈ q.heldMessages := by
            rintro m (rfl | hm)
            · exact (htaken.mem_of_mem_out (.head _)).resolve_left List.not_mem_nil
            · exact (htaken.mem_of_mem hm).resolve_left List.not_mem_nil
          split
          · next hexpired =>
              have haside : Keyed { q' with expired := q'.expired ++ [r] } := by
                refine ⟨hkeyed.slot_lt, hkeyed.indexed, hkeyed.pending_value,
                  hkeyed.delivering_value, fun r' hr' => ?_⟩
                rcases List.mem_append.mp hr' with hr' | hr'
                · exact hkeyed.expires r' hr'
                · obtain rfl := List.mem_singleton.mp hr'
                  exact Option.isSome_of_any hexpired
              have hmoved : ({ q' with expired := q'.expired ++ [r] } : Queue).heldMessages.Perm
                  (r.message :: q'.heldMessages) := by
                simpa [heldMessages] using List.perm_append_singleton r.message q'.heldMessages
              obtain ⟨hfinal, hinfo, hheld⟩ := ih haside
              refine ⟨hfinal, hinfo.trans htaken.info_eq, fun m hm => hall m ?_⟩
              exact List.mem_cons.mp (hmoved.mem_iff.mp (hheld m hm))
          · refine ⟨⟨hkeyed.slot_lt, hkeyed.indexed, hkeyed.pending_value, fun id r' hr' => ?_,
              hkeyed.expires⟩, htaken.info_eq, fun m hm => hall m ?_⟩
            · rw [Dictionary.get?_insert] at hr'
              split at hr'
              · cases hr'
                have hvalue := h.pending_value slot r hr
                rwa [← htaken.info_eq] at hvalue
              · exact hkeyed.delivering_value id r' hr'
            · exact mem_of_mem_insert_delivering (q := { q' with order := slots })
                (r := { r with deliveryCount := r.deliveryCount + 1 }) hm

theorem Keyed.poll (h : q.Keyed) (now : Timestamp) :
    (q.poll now).2.Keyed ∧ (q.poll now).2.toQueueInfo = q.toQueueInfo ∧
      ∀ m ∈ (q.poll now).2.heldMessages, m ∈ q.heldMessages :=
  h.pollFrom now q.order

theorem Keyed.erase_delivering (h : q.Keyed) {id : MessageId} {r : Reference}
    (hr : q.delivering.get? id = some r) :
    q.Yields [r.message] [] { q with delivering := q.delivering.erase id } := by
  refine ⟨⟨h.slot_lt, h.indexed, h.pending_value, fun other found hfound => ?_, h.expires⟩, rfl,
    (heldMessages_perm_of_delivering (Dictionary.values_perm_of_get? hr)).symm⟩
  rw [Dictionary.get?_erase] at hfound
  split at hfound
  · cases hfound
  · exact h.delivering_value other found hfound

/-- An acknowledged message leaves the queue. -/
theorem Keyed.acknowledge (h : q.Keyed) {id : MessageId} {r : Reference}
    (hq' : q.acknowledge id = .ok (r, q')) : q.Yields [r.message] [] q' := by
  rw [Queue.acknowledge] at hq'
  split at hq'
  · cases hq'
  · next found hfound =>
      cases hq'
      have herase := h.erase_delivering hfound
      exact ⟨herase.keyed.withCounters _, herase.info_eq, herase.perm⟩

/-- A message whose delivery is cancelled stays unless it is given up. -/
theorem Keyed.cancel (h : q.Keyed) {id : MessageId} {outcome : CancelOutcome}
    (hq' : q.cancel id = .ok (outcome, q')) : q.Yields outcome.givenUp [] q' := by
  rw [Queue.cancel] at hq'
  split at hq'
  · cases hq'
  · next found hfound =>
      have herase := h.erase_delivering hfound
      dsimp only at hq'
      split at hq'
      · cases hq'
        exact ⟨herase.keyed.withCounters _, herase.info_eq, herase.perm⟩
      · cases hq'
        have hpush := herase.keyed.push (r := found) (h.delivering_value id found hfound) true
        exact ⟨hpush.keyed, hpush.info_eq, hpush.perm.trans herase.perm⟩

/-- The expired messages leave the queue. -/
theorem Keyed.expire (h : q.Keyed) (now : Timestamp) :
    q.Yields ((q.expire now).1.map Reference.message) [] (q.expire now).2 := by
  have htaken := h.takeAll (q.order.filter (q.isStale now))
  obtain ⟨-, hexpired⟩ := takeAll_frame (q.order.filter (q.isStale now)) q
  rw [Queue.expire, List.partition_eq_filter_filter]
  dsimp only
  generalize Queue.takeAll (q.order.filter (q.isStale now)) q = result at htaken hexpired ⊢
  obtain ⟨taken, rest⟩ := result
  have hkeyed := htaken.keyed
  have hgone : rest.heldMessages.Perm (q.expired.map Reference.message ++
      ({ rest with expired := [] } : Queue).heldMessages) := by
    dsimp only at hexpired
    simp only [heldMessages, List.map_append, List.append_nil, hexpired]
    exact List.perm_append_comm
  refine ⟨⟨hkeyed.slot_lt, hkeyed.indexed, hkeyed.pending_value, hkeyed.delivering_value,
    fun r hr => absurd hr List.not_mem_nil⟩, htaken.info_eq, ?_⟩
  refine List.Perm.trans ?_ ((hgone.symm.append_left _).trans htaken.perm)
  rw [List.map_append, List.append_assoc]
  exact List.perm_append_comm_assoc ..

/-- Everything leaves. -/
theorem Keyed.drain (h : q.Keyed) : q.drain.2.Keyed := by
  have hkeyed := (h.takeAll q.order).keyed
  rw [Queue.drain]
  dsimp only
  generalize Queue.takeAll q.order q = result at hkeyed ⊢
  exact ⟨hkeyed.slot_lt, hkeyed.indexed, hkeyed.pending_value, fun id r hr => by simp at hr,
    fun r hr => absurd hr List.not_mem_nil⟩

/-! ### What is taken out as expired -/

/-- What was set aside is taken out as expired, and what is expired and pending in order. -/
theorem mem_expire_iff {now : Timestamp} {r : Reference} :
    r ∈ (q.expire now).1 ↔ r ∈ q.expired ∨
      ∃ slot ∈ q.order, q.pending.get? slot = some r ∧ r.message.isExpired now := by
  rw [Queue.expire, List.partition_eq_filter_filter]
  dsimp only
  rw [List.mem_append, mem_takeAll_iff]
  refine or_congr_right (exists_congr fun slot => ?_)
  rw [List.mem_filter, and_assoc]
  refine and_congr_right fun _ => ?_
  constructor
  · rintro ⟨hstale, hr⟩
    rw [isStale, hr] at hstale
    exact ⟨hr, hstale⟩
  · rintro ⟨hr, hexpired⟩
    exact ⟨by rwa [isStale, hr], hr⟩

theorem Keyed.expires_of_expire (h : q.Keyed) {now : Timestamp} {r : Reference}
    (hr : r ∈ (q.expire now).1) : r.message.expiration.isSome := by
  rcases mem_expire_iff.mp hr with hr | ⟨-, -, -, hexpired⟩
  · exact h.expires r hr
  · exact Option.isSome_of_any hexpired

theorem info_add (q : Queue) (m : Message) : (q.add m).2.toQueueInfo = q.toQueueInfo := by
  rw [Queue.add]
  split <;> rfl

/-- A message that does not expire is not taken out, nor is anything else because it came. -/
theorem mem_expire_of_add {now : Timestamp} {m : Message} {r : Reference}
    (hm : m.expiration = none) (hr : r ∈ ((q.add m).2.expire now).1) : r ∈ (q.expire now).1 := by
  have hstays : ¬m.isExpired now := by simp [Message.isExpired, hm]
  have hget : ∀ {slot place : Slot}, (q.pending.insert place
      { message := m, lastValue := q.lastValueOf m }).get? slot = some r →
      r.message.isExpired now → slot ≠ place ∧ q.pending.get? slot = some r := by
    intro slot place hr hexpired
    rw [Dictionary.get?_insert] at hr
    split at hr
    · cases hr
      exact absurd hexpired hstays
    · next hne => exact ⟨hne, hr⟩
  rw [mem_expire_iff] at hr ⊢
  refine hr.imp ?_ ?_
  · rw [Queue.add]
    split <;> exact id
  · rw [Queue.add]
    split
    · rintro ⟨slot, hslot, hr, hexpired⟩
      exact ⟨slot, hslot, (hget hr hexpired).2, hexpired⟩
    · rintro ⟨slot, hslot, hr, hexpired⟩
      obtain ⟨hne, hr⟩ := hget hr hexpired
      rcases List.mem_append.mp hslot with hslot | hslot
      · exact ⟨slot, hslot, hr, hexpired⟩
      · exact absurd (List.mem_singleton.mp hslot) hne

/-- What is taken out at a second time was to be taken out at the first. -/
theorem mem_expire_of_expire {now : Timestamp} {r : Reference}
    (hr : r ∈ ((q.expire now).2.expire now).1) : r ∈ (q.expire now).1 := by
  rw [mem_expire_iff] at hr ⊢
  rw [Queue.expire, List.partition_eq_filter_filter] at hr
  rcases hr with hr | ⟨slot, hslot, hr, hexpired⟩
  · cases hr
  · exact .inr ⟨slot, (List.mem_filter.mp hslot).1, get?_of_get?_takeAll hr, hexpired⟩

/-! ### What a queue retains -/

/-- A queue holds a message, or one of some others that has the same value and took its place. -/
def Retains (q : Queue) (others : List Message) (m : Message) : Prop :=
  m ∈ q.heldMessages ∨
    ∃ n ∈ others, n ∈ q.heldMessages ∧ (q.lastValueOf m).isSome ∧
      q.lastValueOf n = q.lastValueOf m

variable {others : List Message} {m n : Message}

theorem Retains.mono {others' : List Message} (h : q.Retains others m)
    (hsub : ∀ n ∈ others, n ∈ others') : q.Retains others' m :=
  h.imp_right fun ⟨n, hn, hheld⟩ => ⟨n, hsub n hn, hheld⟩

/-- What was retained before is retained when a message comes. -/
theorem Retains.add (h : q.Retains others m) (hq : q.Keyed) (hn : n ∈ others) :
    (q.add n).2.Retains others m := by
  obtain ⟨hheld, out, hyields, hsame⟩ := hq.add n
  rw [Retains, hyields.info_eq]
  rcases h with h | ⟨c, hc, h, hvalue, hsameValue⟩
  · refine (hyields.mem_or_mem h).symm.imp_right fun hout => ?_
    exact ⟨n, hn, hheld, hsame m hout⟩
  · rcases hyields.mem_or_mem h with hout | h
    · exact .inr ⟨n, hn, hheld, hvalue, (hsame c hout).2.trans hsameValue⟩
    · exact .inr ⟨c, hc, h, hvalue, hsameValue⟩

/-- What was retained before left the queue or is retained, unless others left. -/
theorem Retains.of_yields (h : q.Retains others m) (hq : q.Yields out [] q')
    (hothers : ∀ n ∈ others, n ∉ out) : m ∈ out ∨ q'.Retains others m := by
  rw [Retains, hq.info_eq]
  rcases h with h | ⟨c, hc, h, hvalue⟩
  · exact (hq.mem_or_mem h).imp_right .inl
  · exact .inr (.inr ⟨c, hc, (hq.mem_or_mem h).resolve_left (hothers c hc), hvalue⟩)

end Queue

end Courier
