import Courier.Broker.Error
import Courier.Settings

/-!
# Queues

A queue holds references to messages until they are acknowledged. A reference is pending until
it is handed out, and in delivery until the delivery is acknowledged or cancelled. Cancelling
puts the reference back at the head, or gives it up after the last permitted delivery. Messages
that turn out to have expired when they would be handed out are set aside until the next sweep.

A last-value queue also indexes its pending references by the value of a property: a message
whose value is in the index takes the place of the reference there. A reference that is put
back while its value is in the index is pending without being indexed.

Pending references live in slots. The order of the slots is the order of delivery, and slot
numbers are not used twice.

## Main definitions

* `Reference`: a message with the number of its deliveries.
* `Queue`: a queue, with `Queue.pendingReferences`, its references in order of delivery.
* `Queue.add`, `Queue.poll`, `Queue.acknowledge`, `Queue.cancel`, `Queue.expire`,
  `Queue.drain`: what happens to a queue.
-/

namespace Courier

/-- A message in a queue. -/
structure Reference where
  /-- The message. -/
  message : Message
  /-- How often the message was handed out. -/
  deliveryCount : Nat := 0
  /-- The value by which the message is replaced in a last-value queue. -/
  lastValue : Option String := none
  deriving DecidableEq, Repr

/-- What became of a message that was added. -/
inductive AddOutcome where
  /-- The message was put behind the others. -/
  | added
  /-- The message took the place of another one. -/
  | replaced (previous : MessageId)
  deriving DecidableEq, Repr

/-- What became of a reference whose delivery was cancelled. -/
inductive CancelOutcome where
  /-- The reference is pending again. -/
  | redelivered (deliveryCount : Nat)
  /-- The reference was given up, to be sent to an address if there is one. -/
  | deadLetter (reference : Reference) (address : Option Address)
  deriving DecidableEq, Repr

/-- How often things happened in a queue. -/
structure QueueCounters where
  /-- Messages that were added. -/
  added : Nat := 0
  /-- Deliveries that were acknowledged. -/
  acknowledged : Nat := 0
  /-- References that were replaced. -/
  replaced : Nat := 0
  /-- References that expired. -/
  expired : Nat := 0
  /-- References that were given up. -/
  killed : Nat := 0
  deriving DecidableEq, Repr

/-- What does not change about a queue. -/
structure QueueInfo where
  /-- The name. -/
  name : String
  /-- The pattern of the addresses that the queue is bound to. -/
  address : Address
  /-- Whether durable messages in the queue outlive a restart. -/
  durable : Bool := true
  /-- How the queue treats messages. -/
  settings : QueueSettings := {}
  deriving DecidableEq, Repr

/-- The number of a slot. -/
abbrev Slot : Type := Nat

/-- A queue. -/
structure Queue extends QueueInfo where
  /-- The slots of pending references in order of delivery. -/
  order : List Slot := []
  /-- The pending references. -/
  pending : Dictionary Slot Reference := .empty
  /-- The slots of pending references by their values. -/
  lastValues : Dictionary String Slot := .empty
  /-- The next slot to be used. -/
  nextSlot : Slot := 0
  /-- The references in delivery. -/
  delivering : Dictionary MessageId Reference := .empty
  /-- The references that were set aside as expired. -/
  expired : List Reference := []
  /-- How often things happened. -/
  counters : QueueCounters := {}

namespace QueueInfo

/-- Whether messages replace each other. -/
def isLastValue (q : QueueInfo) : Bool :=
  q.settings.lastValueKey.isSome

/-- The value by which a message is replaced. -/
def lastValueOf (q : QueueInfo) (m : Message) : Option String :=
  q.settings.lastValueKey.bind m.lastValue?

end QueueInfo

namespace Queue

/-! ### What a queue holds -/

/-- The pending references in order of delivery. -/
def pendingReferences (q : Queue) : List Reference :=
  q.order.filterMap q.pending.get?

/-- The messages that wait for delivery, in order. -/
def browse (q : Queue) : List Message :=
  q.pendingReferences.map Reference.message

/-- The number of references of all kinds. -/
def messageCount (q : Queue) : Nat :=
  q.pending.size + q.delivering.size + q.expired.length

/-! ### Slots -/

/-- The queue with a reference in a new slot at the head or behind the others. The index keeps
a slot that it has for the value. -/
def push (q : Queue) (r : Reference) (atHead : Bool) : Queue :=
  let slot := q.nextSlot
  { q with
    order := if atHead then slot :: q.order else q.order ++ [slot]
    pending := q.pending.insert slot r
    lastValues :=
      match r.lastValue with
      | some value =>
        if q.lastValues.contains value then q.lastValues else q.lastValues.insert value slot
      | none => q.lastValues
    nextSlot := slot + 1 }

/-- The reference in a slot, and the queue without it. The index forgets the value only if it
has this slot for it. -/
def take? (q : Queue) (slot : Slot) : Option (Reference × Queue) :=
  (q.pending.get? slot).map fun r =>
    (r,
      { q with
        pending := q.pending.erase slot
        lastValues :=
          match r.lastValue with
          | some value =>
            if q.lastValues.get? value = some slot then q.lastValues.erase value
            else q.lastValues
          | none => q.lastValues })

/-- The references in some slots, and the queue without them. -/
def takeAll : List Slot → Queue → List Reference × Queue
  | [], q => ([], q)
  | slot :: rest, q =>
    match q.take? slot with
    | some (r, q) =>
      let (taken, q) := takeAll rest q
      (r :: taken, q)
    | none => takeAll rest q

/-! ### What happens to a queue -/

/-- The slot of the pending reference that a value is indexed for, with that reference. -/
def indexed? (q : Queue) (value : String) : Option (Slot × Reference) := do
  let slot ← q.lastValues.get? value
  let r ← q.pending.get? slot
  some (slot, r)

/-- Adds a message: in place of the reference that its value is indexed for, or else behind the
others. -/
def add (q : Queue) (m : Message) : AddOutcome × Queue :=
  let value := q.lastValueOf m
  let r : Reference := { message := m, lastValue := value }
  let counters := { q.counters with added := q.counters.added + 1 }
  match value.bind q.indexed? with
  | some (slot, previous) =>
    (.replaced previous.message.id,
      { q with
        pending := q.pending.insert slot r
        counters := { counters with replaced := counters.replaced + 1 } })
  | none => (.added, { q with counters }.push r false)

/-- Hands out the first reference in some slots that is not expired, setting aside those before
it. -/
def pollFrom (now : Timestamp) : List Slot → Queue → Option Reference × Queue
  | [], q => (none, { q with order := [] })
  | slot :: rest, q =>
    match q.take? slot with
    | none => pollFrom now rest q
    | some (r, q) =>
      if r.message.isExpired now then pollFrom now rest { q with expired := q.expired ++ [r] }
      else
        let r := { r with deliveryCount := r.deliveryCount + 1 }
        (some r, { q with order := rest, delivering := q.delivering.insert r.message.id r })

/-- Hands out the first reference that is not expired at a time. -/
def poll (q : Queue) (now : Timestamp) : Option Reference × Queue :=
  pollFrom now q.order q

/-- Ends the delivery of a message, which leaves the queue. -/
def acknowledge (q : Queue) (id : MessageId) : Except BrokerError (Reference × Queue) :=
  match q.delivering.get? id with
  | none => .error (.notInDelivery q.name id)
  | some r =>
    .ok (r,
      { q with
        delivering := q.delivering.erase id
        counters := { q.counters with acknowledged := q.counters.acknowledged + 1 } })

/-- Ends the delivery of a message, which is pending again unless it was delivered as often as
the settings permit. -/
def cancel (q : Queue) (id : MessageId) : Except BrokerError (CancelOutcome × Queue) :=
  match q.delivering.get? id with
  | none => .error (.notInDelivery q.name id)
  | some r =>
    let q := { q with delivering := q.delivering.erase id }
    if q.settings.maxDeliveryAttempts.toNat ≤ r.deliveryCount then
      .ok (.deadLetter r q.settings.deadLetterAddress,
        { q with counters := { q.counters with killed := q.counters.killed + 1 } })
    else .ok (.redelivered r.deliveryCount, q.push r true)

/-- Whether the reference in a slot is expired at a time. -/
def isStale (q : Queue) (now : Timestamp) (slot : Slot) : Bool :=
  (q.pending.get? slot).any (·.message.isExpired now)

/-- Removes the references that are expired at a time: those that were set aside, then the
pending ones in order. -/
def expire (q : Queue) (now : Timestamp) : List Reference × Queue :=
  let (stale, kept) := q.order.partition (q.isStale now)
  let (taken, rest) := takeAll stale q
  let gone := q.expired ++ taken
  (gone,
    { rest with
      order := kept
      expired := []
      counters := { q.counters with expired := q.counters.expired + gone.length } })

/-- Removes all references: the pending ones in order, those in delivery, listed by identifier,
and those that were set aside. -/
def drain (q : Queue) : List Reference × Queue :=
  let (taken, rest) := takeAll q.order q
  (taken ++ q.delivering.values ++ q.expired,
    { rest with order := [], delivering := .empty, expired := [] })

end Queue

end Courier
