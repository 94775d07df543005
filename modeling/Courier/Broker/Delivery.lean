import Courier.Broker.Durability

/-!
# Publishing and Delivery

A message is published to the queues of its address. A queue hands it out until a delivery is
acknowledged, or until it is given up or expires; then the message leaves the queue, and a copy
is published to the address that the queue's settings name for the purpose. After a restart the
messages in the store are put back into the durable queues.

## Main definitions

* `Broker.publish`: sends a message to its queues.
* `Broker.receive`, `Broker.acknowledge`, `Broker.cancelDelivery`: one delivery.
* `Broker.expireMessages`: removes what has expired.
* `Broker.recover`: puts stored messages back.
-/

namespace Courier

/-- The copy of a message that a queue sends to another address: it tells the message's address
and identifier, and the queue. -/
def Message.forwardedFrom (m : Message) (q : QueueInfo) (id : MessageId) (target : Address) :
    Message :=
  (m.forwarded id target).withHeader .sourceQueue (.string q.name)

/-- The copy of an expired message: it does not expire, and tells when the message was taken
out. -/
def Message.expiredFrom (m : Message) (q : QueueInfo) (now : Timestamp) (id : MessageId)
    (target : Address) : Message :=
  { (m.forwardedFrom q id target).withHeader .actualExpiry (.long (Int64.ofInt now.millis)) with
    expiration := none }

namespace Broker

variable {σ : Type}

/-- Where a message goes. -/
def plan (m : Message) : BrokerM σ RoutePlan := do
  let b ← get
  let (plan, ids) := b.router.plan b.ids m m.address
  set { b with ids }
  return plan

/-- Hands out the next message of a queue. -/
def receive (name : String) (now : Timestamp) : BrokerM σ (Option Reference) := do
  let (id, q) ← requireQueue name
  let (r, q) := q.poll now
  setQueue id q
  return r

variable [MessageStore σ]

/-- Sends a message to the queues of its address. -/
def publish (m : Message) : BrokerM σ (List RoutedReference) := do
  count fun c => { c with published := c.published + 1 }
  commit (← plan m)

/-- Ends a delivery: the message leaves the queue. -/
def acknowledge (name : String) (message : MessageId) : BrokerM σ Unit := do
  let (id, q) ← requireQueue name
  match q.acknowledge message with
  | .error e => throw e
  | .ok (r, q) =>
    setQueue id q
    count fun c => { c with acknowledged := c.acknowledged + 1 }
    release q.toQueueInfo r.message

/-- Ends a delivery without success: the message is pending again or given up. -/
def cancelDelivery (name : String) (message : MessageId) : BrokerM σ CancelOutcome := do
  let (id, q) ← requireQueue name
  match q.cancel message with
  | .error e => throw e
  | .ok (outcome, q) =>
    setQueue id q
    match outcome with
    | .redelivered _ => return outcome
    | .deadLetter r target =>
      count fun c => { c with deadLettered := c.deadLettered + 1 }
      if let some target := target then
        discard (publish (r.message.forwardedFrom q.toQueueInfo (← newId) target))
      release q.toQueueInfo r.message
      return outcome

/-- A message that expired leaves its queue. -/
def dismiss (q : QueueInfo) (now : Timestamp) (r : Reference) : BrokerM σ Unit := do
  if let some target := q.settings.expiryAddress then
    discard (publish (r.message.expiredFrom q now (← newId) target))
  release q r.message

/-- Removes what has expired from a queue, and tells how much that was. -/
def expireQueue (now : Timestamp) (id : BindingId) : BrokerM σ Nat := do
  match (← get).router.queues.get? id with
  | none => return 0
  | some q =>
    let (expired, q) := q.expire now
    setQueue id q
    expired.forM (dismiss q.toQueueInfo now)
    return expired.length

/-- The queues from which expired messages are taken, in the order of the walk over them. -/
def toExpire (b : Broker σ) : List BindingId :=
  b.walks.queues.order b.router.registry.nextId.number b.queueIds.values

/-- Removes what has expired from the queues, one after another. -/
def expireMessages (now : Timestamp) : BrokerM σ Nat := do
  let numbers ← (← get).toExpire.mapM (expireQueue now)
  let total := numbers.foldl (· + ·) 0
  count fun c => { c with expired := c.expired + total }
  return total

/-- Puts a stored message back, and tells whether a queue took it. A message that no durable
queue takes is removed from the store. -/
def recoverMessage (m : Message) : BrokerM σ Bool := do
  let plan := (← get).router.registry.planReplay m
  if plan.deliveries.isEmpty then
    callStore (MessageStore.remove · m.id)
    return false
  else
    discard (commit plan)
    return true

/-- Puts the messages in the store back into the durable queues, and tells how many of them a
queue took. -/
def recover : BrokerM σ Nat := do
  match MessageStore.load (← get).store with
  | .error reason => throw (.storage reason)
  | .ok messages => return (← messages.mapM recoverMessage).countP id

end Broker

end Courier
