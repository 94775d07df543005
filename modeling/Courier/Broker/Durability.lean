import Courier.Broker.State

/-!
# Durable Messages

A durable message is stored when it first reaches a durable queue and removed when the last
durable queue lets go of it. A message is stored before it is put into any queue, so a store
that refuses it leaves all queues as they were.

## Main definitions

* `Broker.release`: a queue lets go of a message.
* `Broker.persist`, `Broker.persistPlan`: stores messages, or none of them.
* `Broker.commit`: carries out a plan.
-/

namespace Courier

/-- Whether the store keeps a message for a queue. -/
def QueueInfo.keeps (q : QueueInfo) (m : Message) : Bool :=
  m.durable && q.durable

/-- The messages of a plan that the store keeps, once for each reference to them. -/
def RoutePlan.kept (p : RoutePlan) : List Message :=
  (p.deliveries.filter fun d => d.queue.keeps d.message).map Delivery.message

/-- Each message once, where it comes first. -/
def Message.distinct (messages : List Message) : List Message :=
  (messages.foldl (fun found m => if found.any (·.id = m.id) then found else m :: found)
    []).reverse

namespace Broker

variable {σ : Type} [MessageStore σ]

/-- Gives up one reference to a stored message, and the message with the last one. -/
def releaseId (id : MessageId) : BrokerM σ Unit := do
  let b ← get
  match b.durableCounts.get? id with
  | none => return
  | some n =>
    if 1 < n then set { b with durableCounts := b.durableCounts.insert id (n - 1) }
    else
      set { b with durableCounts := b.durableCounts.erase id }
      callStore (MessageStore.remove · id)

/-- A queue lets go of a message. -/
def release (q : QueueInfo) (m : Message) : BrokerM σ Unit := do
  if q.keeps m then releaseId m.id

/-- Stores messages. If the store refuses one, those before it are removed again. -/
def persist : List MessageId → List Message → BrokerM σ Unit
  | _, [] => return
  | written, m :: rest => do
    match ← tryStore (MessageStore.append · m) with
    | .ok () => persist (written ++ [m.id]) rest
    | .error reason =>
      written.forM fun id => discard (tryStore (MessageStore.remove · id))
      throw (.storage reason)

/-- The messages that are stored for a plan, in the order of the walk over them. -/
def toPersist (b : Broker σ) (plan : RoutePlan) : List Message :=
  b.walks.messages.order b.counters.published (Message.distinct plan.kept)

/-- Stores the messages of a plan, unless they were stored before. -/
def persistPlan (plan : RoutePlan) : BrokerM σ Unit := do
  unless plan.replay do persist [] ((← get).toPersist plan)

/-- Counts a further reference to a stored message. -/
def addReference (counts : Dictionary MessageId Nat) (m : Message) : Dictionary MessageId Nat :=
  counts.insert m.id ((counts.get? m.id).getD 0 + 1)

/-- Carries out a plan. The messages of a new plan are stored first; then the references to
them are counted and the queues take them, and what was replaced in a queue is let go of. -/
def commit (plan : RoutePlan) : BrokerM σ (List RoutedReference) := do
  persistPlan plan
  let b ← get
  let (references, router) := b.router.commit plan
  set { b with router, durableCounts := plan.kept.foldl addReference b.durableCounts }
  references.forM fun r => do
    match r.outcome with
    | .replaced previous => if r.queue.durable then releaseId previous
    | .added => return
  return references

end Broker

end Courier
