import Courier.Broker.Delivery
import Courier.Broker.Deployment

/-!
# Brokers

What a broker tells about itself.

## Main definitions

* `Broker.stats`: the numbers of things in a broker and of things that happened there.
* `Broker.resolve`: the queues that a message would reach.
-/

namespace Courier

/-- The numbers that a broker tells about itself. -/
structure BrokerStats where
  /-- What happened in the router. -/
  router : RouterCounters
  /-- The number of queues. -/
  queues : Nat
  /-- The number of diverts. -/
  diverts : Nat
  /-- The number of bindings. -/
  bindings : Nat
  /-- The number of references in queues. -/
  held : Nat
  /-- The number of messages that the store keeps for durable queues. -/
  durable : Nat
  /-- What happened in the broker. -/
  counters : BrokerCounters
  deriving DecidableEq, Repr

namespace Broker

variable {σ : Type}

/-- The queues that are deployed, by name. -/
def deployedQueues (b : Broker σ) : List Queue :=
  b.queueIds.values.filterMap b.router.queues.get?

/-- The numbers that a broker tells about itself. -/
def stats (b : Broker σ) : BrokerStats where
  router := b.router.counters
  queues := b.queueIds.size
  diverts := b.diverts.size
  bindings := b.router.registry.size
  held := (b.deployedQueues.map Queue.messageCount).foldl (· + ·) 0
  durable := b.durableCounts.size
  counters := b.counters

/-- The names of the queues that a message would reach, once for each delivery. -/
def resolve (b : Broker σ) (m : Message) : List String :=
  (b.router.plan b.ids m m.address).1.deliveries.map (·.queue.name)

end Broker

end Courier
