import Courier.Routing
import Courier.Store

/-!
# The State of a Broker

A broker deploys queues and diverts, routes messages to queues, and keeps durable messages in a
store for as long as a durable queue holds them. What a broker does either succeeds or fails,
and it leaves a new state in both cases.

The broker counts the references that durable queues hold to each durable message. A message is
in the store while its count is positive.

Some of what a broker does goes over a map, in an order that nobody chooses. The orders are part of
the state and never change; which turn a walk has is told by what the state counts anyway, so that
every walk over a map that changed in between may go another way.

## Main definitions

* `Shuffle`, `WalkOrders`: the orders in which maps are walked over.
* `Broker`: the state.
* `BrokerM`: what a broker does.
* `Broker.callStore`, `Broker.requireQueue`: access to the store and to queues.
-/

namespace Courier

/-- How often things happened in a broker. -/
structure BrokerCounters where
  /-- Messages that were published, copies for other addresses included. -/
  published : Nat := 0
  /-- Deliveries that were acknowledged. -/
  acknowledged : Nat := 0
  /-- Messages that were given up. -/
  deadLettered : Nat := 0
  /-- Messages that expired. -/
  expired : Nat := 0
  deriving DecidableEq, Repr

/-- The orders in which maps of a kind are walked over. A map has no order of its own: each walk,
known by its turn, may come to the items in another one. -/
structure Shuffle (α : Type) where
  /-- The items in the order of a walk. -/
  order : Nat → List α → List α
  /-- A walk comes to each item once. -/
  perm : ∀ turn items, (order turn items).Perm items

namespace Shuffle

/-- Each walk comes to the items as they are listed. -/
def inOrder {α : Type} : Shuffle α where
  order _ items := items
  perm _ _ := .refl _

/-- Each walk comes to the items from the last one to the first. -/
def reversed {α : Type} : Shuffle α where
  order _ items := items.reverse
  perm _ items := items.reverse_perm

end Shuffle

/-- The orders in which a broker walks over its maps. -/
structure WalkOrders where
  /-- The messages that are stored for one plan. -/
  messages : Shuffle Message := .inOrder
  /-- The queues from which expired messages are taken. -/
  queues : Shuffle BindingId := .inOrder
  /-- The references of a queue that is withdrawn. -/
  references : Shuffle Reference := .inOrder

/-- A broker with its store. -/
structure Broker (σ : Type) where
  /-- The configuration that the broker was deployed from. -/
  config : Config
  /-- The settings of addresses. -/
  settings : SettingsRepository
  /-- The bindings and the queues. -/
  router : Router
  /-- The queues that are deployed, by name. -/
  queueIds : Dictionary String BindingId := .empty
  /-- The diverts that are deployed, by name. -/
  diverts : Dictionary String Divert := .empty
  /-- How many references durable queues hold to each durable message. -/
  durableCounts : Dictionary MessageId Nat := .empty
  /-- How often things happened. -/
  counters : BrokerCounters := {}
  /-- The store. -/
  store : σ
  /-- The identifiers for messages that the broker makes. -/
  ids : IdSupply
  /-- The orders in which the broker walks over its maps. -/
  walks : WalkOrders := {}

/-- What a broker does: it changes the state, and gives a result or fails. -/
abbrev BrokerM (σ : Type) : Type → Type :=
  ExceptT BrokerError (StateM (Broker σ))

namespace Broker

variable {σ α : Type}

/-- Does something, starting from a state. -/
def perform (b : Broker σ) (act : BrokerM σ α) : Except BrokerError α × Broker σ :=
  act.run.run b

/-- Calls the store and hands on what it says. -/
def tryStore (call : σ → Except String α × σ) : BrokerM σ (Except String α) := do
  let b ← get
  let (result, store) := call b.store
  set { b with store }
  return result

/-- Calls the store, whose failure is a failure of the broker. -/
def callStore (call : σ → Except String α × σ) : BrokerM σ α := do
  match ← tryStore call with
  | .ok a => return a
  | .error reason => throw (.storage reason)

/-- An identifier for a new message. -/
def newId : BrokerM σ MessageId := do
  let b ← get
  set { b with ids := b.ids.advance }
  return b.ids.next

/-- The queue of a name with the number of its binding. -/
def queue? (b : Broker σ) (name : String) : Option (BindingId × Queue) := do
  let id ← b.queueIds.get? name
  let q ← b.router.queues.get? id
  some (id, q)

/-- The queue of a name, which has to exist. -/
def requireQueue (name : String) : BrokerM σ (BindingId × Queue) := do
  match (← get).queue? name with
  | some found => return found
  | none => throw (.queueNotFound name)

/-- Puts a queue in its place. -/
def setQueue (id : BindingId) (q : Queue) : BrokerM σ Unit :=
  modify fun b => { b with router := { b.router with queues := b.router.queues.insert id q } }

/-- Changes the counters. -/
def count (change : BrokerCounters → BrokerCounters) : BrokerM σ Unit :=
  modify fun b => { b with counters := change b.counters }

end Broker

end Courier
