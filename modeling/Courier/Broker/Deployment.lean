import Courier.Broker.Durability

/-!
# Deployment

Queues and diverts are deployed from a configuration and can be added and withdrawn later. A
name belongs to one queue or one divert.

## Main definitions

* `Broker.createQueue`, `Broker.deleteQueue`, `Broker.createDivert`, `Broker.destroyDivert`.
* `Broker.addSettings`: further settings for addresses.
* `Broker.deploy`: a broker for a configuration.
-/

namespace Courier.Broker

variable {σ : Type}

/-- The address that a text names. -/
def readAddress (text : String) : BrokerM σ Address :=
  match Address.ofString text with
  | .ok address => return address
  | .error e => throw (.address e)

/-- The selector that a text gives, if it gives one. -/
def readFilter (text : Option String) : BrokerM σ (Option Selector) :=
  match Selector.parseOptional text with
  | .ok filter => return filter
  | .error e => throw (.selector e)

/-- Adds settings for the addresses of a pattern. Queues that exist keep theirs. -/
def addSettings (entry : SettingsEntry) : BrokerM σ Unit := do
  let b ← get
  match b.settings.add entry with
  | .ok settings => set { b with settings }
  | .error e => throw (.config e)

/-- Deploys a queue. -/
def createQueue (c : QueueConfig) : BrokerM σ QueueInfo := do
  let address ← readAddress c.address
  let filter ← readFilter c.filter
  let b ← get
  let info : QueueInfo :=
    { name := c.name, address, durable := c.durable, settings := b.settings.resolve address.text }
  match b.router.bindQueue? info filter with
  | some (binding, router) =>
    set { b with router, queueIds := b.queueIds.insert c.name binding.id }
    return info
  | none => throw (.duplicateBinding c.name)

/-- What a queue holds that is withdrawn, in the order of the walk over it. -/
def toDiscard (b : Broker σ) (id : BindingId) (q : Queue) : List Reference :=
  b.walks.references.order id.number q.drain.1

/-- Withdraws a queue with all that it holds. -/
def deleteQueue [MessageStore σ] (name : String) : BrokerM σ Unit := do
  let (id, q) ← requireQueue name
  let discarded := (← get).toDiscard id q
  modify fun b =>
    let router := b.router.unbind name
    { b with
      router := { router with queues := router.queues.erase id }
      queueIds := b.queueIds.erase name }
  discarded.forM fun r => release q.toQueueInfo r.message

/-- Deploys a divert. -/
def createDivert (c : DivertConfig) : BrokerM σ Divert := do
  let address ← readAddress c.address
  let target ← readAddress c.forwardingAddress
  if (← get).config.wildcards.isWildcard target.text then
    throw (.wildcardForwarding c.name target.text)
  if target = address then throw (.selfForwarding c.name target.text)
  let filter ← readFilter c.filter
  let divert : Divert :=
    { name := c.name, address, forwardingAddress := target, exclusive := c.exclusive }
  let b ← get
  match b.router.bindDivert? divert filter with
  | some (_, router) =>
    set { b with router, diverts := b.diverts.insert c.name divert }
    return divert
  | none => throw (.duplicateBinding c.name)

/-- Withdraws a divert. -/
def destroyDivert (name : String) : BrokerM σ Unit := do
  unless (← get).diverts.contains name do throw (.divertNotFound name)
  modify fun b =>
    { b with router := b.router.unbind name, diverts := b.diverts.erase name }

/-- A broker without queues and diverts. -/
def ofConfig (walks : WalkOrders) (c : Config) (store : σ) (ids : IdSupply) : Broker σ where
  config := c
  settings := .ofConfig c
  router :=
    { registry := .empty c.wildcards, maxDivertHops := c.routing.maxDivertHops.toNat }
  store := store
  ids := ids
  walks := walks

/-- Deploys what a configuration names. -/
def deployBindings (c : Config) : BrokerM σ Unit := do
  c.queues.forM fun q => discard (createQueue q)
  c.diverts.forM fun d => discard (createDivert d)

/-- A broker with the queues and diverts of a configuration, which has to be sound for a log that
takes certain levels. -/
def deploy (levels : String → Bool) (walks : WalkOrders) (c : Config) (store : σ)
    (ids : IdSupply) : Except BrokerError (Broker σ) :=
  match c.check levels with
  | .error e => .error (.config e)
  | .ok () =>
    match (ofConfig walks c store ids).perform (deployBindings c) with
    | (.ok (), b) => .ok b
    | (.error e, _) => .error e

end Courier.Broker
