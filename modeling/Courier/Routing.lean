import Courier.Registry

/-!
# Routing

A message at an address goes to the bindings there whose selectors pick it. If one of them is
an exclusive divert, the earliest such divert alone gets the message. Otherwise each divert
sends a copy on, and each queue takes the message. A copy is then treated like a message at its
new address, until a divert would see a copy of its own again, or a copy has passed through as
many diverts as is permitted.

Where a message goes is first planned and then carried out. A plan does not change any queue,
so it can be carried out later, after the message was stored.

Copies are planned in rounds: the copies that passed through one divert, then those that passed
through two, and so on. The number of rounds is bounded by the permitted number of diverts.

## Main definitions

* `RoutePlan`: the deliveries that a message leads to.
* `Registry.plan`, `Registry.planReplay`: the plan for a new message and for a stored one.
* `Router`: the registry with its queues, and `Router.commit`, which carries out a plan.
-/

namespace Courier

/-! ### Plans -/

/-- A message that is to be put into a queue. -/
structure Delivery where
  /-- The number of the queue's binding. -/
  binding : BindingId
  /-- The queue. -/
  queue : QueueInfo
  /-- The message. -/
  message : Message
  deriving DecidableEq, Repr

/-- Where a message goes. -/
structure RoutePlan where
  /-- The deliveries, in order. -/
  deliveries : List Delivery := []
  /-- How many copies diverts made. -/
  diverted : Nat := 0
  /-- How many copies were not made because of a limit. -/
  dropped : Nat := 0
  /-- Whether the message was stored before and is not counted again. -/
  replay : Bool := false
  deriving DecidableEq, Repr

/-- A message on its way, with the diverts that it passed through. -/
structure InTransit where
  /-- The message. -/
  message : Message
  /-- The address that it is at. -/
  address : Address
  /-- The diverts that it passed through, the latest first. -/
  passed : List BindingId := []
  deriving DecidableEq, Repr

/-- What the bindings at an address do with a message. -/
structure Handling where
  /-- The diverts that send a copy on. -/
  diverts : List (BindingId × Divert)
  /-- The queues that take the message. -/
  queues : List (BindingId × QueueInfo)
  deriving DecidableEq, Repr

/-- The diverts among bindings. -/
def Binding.diverts (bindings : List Binding) : List (BindingId × Divert) :=
  bindings.filterMap fun b =>
    match b.kind with
    | .divert d => some (b.id, d)
    | .queue _ => none

/-- The queues among bindings. -/
def Binding.queues (bindings : List Binding) : List (BindingId × QueueInfo) :=
  bindings.filterMap fun b =>
    match b.kind with
    | .queue q => some (b.id, q)
    | .divert _ => none

/-- What the bindings at an address do with a message: the earliest exclusive divert has it to
itself. -/
def Registry.handling (r : Registry) (m : Message) (address : Address) : Handling :=
  let matching := (r.bindingsFor address.text).filter (·.accepts m)
  match matching.find? Binding.isExclusive with
  | some b => { diverts := Binding.diverts [b], queues := [] }
  | none => { diverts := Binding.diverts matching, queues := Binding.queues matching }

/-- A plan in the making. -/
structure Planning where
  /-- The plan so far. -/
  plan : RoutePlan := {}
  /-- The copies that were made in this round. -/
  next : List InTransit := []
  /-- The identifiers for copies. -/
  ids : IdSupply

namespace Planning

/-- Sends a copy of a message through a divert, unless no more diverts are permitted or the
message passed through this one. -/
def forward (permitted : Bool) (item : InTransit) (p : Planning) (d : BindingId × Divert) :
    Planning :=
  if permitted && !item.passed.contains d.1 then
    let copy := d.2.transform item.message p.ids.next
    { plan := { p.plan with diverted := p.plan.diverted + 1 }
      next := p.next ++ [{ message := copy, address := copy.address, passed := d.1 :: item.passed }]
      ids := p.ids.advance }
  else { p with plan := { p.plan with dropped := p.plan.dropped + 1 } }

/-- Puts a message into queues. -/
def deliver (m : Message) (queues : List (BindingId × QueueInfo)) (p : Planning) : Planning :=
  { p with
    plan :=
      { p.plan with
        deliveries := p.plan.deliveries ++
          queues.map fun (id, q) => { binding := id, queue := q, message := m } } }

/-- Treats a message at its address. -/
def visit (r : Registry) (permitted : Bool) (p : Planning) (item : InTransit) : Planning :=
  let handling := r.handling item.message item.address
  (handling.diverts.foldl (forward permitted item) p).deliver item.message handling.queues

/-- Treats messages in rounds while there are any, with a number of further diverts that are
permitted. -/
def run (r : Registry) : Nat → List InTransit → Planning → Planning
  | _, [], p => p
  | 0, item :: rest, p => (item :: rest).foldl (visit r false) p
  | n + 1, item :: rest, p =>
    let p := (item :: rest).foldl (visit r true) p
    run r n p.next { p with next := [] }

end Planning

namespace Registry

/-- Where a message at an address goes, with the identifiers that are left for further
copies. -/
def plan (r : Registry) (maxDivertHops : Nat) (ids : IdSupply) (m : Message) (address : Address) :
    RoutePlan × IdSupply :=
  let p := Planning.run r maxDivertHops [{ message := m, address }] { ids }
  (p.plan, p.ids)

/-- Where a stored message goes: to the durable queues at its address. Diverts are passed over,
since their copies were stored too. -/
def planReplay (r : Registry) (m : Message) : RoutePlan where
  deliveries :=
    ((Binding.queues ((r.bindingsFor m.address.text).filter (·.accepts m))).filter
      (·.2.durable)).map fun (id, q) => { binding := id, queue := q, message := m }
  replay := true

end Registry

/-! ### Carrying plans out -/

/-- A message that was put into a queue. -/
structure RoutedReference where
  /-- The queue. -/
  queue : QueueInfo
  /-- The message. -/
  message : Message
  /-- What became of it. -/
  outcome : AddOutcome
  deriving DecidableEq, Repr

/-- How often things happened in a router. -/
structure RouterCounters where
  /-- Messages that reached a queue. -/
  routed : Nat := 0
  /-- Messages that reached no queue. -/
  unrouted : Nat := 0
  /-- Copies that diverts made. -/
  diverted : Nat := 0
  /-- Copies that were not made because of a limit. -/
  dropped : Nat := 0
  deriving DecidableEq, Repr

/-- The bindings with the queues that were bound. -/
structure Router where
  /-- The bindings. -/
  registry : Registry
  /-- The greatest number of diverts that a message passes through. -/
  maxDivertHops : Nat := 10
  /-- The queues by the numbers of their bindings. -/
  queues : Dictionary BindingId Queue := .empty
  /-- How often things happened. -/
  counters : RouterCounters := {}

namespace Router

/-- Binds a new queue to its address, unless the name is taken. -/
def bindQueue? (r : Router) (info : QueueInfo) (filter : Option Selector) :
    Option (Binding × Router) :=
  (r.registry.add? info.name info.address filter (.queue info)).map fun (b, registry) =>
    (b, { r with registry, queues := r.queues.insert b.id { info with } })

/-- Binds a divert to its address, unless the name is taken. -/
def bindDivert? (r : Router) (divert : Divert) (filter : Option Selector) :
    Option (Binding × Router) :=
  (r.registry.add? divert.name divert.address filter (.divert divert)).map fun (b, registry) =>
    (b, { r with registry })

/-- Withdraws the binding of a name. The queue stays, since plans may still refer to it. -/
def unbind? (r : Router) (name : String) : Option (Binding × Router) :=
  (r.registry.remove? name).map fun (b, registry) => (b, { r with registry })

/-- The router without the binding of a name, if there is one. -/
def unbind (r : Router) (name : String) : Router :=
  ((r.unbind? name).map Prod.snd).getD r

/-- Puts a message into its queue. -/
def deliver (r : Router) (d : Delivery) : List RoutedReference × Router :=
  match r.queues.get? d.binding with
  | some queue =>
    let (outcome, queue) := queue.add d.message
    ([{ queue := d.queue, message := d.message, outcome }],
      { r with queues := r.queues.insert d.binding queue })
  | none => ([], r)

/-- Puts messages into their queues. -/
def deliverAll (r : Router) : List Delivery → List RoutedReference × Router
  | [] => ([], r)
  | d :: rest =>
    let (first, r) := r.deliver d
    let (others, r) := r.deliverAll rest
    (first ++ others, r)

/-- Carries out a plan. A message that was stored before is not counted. -/
def commit (r : Router) (plan : RoutePlan) : List RoutedReference × Router :=
  let (references, r) := r.deliverAll plan.deliveries
  if plan.replay then (references, r)
  else
    let c := r.counters
    (references,
      { r with
        counters :=
          { routed := if references.isEmpty then c.routed else c.routed + 1
            unrouted := if references.isEmpty then c.unrouted + 1 else c.unrouted
            diverted := c.diverted + plan.diverted
            dropped := c.dropped + plan.dropped } })

/-- Where a message at an address goes. -/
def plan (r : Router) (ids : IdSupply) (m : Message) (address : Address) : RoutePlan × IdSupply :=
  r.registry.plan r.maxDivertHops ids m address

end Router

end Courier
