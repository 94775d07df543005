import Courier.Config.LogLevel
import Courier.Proofs.Broker.Startup

/-!
# Runs of Requests

A broker serves requests one after another. Whatever the requests are, and whether or not they
succeed, the books stay right, as long as messages come with identifiers of their own. The one
thing that can leave messages owed is a copy of a message that the store refuses: the message has
left its queue then, but is still counted.

## Main definitions

* `BrokerRequest`: what a broker can be asked to do.
* `Broker.serve`: the results of requests, one after another, and the state afterwards.
* `Exchange.owes`: a request after which messages may be owed.

## Main results

* `BrokerRequest.settled`: one request.
* `Broker.serve_settled`: a run of requests.
-/

namespace Courier

/-- What a broker can be asked to do. -/
inductive BrokerRequest where
  /-- Deploys a queue. -/
  | createQueue (c : QueueConfig)
  /-- Withdraws a queue. -/
  | deleteQueue (name : String)
  /-- Deploys a divert. -/
  | createDivert (c : DivertConfig)
  /-- Withdraws a divert. -/
  | destroyDivert (name : String)
  /-- Publishes a message. -/
  | publish (m : Message)
  /-- Hands out the next message of a queue. -/
  | receive (queue : String) (now : Timestamp)
  /-- Ends a delivery. -/
  | acknowledge (queue : String) (message : MessageId)
  /-- Ends a delivery without success. -/
  | cancelDelivery (queue : String) (message : MessageId)
  /-- Removes what has expired. -/
  | expireMessages (now : Timestamp)
  deriving DecidableEq, Repr

namespace BrokerRequest

/-- What a broker does about a request. -/
def act {σ : Type} [MessageStore σ] : BrokerRequest → BrokerM σ Unit
  | createQueue c => discard (Broker.createQueue c)
  | deleteQueue name => Broker.deleteQueue name
  | createDivert c => discard (Broker.createDivert c)
  | destroyDivert name => Broker.destroyDivert name
  | publish m => discard (Broker.publish m)
  | receive queue now => discard (Broker.receive queue now)
  | acknowledge queue message => Broker.acknowledge queue message
  | cancelDelivery queue message => discard (Broker.cancelDelivery queue message)
  | expireMessages now => discard (Broker.expireMessages now)

/-- The message that a request publishes. -/
def published : BrokerRequest → List Message
  | publish m => [m]
  | _ => []

/-- Whether the request leaves the queues and diverts deployed as they are. -/
def delivers : BrokerRequest → Bool
  | createQueue _ | deleteQueue _ | createDivert _ | destroyDivert _ => false
  | _ => true

/-- Whether the request may send on messages that leave a queue. -/
def forwards : BrokerRequest → Bool
  | cancelDelivery _ _ | expireMessages _ => true
  | _ => false

end BrokerRequest

/-- A request with its result. -/
structure Exchange where
  /-- The request. -/
  request : BrokerRequest
  /-- Whether it failed. -/
  result : Except BrokerError Unit

/-- Whether a message could not be sent on, because the store refused the copy. -/
def Exchange.owes (e : Exchange) : Bool :=
  match e.result with
  | .error (.storage _) => e.request.forwards
  | _ => false

namespace Broker

/-- The results of requests, one after another, and the state afterwards. -/
def serve {σ : Type} [MessageStore σ] (b : Broker σ) :
    List BrokerRequest → List Exchange × Broker σ
  | [] => ([], b)
  | r :: rest =>
    let (result, b) := b.perform r.act
    let (others, b) := b.serve rest
    ({ request := r, result } :: others, b)

section Serve

variable {σ : Type} [MessageStore σ]

theorem serve_cons (b : Broker σ) (r : BrokerRequest) (rest : List BrokerRequest) :
    b.serve (r :: rest) =
      ({ request := r, result := (b.perform r.act).1 } :: ((b.perform r.act).2.serve rest).1,
        ((b.perform r.act).2.serve rest).2) := rfl

theorem serve_append (b : Broker σ) (before after : List BrokerRequest) :
    b.serve (before ++ after) =
      ((b.serve before).1 ++ ((b.serve before).2.serve after).1,
        ((b.serve before).2.serve after).2) := by
  induction before generalizing b with
  | nil => rfl
  | cons r before ih =>
      rw [List.cons_append, serve_cons, ih]
      rfl

/-- An exchange of a run took place after some of its requests. -/
theorem exists_of_mem_serve {b : Broker σ} {requests : List BrokerRequest} {e : Exchange}
    (h : e ∈ (b.serve requests).1) :
    ∃ before after, requests = before ++ e.request :: after ∧
      e.result = ((b.serve before).2.perform e.request.act).1 := by
  induction requests generalizing b with
  | nil => cases h
  | cons r rest ih =>
      rw [serve_cons] at h
      rcases List.mem_cons.mp h with rfl | h
      · exact ⟨[], rest, rfl, rfl⟩
      · obtain ⟨before, after, rfl, hresult⟩ := ih h
        exact ⟨r :: before, after, rfl, hresult⟩

/-- Nothing is owed where nothing is sent on. -/
theorem owes_serve {b : Broker σ} {requests : List BrokerRequest}
    (h : ∀ r ∈ requests, r.forwards = false) : ∀ e ∈ (b.serve requests).1, e.owes = false := by
  intro e he
  obtain ⟨before, after, rfl, -⟩ := exists_of_mem_serve he
  have hforwards := h e.request (List.mem_append_right _ (.head _))
  rw [Exchange.owes]
  split
  · exact hforwards
  · rfl

/-- Requests that only deliver leave the bindings alone. -/
theorem act_steady {r : BrokerRequest} (hr : r.delivers) : (r.act : BrokerM σ Unit).Steady := by
  cases r with
  | publish m => exact (publish_steady m).discard
  | receive queue now => exact (receive_steady queue now).discard
  | acknowledge queue message => exact acknowledge_steady queue message
  | cancelDelivery queue message => exact (cancelDelivery_steady queue message).discard
  | expireMessages now => exact (expireMessages_steady now).discard
  | _ => cases hr

theorem extends_serve (b : Broker σ) {requests : List BrokerRequest}
    (h : ∀ r ∈ requests, r.delivers) : b.Extends (b.serve requests).2 := by
  induction requests generalizing b with
  | nil => exact .refl b
  | cons r rest ih =>
      exact (act_steady (h r (.head _)) b).trans (ih _ fun r hr => h r (.tail _ hr))

/-- The supply only moves forward. -/
theorem used_le_perform (b : Broker σ) (r : BrokerRequest) :
    b.ids.used ≤ (b.perform r.act).2.ids.used := by
  cases r with
  | createQueue c =>
      rw [BrokerRequest.act, perform_discard]
      rcases perform_createQueue b c with ⟨e, h⟩ | ⟨info, filter, bd, router, -, -, -, h⟩ <;>
        exact h ▸ Nat.le_refl _
  | createDivert c =>
      rw [BrokerRequest.act, perform_discard]
      rcases perform_createDivert b c with ⟨e, h⟩ | ⟨divert, filter, bd, router, -, -, h⟩ <;>
        exact h ▸ Nat.le_refl _
  | destroyDivert name =>
      rw [BrokerRequest.act]
      rcases perform_destroyDivert b name with ⟨e, h⟩ | ⟨-, h⟩ <;> exact h ▸ Nat.le_refl _
  | deleteQueue name =>
      rw [BrokerRequest.act]
      rcases perform_deleteQueue b name with h | ⟨id, q, -, h⟩
      · exact h ▸ Nat.le_refl _
      · have hrelease : ((b.toDiscard id q).forM fun r =>
            release q.toQueueInfo r.message : BrokerM σ PUnit).Steady :=
          .forM (fun r => release_steady _ _) _
        rw [h]
        exact (hrelease (b.withdrawn name id)).used_le
  | _ => exact (act_steady rfl b).used_le

theorem used_le_serve (b : Broker σ) (requests : List BrokerRequest) :
    b.ids.used ≤ (b.serve requests).2.ids.used := by
  induction requests generalizing b with
  | nil => exact Nat.le_refl _
  | cons r rest ih => exact Nat.le_trans (used_le_perform b r) (ih _)

end Serve

end Broker

open Broker BrokerM

namespace BrokerRequest

variable {good : BindingId → Message → Prop} {turns : Nat} {prior : Leftovers}
  {pool owed appended : List Message} {r : BrokerRequest} {b : Broker MessageLog}

/-! ### One request -/

/-- The names of queues and diverts agree after every request. -/
theorem wired {σ : Type} [MessageStore σ] {b : Broker σ} (r : BrokerRequest) (hwired : b.Wired)
    (hrouter : b.router.Bound) : (b.perform r.act).2.Wired := by
  cases r with
  | createQueue c =>
      rw [act, perform_discard]
      exact hwired.createQueue hrouter c
  | createDivert c =>
      rw [act, perform_discard]
      exact hwired.createDivert hrouter c
  | destroyDivert name => exact hwired.destroyDivert hrouter name
  | deleteQueue name =>
      rcases perform_deleteQueue b name with h | ⟨id, q, hfound, h⟩
      · rw [act, h]
        exact hwired
      · rw [act, h]
        refine (hwired.withdrawn hrouter (queue?_eq_some_iff.mp hfound).1).1.of_extends ?_
        exact Steady.forM (fun r => release_steady _ _) _ _
  | _ => exact hwired.of_extends (act_steady rfl b)

theorem balancesAt (hpublished : r.published = []) (hforwards : r.forwards = false)
    (hwired : b.Wired) (hdeploy : r.delivers = false → ∀ id m, good id m) :
    BalancesAt good turns prior b r.act := by
  cases r with
  | createQueue c => exact (createQueue_balancesAt c).discard
  | deleteQueue name => exact deleteQueue_balancesAt hwired (hdeploy rfl) name
  | createDivert c => exact (createDivert_balancesAt c).discard
  | destroyDivert name => exact destroyDivert_balancesAt hwired name
  | publish m => cases hpublished
  | receive queue now => exact receive_balancesAt.discard
  | acknowledge queue message => exact acknowledge_balancesAt
  | cancelDelivery queue message => cases hforwards
  | expireMessages now => cases hforwards

theorem mayOweAt (hforwards : r.forwards) : MayOweAt good turns prior b r.act := by
  cases r with
  | cancelDelivery queue message => exact cancelDelivery_mayOweAt.discard
  | expireMessages now => exact expireMessages_mayOweAt.discard
  | _ => cases hforwards

/-- **One request leaves the books right**, apart from what it owes. -/
theorem settled (r : BrokerRequest) (hbooks : Books good turns prior pool owed appended b)
    (hwired : b.Wired) (hgood : b.Approves good pool)
    (hdeploy : r.delivers = false → ∀ id m, good id m) (hread : ∀ m ∈ r.published, m.Readable)
    (hfresh : prior.Admits (r.published.map Message.id ++
      (pool.map Message.id ++ b.ids.handedOut turns)))
    (hturns : (b.perform r.act).2.ids.used ≤ turns) :
    ∃ pool' owed',
      b.Settled good turns prior (r.published.map Message.id) pool (b.perform r.act).2 pool' owed' ∧
      (Exchange.owes { request := r, result := (b.perform r.act).1 } = false → owed' = owed) := by
  by_cases hforwards : r.forwards
  · have hpublished : r.published = [] := by
      cases r with
      | publish m => cases hforwards
      | _ => rfl
    rw [hpublished]
    obtain ⟨pool', owed', hsettled, hresult⟩ :=
      mayOweAt hforwards pool owed appended hbooks hgood hturns
    refine ⟨pool', owed', hsettled, fun howes => hresult.resolve_right ?_⟩
    rintro ⟨reason, hreason⟩
    rw [Exchange.owes, hreason] at howes
    exact absurd hforwards (Bool.eq_false_iff.mp howes)
  · by_cases hpublished : r.published = []
    · obtain ⟨pool', hsettled⟩ := balancesAt hpublished (Bool.eq_false_iff.mpr hforwards) hwired
        hdeploy pool owed appended hbooks hgood hturns
      rw [hpublished]
      exact ⟨pool', owed, hsettled, fun _ => rfl⟩
    · cases r with
      | publish m =>
          rw [act, perform_discard] at hturns ⊢
          obtain ⟨pool', appended', hafter, hsubset, hnames, -⟩ :=
            hbooks.publish (hread m (.head _)) hfresh hgood hturns
          exact ⟨pool', owed, ⟨⟨appended', hafter⟩, hsubset, hnames⟩, fun _ => rfl⟩
      | _ => exact absurd rfl hpublished

end BrokerRequest

/-! ### Runs -/

namespace Broker

variable {good : BindingId → Message → Prop} {turns : Nat} {prior : Leftovers}
  {pool owed appended : List Message}

/-- **A run of requests leaves the books right**, apart from what some of them owe. -/
theorem serve_settled {b : Broker MessageLog} {requests : List BrokerRequest}
    (hbooks : Books good turns prior pool owed appended b) (hwired : b.Wired)
    (hgood : b.Approves good pool)
    (hdeploy : ∀ r ∈ requests, r.delivers = false → ∀ id m, good id m)
    (hread : ∀ m ∈ requests.flatMap BrokerRequest.published, m.Readable)
    (hfresh : prior.Admits ((requests.flatMap BrokerRequest.published).map Message.id ++
      (pool.map Message.id ++ b.ids.handedOut turns)))
    (hturns : (b.serve requests).2.ids.used ≤ turns) :
    (b.serve requests).2.Wired ∧ ∃ pool' owed',
      b.Settled good turns prior ((requests.flatMap BrokerRequest.published).map Message.id) pool
        (b.serve requests).2 pool' owed' ∧
      ((∀ e ∈ (b.serve requests).1, e.owes = false) → owed' = owed) := by
  induction requests generalizing b pool owed appended with
  | nil => exact ⟨hwired, pool, owed, ⟨⟨appended, hbooks⟩, fun _ hm => hm, .refl _⟩, fun _ => rfl⟩
  | cons r rest ih =>
      rw [List.flatMap_cons] at hread hfresh ⊢
      rw [List.map_append] at hfresh ⊢
      rw [List.append_assoc] at hfresh
      rw [serve_cons] at hturns ⊢
      have hused := used_le_serve (b.perform r.act).2 rest
      obtain ⟨pool₁, owed₁, hsettled, howed⟩ :=
        r.settled hbooks hwired hgood (hdeploy r (.head _))
          (fun m hm => hread m (List.mem_append_left _ hm))
          (hfresh.sublist ((List.sublist_append_right ..).append_left _))
          (Nat.le_trans hused hturns)
      obtain ⟨appended₁, hbooks₁⟩ := hsettled.books
      have hfresh₁ : prior.Admits ((rest.flatMap BrokerRequest.published).map Message.id ++
          (pool₁.map Message.id ++ (b.perform r.act).2.ids.handedOut turns)) :=
        hfresh.perm ((hsettled.names.append_left _).trans (List.perm_append_comm_assoc ..))
      have hgood₁ : (b.perform r.act).2.Approves good pool₁ := by
        cases hdelivers : r.delivers with
        | true => exact hgood.mono (act_steady hdelivers b) hsettled.subset
        | false => exact fun id m _ _ => hdeploy r (.head _) hdelivers id m
      obtain ⟨hwired', pool', owed', hsettled', howed'⟩ :=
        ih hbooks₁ (r.wired hwired hbooks.router.bound) hgood₁ (fun r hr => hdeploy r (.tail _ hr))
          (fun m hm => hread m (List.mem_append_right _ hm)) hfresh₁ hturns
      refine ⟨hwired', pool', owed', hsettled.trans hsettled', fun hnone => ?_⟩
      rw [howed' fun e he => hnone e (.tail _ he)]
      exact howed (hnone _ (.head _))

/-- The books at any point of a run of a broker that was deployed. -/
theorem serve_books_of_deploy {levels : String → Bool} {walks : WalkOrders} {c : Config}
    {store : MessageLog} {old : List Message} {ids : IdSupply} {b : Broker MessageLog}
    {requests before rest : List BrokerRequest} (hb : deploy levels walks c store ids = .ok b)
    (hstore : store.Holds old) (hrequests : requests = before ++ rest)
    (hgood : ∀ id m, b.router.registry.Accepts id m → good id m)
    (hdeploy : ∀ r ∈ requests, r.delivers = false → ∀ id m, good id m)
    (hread : ∀ m ∈ requests.flatMap BrokerRequest.published, m.Readable)
    (hfresh : Leftovers.Admits ⟨old, store.removed⟩
      ((requests.flatMap BrokerRequest.published).map Message.id ++
        ids.handedOut (b.serve requests).2.ids.used)) :
    (b.serve before).2.Wired ∧ ∃ pool owed appended,
      Books good (b.serve requests).2.ids.used ⟨old, store.removed⟩ pool owed appended
        (b.serve before).2 ∧
      Leftovers.Admits ⟨old, store.removed⟩
        ((rest.flatMap BrokerRequest.published).map Message.id ++ (pool.map Message.id ++
          (b.serve before).2.ids.handedOut (b.serve requests).2.ids.used)) ∧
      ((∀ e ∈ (b.serve before).1, e.owes = false) → owed = []) := by
  have hstart := fresh_of_deploy hb
  have hbooks : Books good (b.serve requests).2.ids.used ⟨old, store.removed⟩ [] [] [] b :=
    hstart.books hstore (hfresh.sublist (List.sublist_append_right ..))
  have hturns : (b.serve before).2.ids.used ≤ (b.serve requests).2.ids.used := by
    rw [hrequests, serve_append]
    exact used_le_serve _ rest
  rw [← hstart.ids_eq] at hfresh
  generalize (b.serve requests).2.ids.used = turns at hbooks hturns hfresh ⊢
  subst hrequests
  rw [List.flatMap_append] at hread hfresh
  rw [List.map_append, List.append_assoc] at hfresh
  obtain ⟨hwired, pool, owed, ⟨⟨appended, hafter⟩, -, hnames⟩, howed⟩ := serve_settled hbooks
    hstart.wired (fun id m haccepts _ => hgood id m haccepts)
    (fun r hr => hdeploy r (List.mem_append_left _ hr))
    (fun m hm => hread m (List.mem_append_left _ hm))
    (hfresh.sublist ((List.sublist_append_right ..).append_left _)) hturns
  refine ⟨hwired, pool, owed, appended, hafter, ?_, howed⟩
  exact hfresh.perm ((hnames.append_left _).trans (List.perm_append_comm_assoc ..))

/-! ### A small deployment -/

/-- Two durable queues at one address, and a third one for messages that are given up after the
first delivery. -/
def twoQueues : Config where
  delivery := { maxDeliveryAttempts := 1, deadLetterAddress := some "dead" }
  queues :=
    [{ name := "first", address := "orders" }, { name := "second", address := "orders" },
      { name := "dead", address := "dead" }]

/-- Identifiers with consecutive numbers. -/
def consecutive (start : Nat) : IdSupply where
  id turn := ⟨BitVec.ofNat 128 (start + turn)⟩

/-- A durable message for both queues. -/
def order (number : Nat) : Message where
  id := ⟨BitVec.ofNat 128 number⟩
  address := ⟨"orders", by decide⟩
  durable := true
  timestamp := .epoch

theorem readable_order (number : Nat) : (order number).Readable := by
  have hpriority : (4 : UInt8) ≤ maxPriority := by decide
  exact ⟨hpriority, .new⟩

theorem timesWhole_order (number : Nat) : (order number).TimesWhole := by
  have hepoch : Timestamp.epoch.IsWhole := by decide
  exact ⟨hepoch, fun _ ht => nomatch ht⟩

/-- What is decided of the outcome of a deployment, or of another action that may fail. -/
theorem exists_ok_of_any {ε α : Type} {result : Except ε α} {p : α → Bool}
    (h : result.toOption.any p) : ∃ a, result = .ok a ∧ p a := by
  cases result with
  | error e => cases h
  | ok a => exact ⟨a, rfl, h⟩

end Broker

end Courier
