import Courier.Proofs.Broker.Recovery
import Courier.Proofs.Queue.Values
import Courier.Proofs.Routing.Chains
import Courier.Proofs.Store.Compaction

/-!
# The Life of a Broker

A broker is deployed over a store, serves requests, recovers, and gets further settings. It may be
shut down at any point and deployed again over the store that it left behind, with the same or
with another configuration. Messages may be published under identifiers that were used before, the
store may fail at any call, and it may be changed while the broker is not looking.

What is known in such a life does not depend on counts: the queues are those of the bindings, their
indexes of values are right, and they hold nothing but messages that were published, copies of
these, and messages that the store loaded.

## Conventions

A regime says what is known of messages and of the store. It has to hold of copies, and whatever
the broker does to the store has to keep it. The identifiers that the broker knows are those of
the messages that were published and those that the supply has handed out.

## Main definitions

* `Regime`: what is known of messages and of the store.
* `Router.Orderly`: the queues are those of the bindings, and what they hold is known.
* `Broker.Custody`: the invariant of the life of a broker.
* `Broker.Reachable`: the states that a broker comes to.

## Main results

* `Broker.commit_refused_or_committed`, `Broker.publish_refused_or_committed`: a plan is refused by
  the store, or carried out.
* `Broker.Custody.act`: a request keeps the invariant.
* `Broker.Reachable.custody`: the invariant holds in every state that a broker comes to.
* `Broker.held_timesWhole`: what the queues hold has its times in whole milliseconds if what was
  published had.
-/

namespace Courier

/-- What is known of messages and, given the identifiers that the broker knows, of the store. -/
structure Regime (σ : Type) [MessageStore σ] where
  /-- What is known of a message. -/
  good : Message → Prop
  /-- What is known of the store. -/
  stock : (MessageId → Prop) → σ → Prop
  good_forwarded : ∀ {m}, good m → ∀ id target, good (m.forwarded id target)
  good_withHeader : ∀ {m}, good m → ∀ header value, good (m.withHeader header value)
  good_lasting : ∀ {m}, good m → good { m with expiration := none }
  stock_mono : ∀ {known known' : MessageId → Prop} {s}, (∀ id, known id → known' id) →
    stock known s → stock known' s
  stock_append : ∀ {known s m}, stock known s → good m → known m.id →
    stock known (MessageStore.append s m).2
  stock_remove : ∀ {known s}, stock known s → ∀ id, stock known (MessageStore.remove s id).2
  good_of_load : ∀ {known s messages}, stock known s → MessageStore.load s = .ok messages →
    ∀ m ∈ messages, good m

namespace Regime

variable {σ : Type} [MessageStore σ]

/-- Nothing is known of messages and of the store. -/
def trivial : Regime σ where
  good _ := True
  stock _ _ := True
  good_forwarded _ _ _ := True.intro
  good_withHeader _ _ _ := True.intro
  good_lasting _ := True.intro
  stock_mono _ _ := True.intro
  stock_append _ _ _ := True.intro
  stock_remove _ _ := True.intro
  good_of_load _ _ _ _ := True.intro

theorem good_forwardedFrom (R : Regime σ) {m : Message} (h : R.good m) (q : QueueInfo)
    (id : MessageId) (target : Address) : R.good (m.forwardedFrom q id target) :=
  R.good_withHeader (R.good_forwarded h id target) ..

theorem good_expiredFrom (R : Regime σ) {m : Message} (h : R.good m) (q : QueueInfo)
    (now : Timestamp) (id : MessageId) (target : Address) :
    R.good (m.expiredFrom q now id target) :=
  R.good_lasting (R.good_withHeader (R.good_forwardedFrom h q id target) ..)

end Regime

/-! ### The identifiers that a broker knows -/

namespace Broker

variable {σ : Type} {published : List Message} {b b' : Broker σ}

/-- The identifiers that a broker knows: those of the messages that were published and those that
the supply has handed out. -/
def Knows (published : List Message) (b : Broker σ) (id : MessageId) : Prop :=
  id ∈ published.map Message.id ∨ ∃ turn < b.ids.used, b.ids.id turn = id

theorem Knows.mono (hid : b'.ids.id = b.ids.id) (hused : b.ids.used ≤ b'.ids.used)
    {id : MessageId} (h : b.Knows published id) : b'.Knows published id := by
  refine h.imp_right ?_
  rintro ⟨turn, hturn, rfl⟩
  exact ⟨turn, Nat.lt_of_lt_of_le hturn hused, by rw [hid]⟩

theorem knows_of_mem_handedOut {ids : IdSupply} {used : Nat} {id : MessageId}
    (hid : b.ids.id = ids.id) (hused : used ≤ b.ids.used) (h : id ∈ ids.handedOut used) :
    b.Knows published id := by
  obtain ⟨turn, hturn, rfl⟩ := List.mem_map.mp h
  obtain ⟨hle, hlt⟩ := List.mem_range'_1.mp hturn
  exact .inr ⟨turn, by omega, by rw [hid]⟩

end Broker

/-! ### The queues of a router -/

namespace Router

/-- The queues are those of the bindings, their indexes of values are right, and what they hold
is known. -/
structure Orderly (good : Message → Prop) (r : Router) : Prop where
  bound : r.Bound
  keyed : ∀ id q, r.queues.get? id = some q → q.Keyed
  held : ∀ id q, r.queues.get? id = some q → ∀ m ∈ q.heldMessages, good m

variable {good : Message → Prop} {r r' : Router}

theorem Orderly.of_queues_eq (h : r.Orderly good) (hregistry : r'.registry = r.registry)
    (hqueues : r'.queues = r.queues) : r'.Orderly good where
  bound := by
    refine ⟨hregistry ▸ h.bound.registry, ?_, ?_⟩
    · rw [hregistry, hqueues]
      exact h.bound.queue_of_binding
    · rw [hregistry, hqueues]
      exact h.bound.binding_of_queue
  keyed := hqueues ▸ h.keyed
  held := hqueues ▸ h.held

theorem Orderly.setQueue (h : r.Orderly good) {id : BindingId} {q q' : Queue}
    (hq : r.queues.get? id = some q) (hinfo : q'.toQueueInfo = q.toQueueInfo) (hkeyed : q'.Keyed)
    (hheld : ∀ m ∈ q'.heldMessages, good m) :
    Orderly good { r with queues := r.queues.insert id q' } := by
  refine ⟨h.bound.setQueue hq hinfo, fun other found hfound => ?_, fun other found hfound => ?_⟩
  all_goals
    rw [Dictionary.get?_insert] at hfound
    split at hfound
  · cases hfound
    exact hkeyed
  · exact h.keyed other found hfound
  · cases hfound
    exact hheld
  · exact h.held other found hfound

/-- A queue from which messages leave. -/
theorem Orderly.setQueue_of_yields (h : r.Orderly good) {id : BindingId} {q q' : Queue}
    {out : List Message} (hq : r.queues.get? id = some q) (hq' : q.Yields out [] q') :
    Orderly good { r with queues := r.queues.insert id q' } ∧ ∀ m ∈ out, good m := by
  refine ⟨h.setQueue hq hq'.info_eq hq'.keyed fun m hm => ?_, fun m hm => ?_⟩
  · exact h.held id q hq m ((hq'.mem_of_mem hm).resolve_left List.not_mem_nil)
  · exact h.held id q hq m ((hq'.mem_of_mem_out hm).resolve_left List.not_mem_nil)

theorem Orderly.deliver (h : r.Orderly good) {d : Delivery} (hd : good d.message) :
    (r.deliver d).2.Orderly good := by
  rw [Router.deliver]
  split
  · next q hq =>
      obtain ⟨-, out, hyields, -⟩ := (h.keyed _ q hq).add d.message
      refine h.setQueue hq hyields.info_eq hyields.keyed fun m hm => ?_
      rcases hyields.mem_of_mem hm with hm | hm
      · exact List.mem_singleton.mp hm ▸ hd
      · exact h.held _ q hq m hm
  · exact h

theorem Orderly.deliverAll (h : r.Orderly good) {deliveries : List Delivery}
    (hd : ∀ d ∈ deliveries, good d.message) : (r.deliverAll deliveries).2.Orderly good := by
  induction deliveries generalizing r with
  | nil => exact h
  | cons d deliveries ih =>
      exact ih (h.deliver (hd d (.head _))) fun d hd' => hd d (.tail _ hd')

theorem Orderly.commit (h : r.Orderly good) {plan : RoutePlan}
    (hd : ∀ d ∈ plan.deliveries, good d.message) : (r.commit plan).2.Orderly good := by
  obtain ⟨counters, hcommit⟩ := Broker.commit_router r plan
  rw [hcommit]
  exact (h.deliverAll hd).of_queues_eq rfl rfl

end Router

/-! ### The store -/

namespace BrokerM

open Broker

section Keeps

variable {σ α β : Type} {P : Broker σ → Prop}

theorem Keeps.pure (a : α) : (Pure.pure a : BrokerM σ α).Keeps P := fun _ h => h

theorem Keeps.forM_mem {act : α → BrokerM σ PUnit} {items : List α}
    (h : ∀ a ∈ items, (act a).Keeps P) : (items.forM act).Keeps P := by
  induction items with
  | nil => exact .pure _
  | cons a items ih => exact (h a (.head _)).bind fun _ => ih fun a ha => h a (.tail _ ha)

theorem Keeps.mapM_mem {act : α → BrokerM σ β} {items : List α}
    (h : ∀ a ∈ items, (act a).Keeps P) : (items.mapM act).Keeps P := by
  induction items with
  | nil => exact .pure _
  | cons a items ih =>
      rw [List.mapM_cons]
      exact (h a (.head _)).bind fun _ => (ih fun a ha => h a (.tail _ ha)).bind fun _ => .pure _

end Keeps

variable {σ α β : Type} [MessageStore σ] {R : Regime σ} {known : MessageId → Prop}

/-- The action touches nothing but the counts and the store, of which is known afterwards what was
known before. -/
def StoreOnly (R : Regime σ) (known : MessageId → Prop) (act : BrokerM σ α) : Prop :=
  ∀ b : Broker σ, ∃ result counts store,
    b.perform act = (result, { b with durableCounts := counts, store }) ∧
    (R.stock known b.store → R.stock known store)

theorem StoreOnly.pure (a : α) : StoreOnly R known (Pure.pure a : BrokerM σ α) :=
  fun b => ⟨_, b.durableCounts, b.store, rfl, id⟩

theorem StoreOnly.throw (e : BrokerError) :
    StoreOnly R known (MonadExcept.throw e : BrokerM σ α) :=
  fun b => ⟨_, b.durableCounts, b.store, rfl, id⟩

theorem StoreOnly.bind {act : BrokerM σ α} {next : α → BrokerM σ β} (h : StoreOnly R known act)
    (hnext : ∀ a, StoreOnly R known (next a)) : StoreOnly R known (act >>= next) := by
  intro b
  obtain ⟨result, counts, store, hperform, hstock⟩ := h b
  rw [perform_bind, hperform]
  cases result with
  | error e => exact ⟨_, counts, store, rfl, hstock⟩
  | ok a =>
      obtain ⟨result', counts', store', hperform', hstock'⟩ :=
        hnext a { b with durableCounts := counts, store }
      exact ⟨result', counts', store', hperform', hstock' ∘ hstock⟩

theorem StoreOnly.discard {act : BrokerM σ α} (h : StoreOnly R known act) :
    StoreOnly R known (Functor.discard act : BrokerM σ PUnit) := by
  intro b
  obtain ⟨result, counts, store, hperform, hstock⟩ := h b
  exact ⟨_, counts, store, by rw [perform_discard, hperform], hstock⟩

theorem StoreOnly.forM {act : α → BrokerM σ PUnit} (h : ∀ a, StoreOnly R known (act a))
    (items : List α) : StoreOnly R known (items.forM act) := by
  induction items with
  | nil => exact .pure _
  | cons a items ih => exact (h a).bind fun _ => ih

end BrokerM

namespace Broker

open BrokerM

variable {σ : Type} [MessageStore σ] {R : Regime σ} {known : MessageId → Prop}

theorem tryRemove_storeOnly (id : MessageId) :
    StoreOnly R known (tryStore (MessageStore.remove · id) : BrokerM σ (Except String Unit)) :=
  fun b => ⟨_, b.durableCounts, _, perform_tryStore .., fun h => R.stock_remove h id⟩

theorem callRemove_storeOnly (id : MessageId) :
    StoreOnly R known (callStore (MessageStore.remove · id) : BrokerM σ Unit) := by
  refine (tryRemove_storeOnly id).bind fun result => ?_
  cases result with
  | ok a => exact .pure a
  | error reason => exact .throw _

theorem persist_storeOnly {messages : List Message}
    (h : ∀ m ∈ messages, R.good m ∧ known m.id) (written : List MessageId) :
    StoreOnly R known (persist written messages : BrokerM σ Unit) := by
  induction messages generalizing written with
  | nil => exact .pure _
  | cons m messages ih =>
      rw [persist]
      obtain ⟨hgood, hknown⟩ := h m (.head _)
      have happend : StoreOnly R known
          (tryStore (MessageStore.append · m) : BrokerM σ (Except String Unit)) := fun b =>
        ⟨_, b.durableCounts, _, perform_tryStore .., fun h => R.stock_append h hgood hknown⟩
      refine happend.bind fun result => ?_
      cases result with
      | ok a => exact ih (fun m hm => h m (.tail _ hm)) _
      | error reason =>
          exact (StoreOnly.forM (fun id => (tryRemove_storeOnly id).discard) written).bind
            fun _ => .throw _

theorem releaseId_storeOnly (id : MessageId) :
    StoreOnly R known (releaseId id : BrokerM σ Unit) := by
  intro b
  rw [releaseId, perform_bind_ok _ (perform_get b)]
  split
  · exact ⟨_, b.durableCounts, b.store, rfl, fun h => h⟩
  · split
    · exact ⟨_, _, b.store, rfl, fun h => h⟩
    · rw [perform_bind_ok _ (perform_set ..)]
      exact callRemove_storeOnly id { b with durableCounts := b.durableCounts.erase id }

theorem release_storeOnly (q : QueueInfo) (m : Message) :
    StoreOnly R known (release q m : BrokerM σ Unit) := by
  rw [release]
  split
  · exact releaseId_storeOnly m.id
  · exact .pure _

/-- Letting go of a message touches nothing but the counts and the store. -/
theorem exists_perform_release (b : Broker σ) (q : QueueInfo) (m : Message) :
    ∃ result counts store,
      b.perform (release q m) = (result, { b with durableCounts := counts, store }) := by
  have hrelease : StoreOnly Regime.trivial (fun _ => True) (release q m : BrokerM σ Unit) :=
    release_storeOnly q m
  obtain ⟨result, counts, store, hperform, -⟩ := hrelease b
  exact ⟨result, counts, store, hperform⟩

/-! ### Plans -/

omit [MessageStore σ] in
/-- The messages that are stored for a plan are delivered by it. -/
theorem exists_delivery_of_mem_toPersist {b : Broker σ} {plan : RoutePlan} {m : Message}
    (h : m ∈ b.toPersist plan) : ∃ d ∈ plan.deliveries, d.message = m := by
  obtain ⟨-, hmem, -⟩ := Message.spec_of_perm_distinct (b.toPersist_perm plan)
  obtain ⟨d, hd, hm⟩ := List.mem_map.mp (hmem m h)
  exact ⟨d, (List.mem_filter.mp hd).1, hm⟩

theorem persistPlan_storeOnly {plan : RoutePlan}
    (h : plan.replay = false → ∀ d ∈ plan.deliveries, R.good d.message ∧ known d.message.id) :
    StoreOnly R known (persistPlan plan : BrokerM σ Unit) := by
  intro b
  cases hreplay : plan.replay with
  | true =>
      rw [persistPlan_of_replay hreplay]
      exact StoreOnly.pure () b
  | false =>
      rw [perform_persistPlan_of_new b hreplay]
      refine persist_storeOnly (fun m hm => ?_) [] b
      obtain ⟨d, hd, rfl⟩ := exists_delivery_of_mem_toPersist hm
      exact h hreplay d hd

/-- A plan whose messages were stored is carried out, whatever happens to the store afterwards. -/
theorem perform_commit_of_stored {b b' : Broker σ} {plan : RoutePlan}
    (hstored : b.perform (persistPlan plan) = (.ok (), b')) :
    ∃ result counts store,
      b.perform (commit plan) =
        (result, { b' with router := (b'.router.commit plan).2, durableCounts := counts, store }) ∧
      (R.stock known b'.store → R.stock known store) ∧
      ∀ references, result = .ok references → references = (b'.router.commit plan).1 := by
  have hreleases : StoreOnly R known
      (((b'.router.commit plan).1.flatMap RoutedReference.releasedIds).forM releaseId :
        BrokerM σ PUnit) := StoreOnly.forM releaseId_storeOnly _
  obtain ⟨released, counts, store, hperform, hstock⟩ := hreleases
    { b' with
      router := (b'.router.commit plan).2
      durableCounts := plan.kept.foldl addReference b'.durableCounts }
  rw [commit_eq, perform_bind_ok _ hstored, perform_bind_ok _ (perform_get _),
    perform_bind_ok _ (perform_set ..), perform_bind, hperform]
  cases released with
  | error e => exact ⟨.error e, counts, store, rfl, hstock, fun _ h => nomatch h⟩
  | ok _ =>
      refine ⟨.ok _, counts, store, rfl, hstock, fun references h => ?_⟩
      cases h
      rfl

/-- **A plan is refused by the store, or it is carried out**, whatever happens to the store
afterwards. -/
theorem commit_refused_or_committed (b : Broker σ) {plan : RoutePlan}
    (h : plan.replay = false → ∀ d ∈ plan.deliveries, R.good d.message ∧ known d.message.id) :
    ∃ result router counts store,
      b.perform (commit plan) = (result, { b with router, durableCounts := counts, store }) ∧
      (R.stock known b.store → R.stock known store) ∧
      ((router = b.router ∧ ∃ e, result = .error e) ∨ router = (b.router.commit plan).2) := by
  obtain ⟨stored, counts, store, hstored, hstock⟩ := persistPlan_storeOnly h b
  cases stored with
  | error e =>
      rw [commit_eq, perform_bind, hstored]
      exact ⟨_, b.router, counts, store, rfl, hstock, .inl ⟨rfl, e, rfl⟩⟩
  | ok _ =>
      obtain ⟨result, counts', store', hperform, hstock', -⟩ := perform_commit_of_stored hstored
      exact ⟨result, _, counts', store', hperform, hstock' ∘ hstock, .inr rfl⟩

/-- **A message is refused by the store, or its plan is carried out.** -/
theorem publish_refused_or_committed (b : Broker σ) {m : Message}
    (h : ∀ d ∈ (b.router.plan b.ids m m.address).1.deliveries,
      R.good d.message ∧ known d.message.id) :
    ∃ result router counts store,
      b.perform (publish m) =
        (result, { b.planned m with router, durableCounts := counts, store }) ∧
      (R.stock known b.store → R.stock known store) ∧
      ((router = b.router ∧ ∃ e, result = .error e) ∨
        router = (b.router.commit (b.router.plan b.ids m m.address).1).2) := by
  rw [perform_publish]
  exact commit_refused_or_committed (b.planned m) fun _ => h

/-! ### The invariant -/

/-- What is known in the life of a broker. -/
structure Custody (R : Regime σ) (published : List Message) (b : Broker σ) : Prop where
  wired : b.Wired
  router : b.router.Orderly R.good
  stock : R.stock (b.Knows published) b.store

variable {published : List Message} {b b' : Broker σ}

/-- A broker whose queues and bindings are those of before. -/
theorem Custody.of_extends (h : b.Custody R published) (hextends : b.Extends b')
    (hqueues : b'.router.queues = b.router.queues)
    (hstock : R.stock (b.Knows published) b.store → R.stock (b.Knows published) b'.store) :
    b'.Custody R published where
  wired := h.wired.of_extends hextends
  router := h.router.of_queues_eq hextends.registry_eq hqueues
  stock := R.stock_mono (fun _ => Knows.mono hextends.supply_eq hextends.used_le) (hstock h.stock)

theorem Custody.of_published (h : b.Custody R published) (m : Message) :
    b.Custody R (m :: published) where
  wired := h.wired
  router := h.router
  stock := R.stock_mono (fun _ hid => hid.imp_left (List.mem_cons_of_mem _)) h.stock

theorem Custody.setQueue (h : b.Custody R published) {id : BindingId} {q : Queue}
    (hrouter : Router.Orderly R.good { b.router with queues := b.router.queues.insert id q }) :
    Custody R published
      { b with router := { b.router with queues := b.router.queues.insert id q } } :=
  ⟨h.wired.of_extends (.setRouter rfl rfl), hrouter, h.stock⟩

theorem Custody.storeOnly {α : Type} (h : b.Custody R published) {act : BrokerM σ α}
    (hact : StoreOnly R (b.Knows published) act) : (b.perform act).2.Custody R published := by
  obtain ⟨result, counts, store, hperform, hstock⟩ := hact b
  rw [hperform]
  exact h.of_extends ⟨rfl, rfl, rfl, rfl, rfl, Nat.le_refl _⟩ rfl hstock

theorem storeOnly_keeps {α : Type} {act : BrokerM σ α}
    (hact : ∀ known, StoreOnly R known act) : act.Keeps (Custody R published) :=
  fun _ h => h.storeOnly (hact _)

theorem release_keeps (q : QueueInfo) (m : Message) :
    (release q m : BrokerM σ Unit).Keeps (Custody R published) :=
  storeOnly_keeps fun _ => release_storeOnly q m

theorem count_keeps (change : BrokerCounters → BrokerCounters) :
    (count change : BrokerM σ Unit).Keeps (Custody R published) :=
  fun _ h => h.of_extends (count_steady change _) rfl fun hstock => hstock

/-- What is delivered for a message that is known. -/
theorem Custody.deliveries (h : b.Custody R published) {m : Message} (hm : R.good m)
    {d : Delivery} (hd : d ∈ (b.router.plan b.ids m m.address).1.deliveries) :
    R.good d.message ∧
      d.message.id ∈ m.id :: b.ids.handedOut (b.router.plan b.ids m m.address).2.used := by
  have hsound := h.router.bound.registry
  obtain ⟨-, -, -, -, hid, -⟩ := hsound.exists_reaches_of_mem_plan hd
  exact ⟨hsound.of_mem_plan hd (fun _ id target hgood => R.good_forwarded hgood id target) hm, hid⟩

/-- A message that is known is published. -/
theorem Custody.publish (h : b.Custody R published) {m : Message} (hm : R.good m)
    (hid : b.Knows published m.id) : (b.perform (publish m)).2.Custody R published := by
  have hsteady := publish_steady m b
  obtain ⟨-, -, -, hsupply, hused, -⟩ :=
    b.router.registry.plan_explains b.router.maxDivertHops b.ids m
  let known : MessageId → Prop := fun id =>
    b.Knows published id ∨ id ∈ b.ids.handedOut (b.router.plan b.ids m m.address).2.used
  have hdeliveries : ∀ d ∈ (b.router.plan b.ids m m.address).1.deliveries,
      R.good d.message ∧ known d.message.id := by
    intro d hd
    obtain ⟨hgood, hmem⟩ := h.deliveries hm hd
    refine ⟨hgood, ?_⟩
    rcases List.mem_cons.mp hmem with heq | hmem
    · exact .inl (heq ▸ hid)
    · exact .inr hmem
  obtain ⟨result, router, counts, store, hperform, hstock, hrouter⟩ :=
    publish_refused_or_committed (R := R) b hdeliveries
  rw [hperform] at hsteady ⊢
  refine ⟨h.wired.of_extends hsteady, ?_, ?_⟩
  · rcases hrouter with ⟨rfl, -⟩ | rfl
    · exact h.router
    · exact h.router.commit fun d hd => (hdeliveries d hd).1
  · have hknown : R.stock known b.store := R.stock_mono (fun _ => .inl) h.stock
    refine R.stock_mono (fun id hid => ?_) (hstock hknown)
    rcases hid with hid | hid
    · exact hid.mono hsupply hused
    · exact knows_of_mem_handedOut hsupply (Nat.le_refl _) hid

/-- A copy is published, and the message is let go of. -/
theorem forward_keeps (q : QueueInfo) (m : Message) {copy : MessageId → Message}
    (hid : ∀ id, (copy id).id = id) (hgood : ∀ id, R.good (copy id)) :
    (newId >>= fun id => discard (publish (copy id)) >>= fun _ => release q m :
      BrokerM σ Unit).Keeps (Custody R published) := by
  have hcopy : (newId >>= fun id => discard (publish (copy id)) : BrokerM σ PUnit).Keeps
      (Custody R published) := by
    intro b h
    rw [perform_bind_ok _ (perform_newId b), perform_discard]
    refine (h.of_extends (newId_steady b) rfl fun hstock => hstock).publish (hgood _) ?_
    rw [hid]
    exact .inr ⟨b.ids.used, Nat.lt_succ_self _, rfl⟩
  have hrelease : (release q m : BrokerM σ Unit).Keeps (Custody R published) := release_keeps q m
  have hboth := hcopy.bind fun _ => hrelease
  rwa [bind_assoc] at hboth

/-! ### Requests -/

/-- A request to a queue keeps what every continuation keeps that has a queue of the broker. -/
theorem requireQueue_keeps {α : Type} {name : String} {next : BindingId × Queue → BrokerM σ α}
    (hnext : ∀ b : Broker σ, b.Custody R published → ∀ id q, b.router.queues.get? id = some q →
      (b.perform (next (id, q))).2.Custody R published) :
    (requireQueue name >>= next).Keeps (Custody R published) := by
  intro b h
  rcases perform_requireQueue_bind b name next with hperform | ⟨id, q, -, hq, hperform⟩
  · rw [hperform]
    exact h
  · rw [hperform]
    exact hnext b h id q hq

theorem receive_keeps (name : String) (now : Timestamp) :
    (receive name now : BrokerM σ (Option Reference)).Keeps (Custody R published) := by
  refine requireQueue_keeps fun b h id q hq => ?_
  obtain ⟨hkeyed, hinfo, hheld⟩ := (h.router.keyed id q hq).poll now
  exact h.setQueue (h.router.setQueue hq hinfo hkeyed fun m hm =>
    h.router.held id q hq m (hheld m hm))

theorem acknowledge_keeps (name : String) (message : MessageId) :
    (acknowledge name message : BrokerM σ Unit).Keeps (Custody R published) := by
  refine requireQueue_keeps fun b h id q hq => ?_
  dsimp only
  split
  · exact h
  · next r q' hacknowledge =>
      have hyields := (h.router.keyed id q hq).acknowledge hacknowledge
      have hset := h.setQueue (h.router.setQueue_of_yields hq hyields).1
      rw [perform_bind_ok _ (perform_setQueue ..)]
      exact ((count_keeps _).bind fun _ => release_keeps _ _) _ hset

theorem cancelDelivery_keeps (name : String) (message : MessageId) :
    (cancelDelivery name message : BrokerM σ CancelOutcome).Keeps (Custody R published) := by
  refine requireQueue_keeps fun b h id q hq => ?_
  dsimp only
  split
  · exact h
  · next outcome q' hcancel =>
      have hyields := (h.router.keyed id q hq).cancel hcancel
      obtain ⟨hset, hgood⟩ := h.router.setQueue_of_yields hq hyields
      rw [perform_bind_ok _ (perform_setQueue ..)]
      cases outcome with
      | redelivered n => exact h.setQueue hset
      | deadLetter r target =>
          refine ((count_keeps _).bind fun _ => ?_) _ (h.setQueue hset)
          cases target with
          | none => exact (release_keeps _ _).bind fun _ => .pure _
          | some target =>
              have hforward : (newId >>= fun id => discard (publish
                  (r.message.forwardedFrom q'.toQueueInfo id target)) >>= fun _ =>
                    release q'.toQueueInfo r.message : BrokerM σ Unit).Keeps
                      (Custody R published) :=
                forward_keeps _ _ (fun _ => rfl) fun id =>
                  R.good_forwardedFrom (hgood _ (.head _)) _ id target
              have hboth := hforward.bind fun _ => .pure (CancelOutcome.deadLetter r (some target))
              simp only [bind_assoc] at hboth
              exact hboth

theorem dismiss_keeps (q : QueueInfo) (now : Timestamp) {r : Reference}
    (hr : R.good r.message) :
    (dismiss q now r : BrokerM σ Unit).Keeps (Custody R published) := by
  rw [dismiss]
  split
  · next target _ =>
      exact forward_keeps q r.message (fun _ => rfl) fun id =>
        R.good_expiredFrom hr q now id target
  · exact release_keeps q r.message

theorem expireQueue_keeps (now : Timestamp) (id : BindingId) :
    (expireQueue now id : BrokerM σ Nat).Keeps (Custody R published) := by
  intro b h
  rw [expireQueue, perform_bind_ok _ (perform_get b)]
  cases hq : b.router.queues.get? id with
  | none => exact h
  | some q =>
      obtain ⟨hset, hgood⟩ :=
        h.router.setQueue_of_yields hq ((h.router.keyed id q hq).expire now)
      dsimp only
      rw [perform_bind_ok _ (perform_setQueue ..)]
      refine Keeps.bind (.forM_mem fun r hr => ?_) (fun _ => .pure _) _ (h.setQueue hset)
      exact dismiss_keeps _ now (hgood _ (List.mem_map_of_mem hr))

theorem expireMessages_keeps (now : Timestamp) :
    (expireMessages now : BrokerM σ Nat).Keeps (Custody R published) := by
  intro b h
  rw [expireMessages, perform_bind_ok _ (perform_get b)]
  refine Keeps.bind (.mapM_mem fun id _ => expireQueue_keeps now id) (fun numbers => ?_) b h
  exact (count_keeps _).bind fun _ => .pure _

/-! ### Deployment -/

theorem createQueue_keeps (c : QueueConfig) :
    (createQueue c : BrokerM σ QueueInfo).Keeps (Custody R published) := by
  intro b h
  have hwired := h.wired.createQueue h.router.bound c
  rcases perform_createQueue b c with
    ⟨e, hperform⟩ | ⟨info, filter, bd, router, -, -, hbind, hperform⟩
  · rw [hperform]
    exact h
  · obtain ⟨hbound, -, -, -, hqueues, -⟩ := h.router.bound.bindQueue? hbind
    rw [hperform] at hwired ⊢
    refine ⟨hwired, ⟨hbound, fun id q hq => ?_, fun id q hq => ?_⟩, h.stock⟩
    all_goals
      rw [hqueues, Dictionary.get?_insert] at hq
      split at hq
    · cases hq
      exact Queue.keyed_new info
    · exact h.router.keyed id q hq
    · cases hq
      exact fun m hm => absurd hm List.not_mem_nil
    · exact h.router.held id q hq

theorem createDivert_keeps (c : DivertConfig) :
    (createDivert c : BrokerM σ Divert).Keeps (Custody R published) := by
  intro b h
  have hwired := h.wired.createDivert h.router.bound c
  rcases perform_createDivert b c with
    ⟨e, hperform⟩ | ⟨divert, filter, bd, router, -, hbind, hperform⟩
  · rw [hperform]
    exact h
  · obtain ⟨hbound, -, -, -, hqueues⟩ := h.router.bound.bindDivert? hbind
    rw [hperform] at hwired ⊢
    exact ⟨hwired, ⟨hbound, hqueues ▸ h.router.keyed, hqueues ▸ h.router.held⟩, h.stock⟩

theorem destroyDivert_keeps (name : String) :
    (destroyDivert name : BrokerM σ Unit).Keeps (Custody R published) := by
  intro b h
  have hwired := h.wired.destroyDivert h.router.bound name
  rcases perform_destroyDivert b name with ⟨e, hperform⟩ | ⟨hname, hperform⟩
  · rw [hperform]
    exact h
  · obtain ⟨bd, hbd, divert, hkind⟩ := h.wired.binding_of_diverts hname
    obtain ⟨-, hqueues, -⟩ := h.router.bound.unbind hbd
    rw [hperform] at hwired ⊢
    exact ⟨hwired, ⟨h.router.bound.unbindDivert hbd hkind, hqueues ▸ h.router.keyed,
      hqueues ▸ h.router.held⟩, h.stock⟩

theorem deleteQueue_keeps (name : String) :
    (deleteQueue name : BrokerM σ Unit).Keeps (Custody R published) := by
  intro b h
  rcases perform_deleteQueue b name with hperform | ⟨id, q, hfound, hperform⟩
  · rw [hperform]
    exact h
  · obtain ⟨hid, hq⟩ := queue?_eq_some_iff.mp hfound
    obtain ⟨hwired, hbound⟩ := h.wired.withdrawn h.router.bound hid
    obtain ⟨bd, hbd, -⟩ := h.wired.binding_of_queueIds hid
    obtain ⟨-, hqueues, -⟩ := h.router.bound.unbind hbd
    have hget : ∀ other found, (b.withdrawn name id).router.queues.get? other = some found →
        b.router.queues.get? other = some found := by
      intro other found hfound
      rw [Broker.withdrawn, hqueues, Dictionary.get?_erase] at hfound
      split at hfound
      · cases hfound
      · exact hfound
    have hwithdrawn : (b.withdrawn name id).Custody R published :=
      ⟨hwired, ⟨hbound, fun other found hfound => h.router.keyed other found (hget _ _ hfound),
        fun other found hfound => h.router.held other found (hget _ _ hfound)⟩, h.stock⟩
    rw [hperform]
    exact hwithdrawn.storeOnly fun b =>
      StoreOnly.forM (fun r : Reference => release_storeOnly q.toQueueInfo r.message) _ b

theorem addSettings_keeps (entry : SettingsEntry) :
    (addSettings entry : BrokerM σ Unit).Keeps (Custody R published) := by
  intro b h
  rw [addSettings, perform_bind_ok _ (perform_get b)]
  split
  · exact ⟨h.wired.of_extends ⟨rfl, rfl, rfl, rfl, rfl, Nat.le_refl _⟩, h.router, h.stock⟩
  · exact h

/-! ### Recovery -/

/-- Messages that were stored before are put into queues. -/
theorem commit_replay_keeps {plan : RoutePlan} (hreplay : plan.replay = true)
    (hd : ∀ d ∈ plan.deliveries, R.good d.message) :
    (commit plan : BrokerM σ (List RoutedReference)).Keeps (Custody R published) := by
  intro b h
  have hsteady := commit_steady plan b
  have hnew : plan.replay = false → ∀ d ∈ plan.deliveries,
      R.good d.message ∧ b.Knows published d.message.id := by
    intro hfalse
    rw [hreplay] at hfalse
    cases hfalse
  obtain ⟨result, router, counts, store, hperform, hstock, hrouter⟩ :=
    commit_refused_or_committed b hnew
  rw [hperform] at hsteady ⊢
  refine ⟨h.wired.of_extends hsteady, ?_, hstock h.stock⟩
  rcases hrouter with ⟨rfl, -⟩ | rfl
  · exact h.router
  · exact h.router.commit hd

theorem recoverMessage_keeps {m : Message} (hm : R.good m) :
    (recoverMessage m : BrokerM σ Bool).Keeps (Custody R published) := by
  intro b h
  rw [recoverMessage, perform_bind_ok _ (perform_get b)]
  dsimp only
  split
  · exact (storeOnly_keeps fun _ => callRemove_storeOnly m.id).bind (fun _ => .pure _) b h
  · refine (commit_replay_keeps rfl fun d hd => ?_).discard.bind (fun _ => .pure _) b h
    rw [(Registry.mem_planReplay.mp hd).1]
    exact hm

theorem recover_keeps : (recover : BrokerM σ Nat).Keeps (Custody R published) := by
  intro b h
  rw [recover, perform_bind_ok _ (perform_get b)]
  cases hload : MessageStore.load b.store with
  | error reason => exact h
  | ok messages =>
      refine Keeps.bind (.mapM_mem fun m hm => ?_) (fun _ => .pure _) b h
      exact recoverMessage_keeps (R.good_of_load h.stock hload m hm)

/-! ### The whole life -/

/-- **A request keeps the invariant**, if what it publishes is known. -/
theorem Custody.act (h : b.Custody R published) (r : BrokerRequest)
    (hr : ∀ m ∈ r.published, R.good m) :
    (b.perform r.act).2.Custody R (r.published ++ published) := by
  cases r with
  | createQueue c => exact (createQueue_keeps c).discard b h
  | deleteQueue name => exact deleteQueue_keeps name b h
  | createDivert c => exact (createDivert_keeps c).discard b h
  | destroyDivert name => exact destroyDivert_keeps name b h
  | publish m =>
      rw [BrokerRequest.act, perform_discard]
      exact (h.of_published m).publish (hr m (.head _)) (.inl (.head _))
  | receive name now => exact (receive_keeps name now).discard b h
  | acknowledge name message => exact acknowledge_keeps name message b h
  | cancelDelivery name message => exact (cancelDelivery_keeps name message).discard b h
  | expireMessages now => exact (expireMessages_keeps now).discard b h

theorem Custody.serve (h : b.Custody R published) {requests : List BrokerRequest}
    (hr : ∀ m ∈ requests.flatMap BrokerRequest.published, R.good m) :
    ∃ published', (b.serve requests).2.Custody R published' := by
  induction requests generalizing b published with
  | nil => exact ⟨published, h⟩
  | cons r rest ih =>
      rw [List.flatMap_cons] at hr
      exact ih (h.act r fun m hm => hr m (List.mem_append_left _ hm))
        fun m hm => hr m (List.mem_append_right _ hm)

theorem custody_of_deploy {levels : String → Bool} {walks : WalkOrders} {c : Config} {store : σ}
    {ids : IdSupply} (hb : deploy levels walks c store ids = .ok b)
    (hstock : R.stock (b.Knows published) store) : b.Custody R published := by
  have hfresh := fresh_of_deploy hb
  refine ⟨hfresh.wired, ⟨hfresh.router.bound, fun id q hq => ?_, fun id q hq m hm => ?_⟩, ?_⟩
  · rw [hfresh.queues_new id q hq]
    exact Queue.keyed_new _
  · rw [hfresh.heldMessages_eq hq] at hm
    cases hm
  · rw [hfresh.store_eq]
    exact hstock

/-- The states that a broker comes to, with the messages that were published. It starts over a
store that may be the first one; between its actions the store may be altered; and it may be
deployed again over the store that it left behind, with the supply that is left, and walk over its
maps in other orders then. -/
inductive Reachable (first : σ → Prop) (alters : σ → σ → Prop) : List Message → Broker σ → Prop
  | deployed {levels : String → Bool} {walks : WalkOrders} {c : Config} {store : σ}
      {ids : IdSupply} {b : Broker σ} (start : first store)
      (deployed : deploy levels walks c store ids = .ok b) : Reachable first alters [] b
  | served {published : List Message} {b : Broker σ} (r : BrokerRequest)
      (reached : Reachable first alters published b) :
      Reachable first alters (r.published ++ published) (b.perform r.act).2
  | recovered {published : List Message} {b : Broker σ}
      (reached : Reachable first alters published b) :
      Reachable first alters published (b.perform recover).2
  | furnished {published : List Message} {b : Broker σ} (entry : SettingsEntry)
      (reached : Reachable first alters published b) :
      Reachable first alters published (b.perform (addSettings entry)).2
  | altered {published : List Message} {b : Broker σ} {store : σ}
      (reached : Reachable first alters published b) (change : alters b.store store) :
      Reachable first alters published { b with store }
  | restarted {levels : String → Bool} {walks : WalkOrders} {published : List Message}
      {b b' : Broker σ} {c : Config} (reached : Reachable first alters published b)
      (deployed : deploy levels walks c b.store b.ids = .ok b') :
      Reachable first alters published b'

variable {first : σ → Prop} {alters : σ → σ → Prop}

theorem Reachable.serve (h : Reachable first alters published b) (requests : List BrokerRequest) :
    ∃ published', Reachable first alters published' (b.serve requests).2 := by
  induction requests generalizing published b with
  | nil => exact ⟨published, h⟩
  | cons r rest ih => exact ih (h.served r)

/-- **The invariant holds in every state that a broker comes to**, if what was published is
known. -/
theorem Reachable.custody (h : Reachable first alters published b)
    (hfirst : ∀ known s, first s → R.stock known s)
    (halters : ∀ known s s', alters s s' → R.stock known s → R.stock known s')
    (hpublished : ∀ m ∈ published, R.good m) : b.Custody R published := by
  induction h with
  | deployed start deployed => exact custody_of_deploy deployed (hfirst _ _ start)
  | served r _ ih =>
      refine (ih fun m hm => hpublished m (List.mem_append_right _ hm)).act r fun m hm => ?_
      exact hpublished m (List.mem_append_left _ hm)
  | recovered _ ih => exact recover_keeps _ (ih hpublished)
  | furnished entry _ ih => exact addSettings_keeps entry _ (ih hpublished)
  | altered _ change ih =>
      have h := ih hpublished
      exact ⟨h.wired.of_extends ⟨rfl, rfl, rfl, rfl, rfl, Nat.le_refl _⟩, h.router,
        halters _ _ _ change h.stock⟩
  | restarted _ deployed ih =>
      refine custody_of_deploy deployed (R.stock_mono (fun id hid => ?_) (ih hpublished).stock)
      rw [Knows, (fresh_of_deploy deployed).ids_eq]
      exact hid

end Broker

/-! ### Times -/

/-- The times of messages are whole milliseconds. Nothing is asked of the log, since it loads no
other messages. -/
def Regime.wholeTimes : Regime MessageLog where
  good := Message.TimesWhole
  stock _ _ := True
  good_forwarded h _ _ := ⟨h.timestamp, h.expiration⟩
  good_withHeader h _ _ := ⟨h.timestamp, h.expiration⟩
  good_lasting h := ⟨h.timestamp, fun _ ht => nomatch ht⟩
  stock_mono _ _ := True.intro
  stock_append _ _ _ := True.intro
  stock_remove _ _ := True.intro
  good_of_load {_ s _} _ hload m hm := by
    change s.load.mapError WireError.message = _ at hload
    cases hs : s.load with
    | error e =>
        rw [hs] at hload
        cases hload
    | ok loaded =>
        rw [hs] at hload
        cases hload
        exact (MessageLog.rewritable_of_load hs m hm).timesWhole

namespace Broker

/-- Copies keep the times of a message, or have none: what the queues hold has its times in whole
milliseconds if what was published had. -/
theorem held_timesWhole {levels : String → Bool} {walks : WalkOrders} {c : Config}
    {store : MessageLog} {ids : IdSupply} {b : Broker MessageLog}
    (hb : deploy levels walks c store ids = .ok b) {requests : List BrokerRequest}
    (hwhole : ∀ m ∈ requests.flatMap BrokerRequest.published, m.TimesWhole) {id : BindingId}
    {q : Queue} (hq : (b.serve requests).2.router.queues.get? id = some q) {m : Message}
    (hm : m ∈ q.heldMessages) : m.TimesWhole := by
  have hstart : b.Custody Regime.wholeTimes [] := custody_of_deploy hb True.intro
  obtain ⟨published, hcustody⟩ := hstart.serve hwhole
  exact hcustody.router.held id q hq m hm

end Broker

end Courier
