import Courier.Proofs.Broker.Deployment

/-!
# Deploying a Configuration

A broker that was just deployed has empty queues, and among its bindings are all queues of the
configuration. The bindings depend on the configuration only: brokers of one configuration have
the same bindings, whatever their stores hold.

## Main definitions

* `BrokerM.Keeps`: an action that keeps a property of states.
* `BrokerM.Stockless`: an action that depends neither on the store nor on the supply, nor on the
  orders of walks.
* `Broker.Fresh`: a broker whose queues have not been used.

## Main results

* `Broker.of_deploy`, `Broker.fresh_of_deploy`: what is true of a deployed broker; it is fresh.
* `Broker.names_of_deploy`: the queues of the configuration are deployed.
* `Broker.Fresh.books`: the books of such a broker are right.
* `Broker.deploy_restocked`: a configuration is deployed in the same way over every store.
-/

namespace Courier

/-! ### Deploying one thing after another -/

namespace BrokerM

open Broker

variable {σ α β : Type}

/-- The action keeps a property of states, whatever its result. -/
def Keeps (P : Broker σ → Prop) (act : BrokerM σ α) : Prop :=
  ∀ b : Broker σ, P b → P (b.perform act).2

theorem Keeps.bind {P : Broker σ → Prop} {act : BrokerM σ α} {next : α → BrokerM σ β}
    (h : act.Keeps P) (hnext : ∀ a, (next a).Keeps P) : (act >>= next).Keeps P := by
  intro b hb
  have hact := h b hb
  rw [perform_bind]
  generalize b.perform act = result at hact ⊢
  obtain ⟨e | a, b'⟩ := result
  · exact hact
  · exact hnext a b' hact

theorem Keeps.discard {P : Broker σ → Prop} {act : BrokerM σ α} (h : act.Keeps P) :
    (Functor.discard act : BrokerM σ PUnit).Keeps P := by
  intro b hb
  rw [perform_discard]
  exact h b hb

theorem Keeps.forM {P : Broker σ → Prop} {act : α → BrokerM σ PUnit} (h : ∀ a, (act a).Keeps P)
    (items : List α) : (items.forM act).Keeps P := by
  induction items with
  | nil => exact fun _ hb => hb
  | cons a items ih => exact (h a).bind fun _ => ih

/-- What each step brings about and all steps keep holds after all of them. -/
theorem of_perform_forM {P : Broker σ → Prop} {Q : α → Broker σ → Prop}
    {act : α → BrokerM σ PUnit} (hP : ∀ a, (act a).Keeps P)
    (hact : ∀ (a : α) (b b' : Broker σ), P b → b.perform (act a) = (.ok ⟨⟩, b') → Q a b')
    (hQ : ∀ a a', (act a').Keeps fun b => P b ∧ Q a b) {items : List α} {b b' : Broker σ}
    (hb : P b) (h : b.perform (items.forM act) = (.ok ⟨⟩, b')) : ∀ a ∈ items, Q a b' := by
  induction items generalizing b with
  | nil => exact fun a ha => absurd ha List.not_mem_nil
  | cons a items ih =>
      change b.perform (act a >>= fun _ => items.forM act) = _ at h
      obtain ⟨⟨⟩, b₁, hfirst, hothers⟩ := exists_of_perform_bind h
      have hnext := hP a b hb
      rw [hfirst] at hnext
      intro a' ha'
      rcases List.mem_cons.mp ha' with rfl | ha'
      · have hrest := Keeps.forM (hQ a') items b₁ ⟨hnext, hact a' b b₁ hb hfirst⟩
        rw [hothers] at hrest
        exact hrest.2
      · exact ih hnext hothers a' ha'

end BrokerM

namespace Broker

open BrokerM

variable {σ : Type}

/-! ### Fresh brokers -/

/-- A broker whose queues have not been used. -/
structure Fresh (store : σ) (ids : IdSupply) (b : Broker σ) : Prop where
  wired : b.Wired
  router : b.router.Sound
  queues_new : ∀ id q, b.router.queues.get? id = some q → q = { q.toQueueInfo with }
  counts_eq : b.durableCounts = .empty
  store_eq : b.store = store
  ids_eq : b.ids = ids

variable {levels : String → Bool} {walks : WalkOrders} {store : σ} {ids : IdSupply}

theorem fresh_ofConfig (walks : WalkOrders) (c : Config) (store : σ) (ids : IdSupply) :
    (ofConfig walks c store ids).Fresh store ids where
  wired := ⟨fun _ => rfl, fun _ => rfl⟩
  router := Router.sound_empty ..
  queues_new _ _ h := nomatch h
  counts_eq := rfl
  store_eq := rfl
  ids_eq := rfl

theorem createQueue_keeps_fresh (c : QueueConfig) :
    (createQueue c).Keeps (Fresh store ids) := by
  intro b h
  have hwired := h.wired.createQueue h.router.bound c
  rcases perform_createQueue b c with
    ⟨e, hperform⟩ | ⟨info, filter, bd, router, -, -, hbind, hperform⟩
  · rw [hperform]
    exact h
  · obtain ⟨hsound, -, -, -, hqueues, -⟩ := h.router.bindQueue? hbind
    rw [hperform] at hwired ⊢
    refine ⟨hwired, hsound, fun id q hq => ?_, h.counts_eq, h.store_eq, h.ids_eq⟩
    rw [hqueues, Dictionary.get?_insert] at hq
    split at hq
    · cases hq
      rfl
    · exact h.queues_new id q hq

theorem createDivert_keeps_fresh (c : DivertConfig) :
    (createDivert c).Keeps (Fresh store ids) := by
  intro b h
  have hwired := h.wired.createDivert h.router.bound c
  rcases perform_createDivert b c with
    ⟨e, hperform⟩ | ⟨divert, filter, bd, router, -, hbind, hperform⟩
  · rw [hperform]
    exact h
  · obtain ⟨hsound, -, -, -, hqueues⟩ := h.router.bindDivert? hbind
    rw [hperform] at hwired ⊢
    exact ⟨hwired, hsound, hqueues ▸ h.queues_new, h.counts_eq, h.store_eq, h.ids_eq⟩

/-- A broker is deployed from its configuration alone. -/
theorem perform_of_deploy {c : Config} {b : Broker σ}
    (h : deploy levels walks c store ids = .ok b) :
    (ofConfig walks c store ids).perform (deployBindings c) = (.ok (), b) := by
  rw [deploy] at h
  split at h
  · cases h
  · split at h
    · next hperform =>
        cases h
        exact hperform
    · cases h

/-- What deploying queues and diverts keeps, as long as the broker is fresh, is true of a deployed
broker. -/
theorem of_deploy {P : Broker σ → Prop} {c : Config} {b : Broker σ}
    (hstart : P (ofConfig walks c store ids))
    (hqueue : ∀ q b, Fresh store ids b → P b → P (b.perform (createQueue q)).2)
    (hdivert : ∀ d b, Fresh store ids b → P b → P (b.perform (createDivert d)).2)
    (h : deploy levels walks c store ids = .ok b) : P b := by
  have hkeepsQueue : ∀ q, (createQueue q).Keeps fun b => Fresh store ids b ∧ P b :=
    fun q b hb => ⟨createQueue_keeps_fresh q b hb.1, hqueue q b hb.1 hb.2⟩
  have hkeepsDivert : ∀ d, (createDivert d).Keeps fun b => Fresh store ids b ∧ P b :=
    fun d b hb => ⟨createDivert_keeps_fresh d b hb.1, hdivert d b hb.1 hb.2⟩
  have hkeeps : (deployBindings c).Keeps fun b => Fresh store ids b ∧ P b :=
    (Keeps.forM (fun q => (hkeepsQueue q).discard) c.queues).bind fun _ =>
      Keeps.forM (fun d => (hkeepsDivert d).discard) c.diverts
  have hlast := hkeeps _ ⟨fresh_ofConfig walks c store ids, hstart⟩
  rw [perform_of_deploy h] at hlast
  exact hlast.2

/-- A deployed broker is fresh. -/
theorem fresh_of_deploy {c : Config} {b : Broker σ}
    (h : deploy levels walks c store ids = .ok b) :
    b.Fresh store ids :=
  of_deploy (fresh_ofConfig walks c store ids) (fun q b hb _ => createQueue_keeps_fresh q b hb)
    (fun d b hb _ => createDivert_keeps_fresh d b hb) h

/-! ### The queues of a configuration -/

/-- A queue is deployed under a name. -/
def Names (queue : QueueConfig) (b : Broker σ) : Prop :=
  ∃ bd info, b.router.registry.byName.get? queue.name = some bd ∧ bd.kind = .queue info ∧
    info.durable = queue.durable

theorem Names.of_insert {queue : QueueConfig} {b b' : Broker σ} {name : String} {bd : Binding}
    (h : b.Names queue) (hnone : b.router.registry.byName.get? name = none)
    (hbyName : b'.router.registry.byName = b.router.registry.byName.insert name bd) :
    b'.Names queue := by
  obtain ⟨found, info, hfound, hkind⟩ := h
  refine ⟨found, info, ?_, hkind⟩
  rw [hbyName, Dictionary.get?_insert_of_ne, hfound]
  rintro heq
  rw [heq, hnone] at hfound
  cases hfound

theorem createQueue_keeps_names (queue c : QueueConfig) :
    (createQueue c).Keeps fun b => b.Fresh store ids ∧ b.Names queue := by
  rintro b ⟨hfresh, h⟩
  refine ⟨createQueue_keeps_fresh c b hfresh, ?_⟩
  rcases perform_createQueue b c with
    ⟨e, hperform⟩ | ⟨info, filter, bd, router, -, -, hbind, hperform⟩
  · rwa [hperform]
  · obtain ⟨-, hnone, hbyName, -⟩ := hfresh.router.bindQueue? hbind
    rw [hperform]
    exact h.of_insert hnone hbyName

theorem createDivert_keeps_names (queue : QueueConfig) (c : DivertConfig) :
    (createDivert c).Keeps fun b => b.Fresh store ids ∧ b.Names queue := by
  rintro b ⟨hfresh, h⟩
  refine ⟨createDivert_keeps_fresh c b hfresh, ?_⟩
  rcases perform_createDivert b c with
    ⟨e, hperform⟩ | ⟨divert, filter, bd, router, -, hbind, hperform⟩
  · rwa [hperform]
  · obtain ⟨-, hnone, hbyName, -⟩ := hfresh.router.bindDivert? hbind
    rw [hperform]
    exact h.of_insert hnone hbyName

theorem names_of_createQueue {c : QueueConfig} {b b' : Broker σ} (hfresh : b.Fresh store ids)
    (h : b.perform (discard (createQueue c)) = (.ok ⟨⟩, b')) : b'.Names c := by
  rw [perform_discard] at h
  rcases perform_createQueue b c with
    ⟨e, hperform⟩ | ⟨info, filter, bd, router, hname, hdurable, hbind, hperform⟩
  · rw [hperform] at h
    cases h
  · obtain ⟨-, -, hbyName, hkind, -⟩ := hfresh.router.bindQueue? hbind
    rw [hperform] at h
    cases h
    refine ⟨bd, info, ?_, hkind, hdurable⟩
    rw [hbyName, hname, Dictionary.get?_insert_self]

/-- The queues of the configuration are deployed. -/
theorem names_of_deploy {c : Config} {b : Broker σ}
    (h : deploy levels walks c store ids = .ok b) :
    ∀ queue ∈ c.queues, b.Names queue := by
  have hperform := perform_of_deploy h
  have hstart := fresh_ofConfig walks c store ids
  have hfresh : ∀ a : QueueConfig, (discard (createQueue a)).Keeps (Fresh store ids) :=
    fun a => (createQueue_keeps_fresh a).discard
  obtain ⟨⟨⟩, b₁, hfirst, hothers⟩ := exists_of_perform_bind hperform
  have hfresh₁ := Keeps.forM hfresh c.queues _ hstart
  rw [hfirst] at hfresh₁
  have hall := of_perform_forM hfresh (fun _ _ _ => names_of_createQueue)
    (fun queue a => (createQueue_keeps_names queue a).discard) hstart hfirst
  intro queue hqueue
  have hrest := Keeps.forM (fun d => (createDivert_keeps_names queue d).discard) c.diverts b₁
    ⟨hfresh₁, hall queue hqueue⟩
  rw [hothers] at hrest
  exact hrest.2

/-! ### Other stores -/

/-- A broker with another store, another supply and other orders of walks. -/
def restocked (b : Broker σ) (walks : WalkOrders) (store : σ) (ids : IdSupply) : Broker σ :=
  { b with walks, store, ids }

end Broker

namespace BrokerM

open Broker

variable {σ α β : Type}

/-- The action depends neither on the store and the supply nor on the orders of walks, and leaves
all of them alone. -/
def Stockless (act : BrokerM σ α) : Prop :=
  ∀ (b : Broker σ) (walks : WalkOrders) (store : σ) (ids : IdSupply),
    (b.restocked walks store ids).perform act =
      ((b.perform act).1, (b.perform act).2.restocked walks store ids)

theorem Stockless.bind {act : BrokerM σ α} {next : α → BrokerM σ β} (h : act.Stockless)
    (hnext : ∀ a, (next a).Stockless) : (act >>= next).Stockless := by
  intro b walks store ids
  rw [perform_bind, perform_bind, h]
  rcases b.perform act with ⟨e | a, b'⟩
  · rfl
  · exact hnext a b' walks store ids

/-- An action that first asks for the state and uses none of these parts. -/
theorem Stockless.get_bind {next : Broker σ → BrokerM σ β}
    (h : ∀ (b : Broker σ) (walks : WalkOrders) (store : σ) (ids : IdSupply),
      next (b.restocked walks store ids) = next b)
    (hnext : ∀ b, (next b).Stockless) :
    ((get : BrokerM σ (Broker σ)) >>= next).Stockless := by
  intro b walks store ids
  rw [perform_bind_ok _ (perform_get b), perform_bind_ok _ (perform_get _), h]
  exact hnext b b walks store ids

theorem Stockless.discard {act : BrokerM σ α} (h : act.Stockless) :
    (Functor.discard act : BrokerM σ PUnit).Stockless := by
  intro b walks store ids
  rw [perform_discard, perform_discard, h]

theorem Stockless.forM {act : α → BrokerM σ PUnit} (h : ∀ a, (act a).Stockless)
    (items : List α) : (items.forM act).Stockless := by
  induction items with
  | nil => exact fun _ _ _ _ => rfl
  | cons a items ih => exact (h a).bind fun _ => ih

end BrokerM

namespace Broker

open BrokerM

variable {σ : Type}

theorem readAddress_stockless (text : String) :
    (readAddress text : BrokerM σ Address).Stockless := by
  intro b walks store ids
  rw [readAddress]
  cases Address.ofString text <;> rfl

theorem readFilter_stockless (text : Option String) :
    (readFilter text : BrokerM σ (Option Selector)).Stockless := by
  intro b walks store ids
  rw [readFilter]
  cases Selector.parseOptional text <;> rfl

theorem createQueue_stockless (c : QueueConfig) :
    (createQueue c : BrokerM σ QueueInfo).Stockless := by
  refine (readAddress_stockless _).bind fun address => ?_
  refine (readFilter_stockless _).bind fun filter => fun b walks store ids => ?_
  rw [perform_bind_ok _ (perform_get b), perform_bind_ok _ (perform_get _)]
  dsimp only [restocked]
  split <;> rfl

theorem createDivert_stockless (c : DivertConfig) :
    (createDivert c : BrokerM σ Divert).Stockless := by
  refine (readAddress_stockless _).bind fun address => ?_
  refine (readAddress_stockless _).bind fun target => ?_
  refine Stockless.get_bind (fun _ _ _ _ => rfl) fun b => ?_
  dsimp only
  split
  · exact fun _ _ _ _ => rfl
  · split
    · exact fun _ _ _ _ => rfl
    · refine (readFilter_stockless _).bind fun filter => fun b walks store ids => ?_
      rw [perform_bind_ok _ (perform_get b), perform_bind_ok _ (perform_get _)]
      dsimp only [restocked]
      split <;> rfl

/-- **A configuration is deployed in the same way over every store**, in whatever orders the broker
walks over its maps. -/
theorem deploy_restocked {levels : String → Bool} {walks : WalkOrders} {c : Config} {store : σ}
    {ids : IdSupply} {b : Broker σ} (h : deploy levels walks c store ids = .ok b)
    (walks' : WalkOrders) (store' : σ) (ids' : IdSupply) :
    deploy levels walks' c store' ids' = .ok (b.restocked walks' store' ids') := by
  have hbindings : (deployBindings c : BrokerM σ Unit).Stockless :=
    (Stockless.forM (fun q => (createQueue_stockless q).discard) c.queues).bind fun _ =>
      Stockless.forM (fun d => (createDivert_stockless d).discard) c.diverts
  have hrestocked := hbindings (ofConfig walks c store ids) walks' store' ids'
  rw [perform_of_deploy h] at hrestocked
  have hsame : (ofConfig walks c store ids).restocked walks' store' ids' =
      ofConfig walks' c store' ids' := rfl
  rw [hsame] at hrestocked
  rw [deploy] at h ⊢
  split at h
  · cases h
  · rw [hrestocked]

/-! ### The first entry in the books -/

theorem Fresh.heldMessages_eq {store : σ} {ids : IdSupply} {b : Broker σ} (h : b.Fresh store ids)
    {id : BindingId} {q : Queue} (hq : b.router.queues.get? id = some q) :
    q.heldMessages = [] := by
  rw [h.queues_new id q hq]
  rfl

theorem Fresh.kept_eq {store : σ} {ids : IdSupply} {b : Broker σ} (h : b.Fresh store ids) :
    b.router.kept = [] := by
  refine List.flatMap_eq_nil_iff.mpr fun q hq => ?_
  obtain ⟨id, hid⟩ := Dictionary.mem_values_iff.mp hq
  rw [Queue.keptMessages, h.heldMessages_eq hid, List.filter_nil]

/-- The books of a fresh broker are right, whatever its store had taken before. -/
theorem Fresh.books {good : BindingId → Message → Prop} {turns : Nat} {store : MessageLog}
    {old : List Message} {ids : IdSupply} {b : Broker MessageLog} (h : b.Fresh store ids)
    (hstore : store.Holds old)
    (hids : Leftovers.Admits ⟨old, store.removed⟩ (ids.handedOut turns)) :
    Books good turns ⟨old, store.removed⟩ [] [] [] b where
  router := h.router
  fresh := by rw [h.ids_eq]; exact hids
  readable _ hm := absurd hm List.not_mem_nil
  held id q hq m hm := by
    rw [h.heldMessages_eq hq] at hm
    cases hm
  owed_mem _ hm := absurd hm List.not_mem_nil
  stored := by rw [h.store_eq, List.append_nil]; exact hstore
  appended_mem _ hm := absurd hm List.not_mem_nil
  appended_nodup := .nil
  count_eq id := by
    rw [h.counts_eq, h.kept_eq]
    rfl
  removed_mem id hid := .inl (h.store_eq ▸ hid)
  removed_iff _ hm := absurd hm List.not_mem_nil
  kept_mem m hm := by
    rw [h.kept_eq] at hm
    cases hm

end Broker

end Courier
