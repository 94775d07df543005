import Courier.Broker
import Courier.Proofs.Broker.Settling

/-!
# Queues and Diverts Come and Go

A broker finds its queues and diverts by name, as the registry does, and both have to agree.
Queues that are deployed are empty, and a queue that is withdrawn lets go of all that it holds, so
the books stay right.

## Main definitions

* `Broker.Wired`: the names of queues and diverts are those of bindings.
* `Broker.heldDurably`: the durable messages in the durable queues that are deployed.

## Main results

* `Broker.Wired.createQueue`, `Broker.Wired.deleteQueue`, `Broker.Wired.createDivert`,
  `Broker.Wired.destroyDivert`: the names still agree afterwards.
* `Broker.createQueue_balancesAt` and its siblings: the books are right afterwards.
* `Broker.Wired.heldDurably_perm`: the deployed queues are all queues of the router.
-/

namespace Courier

/-- The number of a queue's binding. -/
def Binding.queueId? (b : Binding) : Option BindingId :=
  if b.isQueue then some b.id else none

theorem Binding.isQueue_eq {b : Binding} : b.isQueue ↔ ∃ info, b.kind = .queue info := by
  rw [isQueue]
  cases b.kind <;> simp

theorem Binding.isQueue_eq_false {b : Binding} :
    b.isQueue = false ↔ ∃ divert, b.kind = .divert divert := by
  rw [isQueue]
  cases b.kind <;> simp

namespace Broker

/-- The names of queues and diverts are those of bindings. -/
structure Wired {σ : Type} (b : Broker σ) : Prop where
  queueIds_eq : ∀ name, b.queueIds.get? name =
    (b.router.registry.byName.get? name).bind Binding.queueId?
  diverts_eq : ∀ name, b.diverts.contains name =
    (b.router.registry.byName.get? name).any fun bd => !bd.isQueue

/-- The durable messages in the durable queues that are deployed, once for each queue. -/
def heldDurably {σ : Type} (b : Broker σ) : List Message :=
  b.deployedQueues.flatMap Queue.keptMessages

/-! ### What the requests do -/

section Requests

variable {σ : Type}

theorem perform_readAddress (b : Broker σ) (text : String) :
    (∃ e, b.perform (readAddress text) = (.error e, b)) ∨
      ∃ address, b.perform (readAddress text) = (.ok address, b) := by
  rw [readAddress]
  cases Address.ofString text with
  | error e => exact .inl ⟨_, rfl⟩
  | ok address => exact .inr ⟨address, rfl⟩

theorem perform_readFilter (b : Broker σ) (text : Option String) :
    (∃ e, b.perform (readFilter text) = (.error e, b)) ∨
      ∃ filter, b.perform (readFilter text) = (.ok filter, b) := by
  rw [readFilter]
  cases Selector.parseOptional text with
  | error e => exact .inl ⟨_, rfl⟩
  | ok filter => exact .inr ⟨filter, rfl⟩

/-- A queue is deployed, or nothing changes. -/
theorem perform_createQueue (b : Broker σ) (c : QueueConfig) :
    (∃ e, b.perform (createQueue c) = (.error e, b)) ∨
      ∃ info filter bd router, info.name = c.name ∧ info.durable = c.durable ∧
        b.router.bindQueue? info filter = some (bd, router) ∧
        b.perform (createQueue c) =
          (.ok info, { b with router, queueIds := b.queueIds.insert c.name bd.id }) := by
  rw [createQueue]
  rcases perform_readAddress b c.address with ⟨e, haddress⟩ | ⟨address, haddress⟩
  · exact .inl ⟨e, perform_bind_error _ haddress⟩
  · rw [perform_bind_ok _ haddress]
    rcases perform_readFilter b c.filter with ⟨e, hfilter⟩ | ⟨filter, hfilter⟩
    · exact .inl ⟨e, perform_bind_error _ hfilter⟩
    · rw [perform_bind_ok _ hfilter, perform_bind_ok _ (perform_get b)]
      dsimp only
      split
      · next bd router hbind => exact .inr ⟨_, filter, bd, router, rfl, rfl, hbind, rfl⟩
      · exact .inl ⟨_, rfl⟩

/-- A divert is deployed, or nothing changes. -/
theorem perform_createDivert (b : Broker σ) (c : DivertConfig) :
    (∃ e, b.perform (createDivert c) = (.error e, b)) ∨
      ∃ divert filter bd router, divert.name = c.name ∧
        b.router.bindDivert? divert filter = some (bd, router) ∧
        b.perform (createDivert c) =
          (.ok divert, { b with router, diverts := b.diverts.insert c.name divert }) := by
  rw [createDivert]
  rcases perform_readAddress b c.address with ⟨e, haddress⟩ | ⟨address, haddress⟩
  · exact .inl ⟨e, perform_bind_error _ haddress⟩
  · rw [perform_bind_ok _ haddress]
    rcases perform_readAddress b c.forwardingAddress with ⟨e, htarget⟩ | ⟨target, htarget⟩
    · exact .inl ⟨e, perform_bind_error _ htarget⟩
    · rw [perform_bind_ok _ htarget, perform_bind_ok _ (perform_get b)]
      dsimp only
      split
      · exact .inl ⟨_, rfl⟩
      · split
        · exact .inl ⟨_, rfl⟩
        · rcases perform_readFilter b c.filter with ⟨e, hfilter⟩ | ⟨filter, hfilter⟩
          · exact .inl ⟨e, perform_bind_error _ hfilter⟩
          · rw [perform_bind_ok _ hfilter, perform_bind_ok _ (perform_get b)]
            split
            · next bd router hbind => exact .inr ⟨_, filter, bd, router, rfl, hbind, rfl⟩
            · exact .inl ⟨_, rfl⟩

/-- A divert is withdrawn, or nothing changes. -/
theorem perform_destroyDivert (b : Broker σ) (name : String) :
    (∃ e, b.perform (destroyDivert name) = (.error e, b)) ∨
      b.diverts.contains name ∧ b.perform (destroyDivert name) =
        (.ok (), { b with router := b.router.unbind name, diverts := b.diverts.erase name }) := by
  rw [destroyDivert, perform_bind_ok _ (perform_get b)]
  cases hname : b.diverts.contains name with
  | false => exact .inl ⟨_, rfl⟩
  | true => exact .inr ⟨rfl, rfl⟩

/-- The state in which a queue is withdrawn and what it holds is yet to be let go of. -/
def withdrawn (b : Broker σ) (name : String) (id : BindingId) : Broker σ :=
  { b with
    router := { b.router.unbind name with queues := (b.router.unbind name).queues.erase id }
    queueIds := b.queueIds.erase name }

/-- All that a queue held is discarded with it. -/
theorem toDiscard_perm (b : Broker σ) (id : BindingId) (q : Queue) :
    (b.toDiscard id q).Perm q.drain.1 :=
  b.walks.references.perm _ _

theorem perform_deleteQueue [MessageStore σ] (b : Broker σ) (name : String) :
    b.perform (deleteQueue name) = (.error (.queueNotFound name), b) ∨
      ∃ id q, b.queue? name = some (id, q) ∧ b.perform (deleteQueue name) =
        (b.withdrawn name id).perform
          ((b.toDiscard id q).forM fun r => release q.toQueueInfo r.message) := by
  rw [deleteQueue, perform_bind, perform_requireQueue]
  cases hfound : b.queue? name with
  | none => exact .inl rfl
  | some found => exact .inr ⟨found.1, found.2, rfl, rfl⟩

end Requests

/-! ### The names agree -/

namespace Wired

theorem of_extends {σ : Type} {b b' : Broker σ} (h : b.Wired) (hb : b.Extends b') : b'.Wired := by
  refine ⟨fun name => ?_, fun name => ?_⟩
  · rw [hb.queueIds_eq, hb.registry_eq, h.queueIds_eq]
  · rw [hb.diverts_eq, hb.registry_eq, h.diverts_eq]

variable {σ : Type} {b : Broker σ}

/-- A deployed queue has a binding of its name. -/
theorem binding_of_queueIds (h : b.Wired) {name : String} {id : BindingId}
    (hid : b.queueIds.get? name = some id) :
    ∃ bd, b.router.registry.byName.get? name = some bd ∧ bd.isQueue ∧ bd.id = id := by
  rw [h.queueIds_eq] at hid
  obtain ⟨bd, hbd, hid⟩ := Option.bind_eq_some_iff.mp hid
  rw [Binding.queueId?, Option.ite_none_right_eq_some, Option.some.injEq] at hid
  exact ⟨bd, hbd, hid⟩

/-- A queue of the router is deployed under some name. -/
theorem exists_queue? (h : b.Wired) (hr : b.router.Bound) {id : BindingId} {q : Queue}
    (hq : b.router.queues.get? id = some q) : ∃ name, b.queue? name = some (id, q) := by
  obtain ⟨bd, hbd, rfl, hkind⟩ := hr.binding_of_queue id q hq
  obtain ⟨name, hname⟩ := Dictionary.mem_values_iff.mp hbd
  refine ⟨name, queue?_eq_some_iff.mpr ⟨?_, hq⟩⟩
  rw [h.queueIds_eq, hname, Option.bind_some, Binding.queueId?,
    if_pos (Binding.isQueue_eq.mpr ⟨_, hkind⟩)]

theorem queue?_of_get? (h : b.Wired) (hr : b.router.Sound) {id : BindingId} {q : Queue}
    (hq : b.router.queues.get? id = some q) : ∃ name, b.queue? name = some (id, q) :=
  h.exists_queue? hr.bound hq

/-- A deployed divert has a binding of its name. -/
theorem binding_of_diverts (h : b.Wired) {name : String} (hname : b.diverts.contains name) :
    ∃ bd, b.router.registry.byName.get? name = some bd ∧
      ∃ divert, bd.kind = .divert divert := by
  rw [h.diverts_eq] at hname
  obtain ⟨bd, hbd, hkind⟩ := (Option.any_eq_true ..).mp hname
  exact ⟨bd, hbd, Binding.isQueue_eq_false.mp (by simpa using hkind)⟩

theorem createQueue (h : b.Wired) (hr : b.router.Bound) (c : QueueConfig) :
    (b.perform (createQueue c)).2.Wired := by
  rcases perform_createQueue b c with
    ⟨e, hperform⟩ | ⟨info, filter, bd, router, hname, -, hbind, hperform⟩
  · rw [hperform]
    exact h
  · obtain ⟨-, hnone, hbyName, hkind, -⟩ := hr.bindQueue? hbind
    have hqueue : bd.isQueue := Binding.isQueue_eq.mpr ⟨info, hkind⟩
    rw [hname] at hnone hbyName
    rw [hperform]
    refine ⟨fun name => ?_, fun name => ?_⟩
    · rw [hbyName, Dictionary.get?_insert, Dictionary.get?_insert]
      split
      · simp [Binding.queueId?, hqueue]
      · exact h.queueIds_eq name
    · rw [hbyName, Dictionary.get?_insert, h.diverts_eq]
      split
      · next heq => simp [heq, hnone, hqueue]
      · rfl

theorem createDivert (h : b.Wired) (hr : b.router.Bound) (c : DivertConfig) :
    (b.perform (createDivert c)).2.Wired := by
  rcases perform_createDivert b c with
    ⟨e, hperform⟩ | ⟨divert, filter, bd, router, hname, hbind, hperform⟩
  · rw [hperform]
    exact h
  · obtain ⟨-, hnone, hbyName, hkind, -⟩ := hr.bindDivert? hbind
    have hqueue : bd.isQueue = false := by rw [Binding.isQueue, hkind]
    rw [hname] at hnone hbyName
    rw [hperform]
    refine ⟨fun name => ?_, fun name => ?_⟩
    · rw [hbyName, Dictionary.get?_insert, h.queueIds_eq]
      split
      · next heq => simp [heq, hnone, hqueue, Binding.queueId?]
      · rfl
    · rw [hbyName, Dictionary.get?_insert, Dictionary.contains, Dictionary.get?_insert]
      split
      · simp [hqueue]
      · exact h.diverts_eq name

theorem withdrawn (h : b.Wired) (hr : b.router.Bound) {name : String} {id : BindingId}
    (hid : b.queueIds.get? name = some id) :
    (b.withdrawn name id).Wired ∧ (b.withdrawn name id).router.Bound := by
  obtain ⟨bd, hbd, hqueue, rfl⟩ := h.binding_of_queueIds hid
  obtain ⟨info, hkind⟩ := Binding.isQueue_eq.mp hqueue
  obtain ⟨-, -, hbyName, -⟩ := hr.unbind hbd
  refine ⟨⟨fun other => ?_, fun other => ?_⟩, hr.unbindQueue hbd hkind⟩
  · rw [Broker.withdrawn, hbyName, Dictionary.get?_erase, Dictionary.get?_erase]
    split
    · rfl
    · exact h.queueIds_eq other
  · rw [Broker.withdrawn, hbyName, Dictionary.get?_erase, h.diverts_eq]
    split
    · next heq => simp [heq, hbd, hqueue]
    · rfl

theorem destroyDivert (h : b.Wired) (hr : b.router.Bound) (name : String) :
    (b.perform (destroyDivert name)).2.Wired := by
  rcases perform_destroyDivert b name with ⟨e, hperform⟩ | ⟨hname, hperform⟩
  · rw [hperform]
    exact h
  · obtain ⟨bd, hbd, hkind⟩ := h.binding_of_diverts hname
    have hqueue := Binding.isQueue_eq_false.mpr hkind
    obtain ⟨-, -, hbyName, -⟩ := hr.unbind hbd
    rw [hperform]
    refine ⟨fun other => ?_, fun other => ?_⟩
    · rw [hbyName, Dictionary.get?_erase, h.queueIds_eq]
      split
      · next heq => simp [heq, hbd, hqueue, Binding.queueId?]
      · rfl
    · rw [hbyName, Dictionary.get?_erase, Dictionary.contains, Dictionary.get?_erase]
      split
      · rfl
      · exact h.diverts_eq other

end Wired

/-! ### The books stay right -/

section Books

open BrokerM

variable {good : BindingId → Message → Prop} {turns : Nat} {prior : Leftovers}
  {b : Broker MessageLog}

/-- A change that no queue notices, apart from new queues, which are empty. -/
theorem balancesAt_of_kept {α : Type} {act : BrokerM MessageLog α} {result : Except BrokerError α}
    {b' : Broker MessageLog} (hperform : b.perform act = (result, b'))
    (hstore : b'.store = b.store) (hcounts : b'.durableCounts = b.durableCounts)
    (hids : b'.ids = b.ids) (hsound : b'.router.Sound)
    (hkept : b'.router.kept.Perm b.router.kept)
    (hheld : ∀ id q', b'.router.queues.get? id = some q' → ∀ m ∈ q'.heldMessages,
      ∃ q, b.router.queues.get? id = some q ∧ m ∈ q.heldMessages) :
    BalancesAt good turns prior b act := by
  intro pool owed appended hbooks _ _
  have hnone : ([] ++ b'.router.kept).Perm b.router.kept := hkept
  have hafter := hbooks.ofRouter hstore hcounts hids hsound hnone hheld
  rw [hperform]
  exact ⟨pool, ⟨appended, hafter⟩, fun _ hm => hm, by rw [hids]; exact .refl _⟩

theorem createQueue_balancesAt (c : QueueConfig) :
    BalancesAt good turns prior b (createQueue c) := by
  rcases perform_createQueue b c with
    ⟨e, hperform⟩ | ⟨info, filter, bd, router, -, -, hbind, hperform⟩
  · exact balancesAt_of_error hperform
  · intro pool owed appended hbooks
    obtain ⟨hsound, -, -, -, hqueues, hnone⟩ := hbooks.router.bindQueue? hbind
    refine balancesAt_of_kept hperform rfl rfl rfl hsound ?_ ?_ pool owed appended hbooks
    · rw [Router.kept, hqueues]
      exact Router.kept_bindQueue hnone
    · intro id q' hq' m hm
      rw [hqueues, Dictionary.get?_insert] at hq'
      split at hq'
      · cases hq'
        cases hm
      · exact ⟨q', hq', hm⟩

theorem createDivert_balancesAt (c : DivertConfig) :
    BalancesAt good turns prior b (createDivert c) := by
  rcases perform_createDivert b c with
    ⟨e, hperform⟩ | ⟨divert, filter, bd, router, -, hbind, hperform⟩
  · exact balancesAt_of_error hperform
  · intro pool owed appended hbooks
    obtain ⟨hsound, -, -, -, hqueues⟩ := hbooks.router.bindDivert? hbind
    refine balancesAt_of_kept hperform rfl rfl rfl hsound ?_ ?_ pool owed appended hbooks
    · rw [Router.kept, hqueues, Router.kept]
    · exact fun id q' hq' m hm => ⟨q', hqueues ▸ hq', hm⟩

theorem destroyDivert_balancesAt (hw : b.Wired) (name : String) :
    BalancesAt good turns prior b (destroyDivert name) := by
  rcases perform_destroyDivert b name with ⟨e, hperform⟩ | ⟨hname, hperform⟩
  · exact balancesAt_of_error hperform
  · intro pool owed appended hbooks
    obtain ⟨bd, hbd, divert, hkind⟩ := hw.binding_of_diverts hname
    obtain ⟨-, hqueues, -, -⟩ := hbooks.router.bound.unbind hbd
    refine balancesAt_of_kept hperform rfl rfl rfl (hbooks.router.unbindDivert hbd hkind) ?_ ?_
      pool owed appended hbooks
    · rw [Router.kept, hqueues, Router.kept]
    · exact fun id q' hq' m hm => ⟨q', hqueues ▸ hq', hm⟩

/-- A queue that is withdrawn lets go of everything that it held. -/
theorem deleteQueue_balancesAt (hw : b.Wired) (hall : ∀ id m, good id m) (name : String) :
    BalancesAt good turns prior b (deleteQueue name) := by
  rcases perform_deleteQueue b name with hperform | ⟨id, q, hfound, hperform⟩
  · exact balancesAt_of_error hperform
  · intro pool owed appended hbooks _ hturns
    obtain ⟨hid, hq⟩ := queue?_eq_some_iff.mp hfound
    obtain ⟨bd, hbd, hqueue, rfl⟩ := hw.binding_of_queueIds hid
    obtain ⟨info, hkind⟩ := Binding.isQueue_eq.mp hqueue
    obtain ⟨-, hqueues, -, -⟩ := hbooks.router.bound.unbind hbd
    have hsound : (b.withdrawn name bd.id).router.Sound := hbooks.router.unbindQueue hbd hkind
    let discarded := b.toDiscard bd.id q
    have hdrain : (keptShare q.toQueueInfo (discarded.map Reference.message)).Perm
        q.keptMessages :=
      (((b.toDiscard_perm bd.id q).map _).trans (hbooks.router.queue_sound _ q hq).drain).filter _
    have hkept : (keptShare q.toQueueInfo (discarded.map Reference.message) ++
        (b.withdrawn name bd.id).router.kept).Perm b.router.kept := by
      refine (hdrain.append_right _).trans ?_
      rw [Broker.withdrawn, Router.kept, hqueues]
      exact (Router.kept_perm_of_get? hq).symm
    have hheld : ∀ id q', (b.withdrawn name bd.id).router.queues.get? id = some q' →
        ∀ m ∈ q'.heldMessages, ∃ q, b.router.queues.get? id = some q ∧ m ∈ q.heldMessages := by
      intro id q' hq' m hm
      rw [Broker.withdrawn, hqueues, Dictionary.get?_erase] at hq'
      split at hq'
      · cases hq'
      · exact ⟨q', hq', hm⟩
    have hafter : Books good turns prior pool _ appended (b.withdrawn name bd.id) :=
      hbooks.ofRouter rfl rfl rfl hsound hkept hheld
    have hrelease : Settles good turns prior [] _
        (discarded.forM fun r => release q.toQueueInfo r.message) :=
      .forM _ fun r _ => release_settles q.toQueueInfo r.message
    rw [flatMap_keptShare] at hrelease
    rw [hperform] at hturns ⊢
    obtain ⟨counts, store, hok⟩ := perform_forM_release
      (fun b (r : Reference) => perform_release MessageLog.backed b q.toQueueInfo r.message)
      (b.withdrawn name bd.id) discarded
    obtain ⟨pool', owed', hsettled, ⟨-, rfl⟩ | ⟨reason, hreason⟩⟩ :=
      hrelease.settlesAt _ pool owed appended hafter
        (fun _ hm => absurd hm List.not_mem_nil) (fun id m _ _ => hall id m) hturns
    · exact ⟨pool', hsettled.books, hsettled.subset, hsettled.names⟩
    · rw [hok] at hreason
      cases hreason

end Books

/-! ### What is deployed -/

/-- The deployed queues are all queues of the router. -/
theorem Wired.heldDurably_perm {σ : Type} {b : Broker σ} (h : b.Wired) (hr : b.router.Sound) :
    b.heldDurably.Perm b.router.kept := by
  have hbound : ∀ {name id}, b.queueIds.get? name = some id →
      ∃ bd ∈ b.router.registry.named, bd.name = name ∧ bd.id = id ∧ bd.isQueue := by
    intro name id hid
    obtain ⟨bd, hbd, hqueue, hbdid⟩ := h.binding_of_queueIds hid
    exact ⟨bd, Dictionary.mem_values_iff.mpr ⟨name, hbd⟩, hr.registry.name_eq name bd hbd, hbdid,
      hqueue⟩
  have hnodup : b.queueIds.values.Nodup := by
    refine Dictionary.nodup_values fun name name' id hid hid' => ?_
    obtain ⟨bd, hbd, rfl, rfl, -⟩ := hbound hid
    obtain ⟨bd', hbd', rfl, hsame, -⟩ := hbound hid'
    rw [hr.registry.eq_of_id_eq hbd hbd' hsame.symm]
  have hmem : ∀ id, id ∈ b.queueIds.values ↔ id ∈ b.router.queues.keys := by
    intro id
    rw [Dictionary.mem_values_iff, Dictionary.mem_keys_iff]
    constructor
    · rintro ⟨name, hid⟩
      obtain ⟨bd, hbd, -, rfl, hqueue⟩ := hbound hid
      obtain ⟨info, hkind⟩ := Binding.isQueue_eq.mp hqueue
      obtain ⟨q, hq, -⟩ := hr.queue_of_binding bd hbd info hkind
      exact ⟨q, hq⟩
    · rintro ⟨q, hq⟩
      obtain ⟨name, hname⟩ := h.queue?_of_get? hr hq
      exact ⟨name, (queue?_eq_some_iff.mp hname).1⟩
  have hperm := (List.perm_ext_iff_of_nodup hnodup b.router.queues.nodup_keys).mpr hmem
  rw [heldDurably, deployedQueues, Router.kept, ← Dictionary.filterMap_get?_keys b.router.queues]
  exact (hperm.filterMap _).flatMap_right _

end Broker

end Courier
