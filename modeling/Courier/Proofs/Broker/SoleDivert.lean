import Courier.Proofs.Broker.Bindings
import Courier.Proofs.Broker.Forwarding
import Courier.Proofs.Routing.SoleDivert

/-!
# Exclusive Diverts That Swallow Messages

A broker may have a single divert that is exclusive and has no selector, and a queue without a
selector at the address that the divert forwards to. One would expect that the queue gets a copy of
every message that the divert takes. A divert that forwards to the very text of its pattern is
refused for this reason: it would take the copies too. But the pattern may match the forwarding
address without being the same text. Then the divert takes its own copies, does not send them on a
second time, and keeps them from the queue all the same.

## Main definitions

* `Broker.Funnels`: such a divert and such a queue.
* `Broker.Delivers`: a message is published, and a queue has a copy of it afterwards.

## Main results

* `Broker.perform_commit_copies`: a plan that delivers copies of one message is carried out unless
  the store refuses this message.
* `Broker.Funnels.perform_publish_of_matches`, `Broker.Funnels.delivers`: what becomes of a message.
* `Broker.Reachable.delivers_iff_not_matches`: **the queue gets a copy of every message that the
  divert takes if and only if the pattern does not match the forwarding address**.
-/

namespace Courier

/-! ### Copies of one message -/

/-- Of one message, one copy is distinct. -/
theorem Message.eq_of_perm_distinct {messages stored : List Message} {copy : Message}
    (horder : stored.Perm (distinct messages)) (h : ∀ m ∈ messages, m = copy) :
    stored = [] ∨ stored = [copy] := by
  obtain ⟨hnodup, hmem, -⟩ := spec_of_perm_distinct horder
  have hall : stored = List.replicate stored.length copy :=
    List.eq_replicate_length.mpr fun m hm => h m (hmem m hm)
  generalize stored.length = n at hall
  rw [hall, List.map_replicate, List.nodup_replicate] at hnodup
  rw [hall]
  obtain rfl | rfl : n = 0 ∨ n = 1 := by omega
  · exact .inl rfl
  · exact .inr rfl

namespace Router

/-- A delivery to a queue that is there is named. -/
theorem mem_deliverAll {r : Router} {deliveries : List Delivery} {d : Delivery}
    (hd : d ∈ deliveries) (hqueue : (r.queues.get? d.binding).isSome) :
    ∃ ref ∈ (r.deliverAll deliveries).1, ref.queue = d.queue ∧ ref.message = d.message := by
  induction deliveries generalizing r with
  | nil => cases hd
  | cons first deliveries ih =>
      rcases List.mem_cons.mp hd with rfl | hd
      · obtain ⟨q, hq⟩ := Option.isSome_iff_exists.mp hqueue
        let ref : RoutedReference :=
          { queue := d.queue, message := d.message, outcome := (q.add d.message).1 }
        have hfirst : (r.deliver d).1 = [ref] := by rw [Router.deliver, hq]
        have href : ref ∈ (r.deliver d).1 := hfirst ▸ List.mem_singleton_self ref
        exact ⟨ref, List.mem_append_left _ href, rfl, rfl⟩
      · obtain ⟨ref, href, hsame⟩ := ih hd ((isSome_get?_deliver r first d.binding).trans hqueue)
        exact ⟨ref, List.mem_append_right _ href, hsame⟩

/-- A queue that gets copies of one message holds the message: nothing else comes that could take
its place. -/
theorem Orderly.held_deliverAll {good : Message → Prop} {r : Router} (hr : r.Orderly good)
    {deliveries : List Delivery} {copy : Message} (hgood : ∀ d ∈ deliveries, good d.message)
    (hcopies : ∀ d ∈ deliveries, d.message = copy)
    (hqueues : ∀ d ∈ deliveries, (r.queues.get? d.binding).isSome) {d : Delivery}
    (hd : d ∈ deliveries) :
    ∃ q, (r.deliverAll deliveries).2.queues.get? d.binding = some q ∧ copy ∈ q.heldMessages := by
  have harrives : ∀ d ∈ deliveries, d.message ∈ [copy] := fun d hd =>
    List.mem_singleton.mpr (hcopies d hd)
  obtain ⟨q, hq, hretains⟩ := hr.retains_deliverAll hgood harrives hqueues d hd
  refine ⟨q, hq, ?_⟩
  rw [hcopies d hd] at hretains
  rcases hretains with hheld | ⟨n, hn, hheld, -⟩
  · exact hheld
  · exact List.mem_singleton.mp hn ▸ hheld

end Router

namespace Broker

open BrokerM

variable {σ : Type} [MessageStore σ]

/-- Copies of one message are stored unless the store refuses the message. -/
theorem perform_persistPlan_copies (b : Broker σ) {plan : RoutePlan} {copy : Message}
    (h : ∀ m ∈ plan.kept, m = copy) :
    (∃ reason store, (MessageStore.append b.store copy).1 = .error reason ∧
      b.perform (persistPlan plan) = (.error (.storage reason), { b with store })) ∨
    ∃ store, b.perform (persistPlan plan) = (.ok (), { b with store }) := by
  cases hreplay : plan.replay with
  | true =>
      rw [persistPlan_of_replay hreplay]
      exact .inr ⟨b.store, rfl⟩
  | false =>
      rw [perform_persistPlan_of_new b hreplay]
      rcases Message.eq_of_perm_distinct (b.toPersist_perm plan) h with hnone | hone
      · rw [hnone]
        exact .inr ⟨b.store, rfl⟩
      · rw [hone, persist, perform_bind_ok _ (perform_tryStore ..)]
        rcases (MessageStore.append b.store copy).1 with reason | ⟨⟩
        · exact .inl ⟨reason, _, rfl, rfl⟩
        · exact .inr ⟨_, rfl⟩

/-- **A plan that delivers copies of one message** is refused if the store refuses this message, and
is carried out otherwise, whatever happens to the store afterwards. -/
theorem perform_commit_copies (b : Broker σ) {plan : RoutePlan} {copy : Message}
    (hcopies : ∀ d ∈ plan.deliveries, d.message = copy) :
    (∃ reason store, (MessageStore.append b.store copy).1 = .error reason ∧
      b.perform (commit plan) = (.error (.storage reason), { b with store })) ∨
    ∃ result counts store,
      b.perform (commit plan) =
        (result, { b with router := (b.router.commit plan).2, durableCounts := counts, store }) ∧
      ∀ references, result = .ok references → references = (b.router.commit plan).1 := by
  have hkept : ∀ m ∈ plan.kept, m = copy := by
    intro m hm
    obtain ⟨d, hd, rfl⟩ := List.mem_map.mp hm
    exact hcopies d (List.mem_filter.mp hd).1
  rcases perform_persistPlan_copies b hkept with
    ⟨reason, store, hrefused, hstored⟩ | ⟨store, hstored⟩
  · rw [commit_eq]
    exact .inl ⟨reason, store, hrefused, perform_bind_error _ hstored⟩
  · obtain ⟨result, counts, store', hperform, -, hresult⟩ :=
      @perform_commit_of_stored σ _ Regime.trivial (fun _ => True) b _ plan hstored
    exact .inr ⟨result, counts, store', hperform, hresult⟩

/-! ### Publishing -/

/-- The queue of a name holds a message. -/
def Holds (b : Broker σ) (name : String) (m : Message) : Prop :=
  ∃ id q, b.queue? name = some (id, q) ∧ m ∈ q.heldMessages

/-- A message is published, and the queue of a name is named for a copy of it and holds the copy,
unless the store refuses the copy. The queue holds the copy also if the store fails to let go of
what the copy replaced. -/
def Delivers (b : Broker σ) (m : Message) (name : String) (copy : Message) : Prop :=
  match b.perform (publish m) with
  | (.ok references, b') =>
    (∃ ref ∈ references, ref.queue.name = name ∧ ref.message = copy) ∧ b'.Holds name copy
  | (.error e, b') =>
    b'.Holds name copy ∨
      ∃ reason, (MessageStore.append b.store copy).1 = .error reason ∧ e = .storage reason

variable {b : Broker σ} {m copy : Message} {published : List Message}

/-- A message that is delivered nowhere changes no queue. -/
theorem perform_publish_of_deliveries_eq_nil
    (h : (b.router.plan b.ids m m.address).1.deliveries = []) :
    ∃ b', b.perform (publish m) = (.ok [], b') ∧ b'.router.queues = b.router.queues := by
  have hreplay : (b.router.plan b.ids m m.address).1.replay = false := by
    obtain ⟨-, -, hreplay, -⟩ := b.router.registry.plan_explains b.router.maxDivertHops b.ids m
    exact hreplay
  have hnone : (b.planned m).toPersist (b.router.plan b.ids m m.address).1 = [] := by
    refine List.eq_nil_iff_forall_not_mem.mpr fun n hn => ?_
    obtain ⟨d, hd, -⟩ := exists_delivery_of_mem_toPersist hn
    rw [h] at hd
    cases hd
  have hstored : (b.planned m).perform (persistPlan (b.router.plan b.ids m m.address).1) =
      (.ok (), b.planned m) := by
    rw [perform_persistPlan_of_new _ hreplay, hnone]
    rfl
  obtain ⟨counters, hcommit⟩ :=
    commit_router (b.planned m).router (b.router.plan b.ids m m.address).1
  rw [perform_publish, commit_eq, perform_bind_ok _ hstored, perform_bind_ok _ (perform_get _),
    hcommit, h]
  exact ⟨_, rfl, rfl⟩

/-- **Copies of one message are delivered** to every queue of the plan. -/
theorem delivers_of_copies (hb : b.Custody Regime.trivial published)
    (hcopies : ∀ d ∈ (b.router.plan b.ids m m.address).1.deliveries, d.message = copy)
    {d : Delivery} (hd : d ∈ (b.router.plan b.ids m m.address).1.deliveries) {name : String}
    (hname : b.queueIds.get? name = some d.binding) (hqueue : d.queue.name = name) :
    b.Delivers m name copy := by
  obtain ⟨counters, hrouter⟩ := commit_router b.router (b.router.plan b.ids m m.address).1
  rw [Delivers, perform_publish]
  rcases perform_commit_copies (b.planned m) hcopies with
    ⟨reason, store, hrefused, hcommit⟩ | ⟨result, counts, store, hcommit, hresult⟩
  · rw [hcommit]
    exact .inr ⟨reason, hrefused, rfl⟩
  · have hholds : Holds { b.planned m with
        router := (b.router.commit (b.router.plan b.ids m m.address).1).2
        durableCounts := counts
        store } name copy := by
      obtain ⟨q, hq, hheld⟩ := hb.router.held_deliverAll (fun _ _ => True.intro) hcopies
        (fun d hd => (hb.deployed_of_mem_plan hd).2) hd
      refine ⟨d.binding, q, queue?_eq_some_iff.mpr ⟨hname, ?_⟩, hheld⟩
      rw [hrouter]
      exact hq
    rw [hcommit]
    rcases result with e | references
    · exact .inl hholds
    · obtain ⟨ref, href, hinfo, hmessage⟩ :=
        Router.mem_deliverAll hd (hb.deployed_of_mem_plan hd).2
      have hnamed : ref ∈ references := by
        rw [hresult references rfl]
        exact (congrArg Prod.fst hrouter).symm ▸ href
      exact ⟨⟨ref, hnamed, by rw [hinfo, hqueue], by rw [hmessage, hcopies d hd]⟩, hholds⟩

/-! ### The divert and the queue -/

/-- A broker has a single divert, of the first binding. It is exclusive and has no selector. The
second binding attaches a queue without a selector to the address that the divert forwards to. -/
structure Funnels (b : Broker σ) (source : Binding) (d : Divert) (target : Binding) : Prop where
  sole : b.router.registry.SoleDivert source d
  mem_bindings : target ∈ b.router.registry.bindings
  isQueue : target.isQueue
  filter_eq : target.filter = none
  address_eq : target.address = d.forwardingAddress

instance (b : Broker σ) (source : Binding) (d : Divert) (target : Binding) :
    Decidable (b.Funnels source d target) :=
  decidable_of_iff
    (b.router.registry.SoleDivert source d ∧ target ∈ b.router.registry.bindings ∧
      target.isQueue ∧ target.filter = none ∧ target.address = d.forwardingAddress)
    ⟨fun ⟨hsole, hmem, hqueue, hfilter, haddress⟩ => ⟨hsole, hmem, hqueue, hfilter, haddress⟩,
      fun ⟨hsole, hmem, hqueue, hfilter, haddress⟩ => ⟨hsole, hmem, hqueue, hfilter, haddress⟩⟩

namespace Funnels

variable {source target : Binding} {d : Divert}

/-- **The divert swallows a message** that it takes if it takes the copy as well. -/
theorem perform_publish_of_matches (h : b.Funnels source d target) (hr : b.router.registry.Sound)
    (hhops : 0 < b.router.maxDivertHops)
    (hmatch : b.router.registry.wildcards.matches source.address.text m.address.text)
    (hself : b.router.registry.wildcards.matches source.address.text d.forwardingAddress.text) :
    ∃ b', b.perform (publish m) = (.ok [], b') ∧ b'.router.queues = b.router.queues := by
  refine perform_publish_of_deliveries_eq_nil ?_
  rw [Router.plan, h.sole.plan_eq hr hhops b.ids m hmatch]
  exact h.sole.deliveriesTo_eq_nil hr hself

/-- **The queue gets a copy** of a message that the divert takes if the divert does not take the
copy as well. -/
theorem delivers (h : b.Funnels source d target) (hb : b.Custody Regime.trivial published)
    (hlabelled : target.Labelled) (hhops : 0 < b.router.maxDivertHops)
    (hmatch : b.router.registry.wildcards.matches source.address.text m.address.text)
    (hself : ¬b.router.registry.wildcards.matches source.address.text d.forwardingAddress.text) :
    b.Delivers m target.name (m.forwarded b.ids.next d.forwardingAddress) := by
  have hr := hb.router.bound.registry
  obtain ⟨info, hkind⟩ := Binding.isQueue_eq.mp h.isQueue
  have hplan : (b.router.plan b.ids m m.address).1.deliveries =
      b.router.registry.deliveriesTo
        (Registry.SoleDivert.copy source d b.ids m m.address) := by
    rw [Router.plan, h.sole.plan_eq hr hhops b.ids m hmatch]
  have hd := h.sole.mem_deliveriesTo hr (Registry.SoleDivert.copy source d b.ids m m.address) hself
    h.mem_bindings hkind h.filter_eq h.address_eq
  rw [← hplan] at hd
  refine delivers_of_copies hb (fun d hd => ?_) hd ?_ ?_
  · rw [hplan] at hd
    exact (Registry.mem_deliveriesTo hd).1
  · have hname : b.router.registry.byName.get? target.name = some target :=
      hr.get?_eq_some_iff.mpr ⟨Registry.mem_bindings_iff.mp h.mem_bindings, rfl⟩
    rw [hb.wired.queueIds_eq, hname, Option.bind_some, Binding.queueId?, if_pos h.isQueue]
  · rw [hlabelled.1, hkind]
    rfl

end Funnels

/-- **An exclusive divert swallows messages if and only if it takes its own copies.** In any state
that a broker comes to, over any store, with a divert that takes all messages at the addresses
which its pattern matches, and a queue that takes all messages at the address to which the divert
forwards: the queue gets a copy of a message that the divert takes if and only if the pattern does
not match the forwarding address. If it does match, no queue gets anything. -/
theorem Reachable.delivers_iff_not_matches {first : σ → Prop} {alters : σ → σ → Prop}
    (hb : Reachable first alters published b) {source target : Binding} {d : Divert}
    (h : b.Funnels source d target)
    (hmatch : b.router.registry.wildcards.matches d.address.text m.address.text) :
    (b.Delivers m target.name (m.forwarded b.ids.next d.forwardingAddress) ↔
      ¬b.router.registry.wildcards.matches d.address.text d.forwardingAddress.text) ∧
    (b.router.registry.wildcards.matches d.address.text d.forwardingAddress.text →
      ∃ b', b.perform (publish m) = (.ok [], b') ∧ b'.router.queues = b.router.queues) := by
  have hcustody : b.Custody Regime.trivial published :=
    hb.custody (fun _ _ _ => True.intro) (fun _ _ _ _ _ => True.intro) fun _ _ => True.intro
  have hlabelled : ∀ bd ∈ b.router.registry.bindings, bd.Labelled := fun bd hbd =>
    hb.labelled bd (Registry.mem_bindings_iff.mp hbd)
  have haddress : source.address = d.address := by
    rw [(hlabelled source h.sole.mem_bindings).2, h.sole.kind_eq]
    rfl
  rw [← haddress] at hmatch ⊢
  have hswallows := h.perform_publish_of_matches hcustody.router.bound.registry hb.hops_pos hmatch
  refine ⟨⟨fun hdelivers hself => ?_, fun hself => ?_⟩, hswallows⟩
  · obtain ⟨b', hperform, -⟩ := hswallows hself
    rw [Delivers, hperform] at hdelivers
    obtain ⟨⟨ref, href, -⟩, -⟩ := hdelivers
    exact List.not_mem_nil href
  · exact h.delivers hcustody (hlabelled target h.mem_bindings) hb.hops_pos hmatch hself

/-! ### An archive of all orders -/

/-- The address of the archive. -/
def archive : Address := ⟨"orders.archive", by decide⟩

/-- A divert that takes all messages at the addresses of a pattern to the archive. -/
def collector (pattern : Address) : Divert where
  name := "collector"
  address := pattern
  forwardingAddress := archive
  exclusive := true

/-- A queue for the archive, and the divert. -/
def archiving (pattern : Address) : Config where
  queues := [{ name := "archive", address := archive.text }]
  diverts :=
    [{ name := "collector", address := pattern.text, forwardingAddress := archive.text,
       exclusive := true }]

/-- The binding of the queue. -/
def archiveBinding : Binding where
  id := ⟨1⟩
  name := "archive"
  address := archive
  kind := .queue { name := "archive", address := archive }

/-- The binding of the divert. -/
def collectorBinding (pattern : Address) : Binding where
  id := ⟨2⟩
  name := "collector"
  address := pattern
  kind := .divert (collector pattern)

/-- A divert from the address of new orders alone brings an order to the archive. -/
theorem Reachable.delivers_iff_not_matches_archive :
    ∃ b, deploy LogLevel.isSound {} (archiving (order 1).address) ({} : MessageLog)
        (consecutive 100) = .ok b ∧
      b.Delivers (order 1) "archive" ((order 1).forwarded b.ids.next archive) := by
  have hcheck : (deploy LogLevel.isSound {} (archiving (order 1).address) ({} : MessageLog)
      (consecutive 100)).toOption.any fun b =>
        decide (b.Funnels (collectorBinding (order 1).address) (collector (order 1).address)
          archiveBinding) &&
        b.router.registry.wildcards.matches (order 1).address.text (order 1).address.text &&
        !b.router.registry.wildcards.matches (order 1).address.text archive.text := by
    decide +kernel
  obtain ⟨b, hdeploy, hcheck⟩ := exists_ok_of_any hcheck
  rw [Bool.and_eq_true, Bool.and_eq_true, decide_eq_true_iff, Bool.not_eq_true'] at hcheck
  obtain ⟨⟨hfunnels, hmatch⟩, hself⟩ := hcheck
  have hreached : Reachable (· = {}) (fun _ _ => False) [] b := .deployed rfl hdeploy
  refine ⟨b, hdeploy, (hreached.delivers_iff_not_matches hfunnels hmatch).1.mpr ?_⟩
  exact fun hmatches => Bool.false_ne_true (hself.symm.trans hmatches)

/-- The address of all orders. -/
def allOrders : Address := ⟨"orders.#", by decide⟩

/-- **An exclusive divert may swallow messages**: the pattern of all orders matches the address of
the archive. -/
theorem exclusive_divert_swallows :
    ¬∀ (published : List Message) (b : Broker MessageLog) (source target : Binding) (d : Divert)
        (m : Message),
      Reachable (· = {}) (fun _ _ => False) published b → b.Funnels source d target →
      b.router.registry.wildcards.isWildcard m.address.text = false →
      b.router.registry.wildcards.matches d.address.text m.address.text →
      b.Delivers m target.name (m.forwarded b.ids.next d.forwardingAddress) := by
  intro hall
  have hcheck : (deploy LogLevel.isSound {} (archiving allOrders) ({} : MessageLog)
      (consecutive 100)).toOption.any fun b =>
        decide (b.Funnels (collectorBinding allOrders) (collector allOrders) archiveBinding) &&
        !b.router.registry.wildcards.isWildcard (order 1).address.text &&
        b.router.registry.wildcards.matches allOrders.text (order 1).address.text &&
        (b.perform (publish (order 1))).1.toOption.any List.isEmpty := by
    decide +kernel
  obtain ⟨b, hdeploy, hcheck⟩ := exists_ok_of_any hcheck
  rw [Bool.and_eq_true, Bool.and_eq_true, Bool.and_eq_true, decide_eq_true_iff,
    Bool.not_eq_true'] at hcheck
  obtain ⟨⟨⟨hfunnels, hplain⟩, hmatch⟩, hnone⟩ := hcheck
  have hdelivers := hall [] b _ _ _ (order 1) (.deployed rfl hdeploy) hfunnels hplain hmatch
  rw [Delivers] at hdelivers
  rcases hperform : b.perform (publish (order 1)) with ⟨e | references, b'⟩
  all_goals rw [hperform] at hnone hdelivers
  · cases hnone
  · obtain ⟨⟨ref, href, -⟩, -⟩ := hdelivers
    rw [List.isEmpty_iff.mp hnone] at href
    exact List.not_mem_nil href

end Broker

end Courier
