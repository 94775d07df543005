import Courier.Proofs.Broker.Requests

/-!
# Putting Stored Messages Back

After a restart the stored messages are put back one after another, each into the durable queues
whose bindings take it at its address. Nothing but the stored messages is in the queues
afterwards. A queue that replaces no messages has all of those that it takes, in the order in
which they were stored.

## Main definitions

* `Router.replay`, `Router.replayAll`: the queues after messages were put back.
* `Router.Replayed`: what the queues hold then.

## Main results

* `Router.Replayed.replayAll`: the invariant of putting messages back.
* `Router.Replayed.mem_browse`: what is in the queues then.
* `Broker.perform_recover`: recovery is putting back what the store loads.
-/

namespace Courier

/-- Selectors see of times the milliseconds that records tell. -/
theorem Message.context_asRead (m : Message) : m.asRead.context = m.context := by
  have hexpiration : (m.expiration.map Timestamp.truncated).map Timestamp.millis =
      m.expiration.map Timestamp.millis := by
    rw [Option.map_map, Function.comp_def]
    simp only [Timestamp.millis_truncated]
  funext name
  simp only [context, asRead, Timestamp.millis_truncated, hexpiration]
  rfl

theorem Binding.accepts_asRead (b : Binding) (m : Message) : b.accepts m.asRead = b.accepts m := by
  simp only [Binding.accepts, Selector.acceptsAll, Selector.accepts, Message.context_asRead]

namespace Registry

theorem mem_planReplay {r : Registry} {m : Message} {d : Delivery} :
    d ∈ (r.planReplay m).deliveries ↔ d.message = m ∧ d.queue.durable ∧
      ∃ b ∈ r.bindingsFor m.address.text, b.accepts m ∧ b.id = d.binding ∧
        b.kind = .queue d.queue := by
  rw [planReplay, List.mem_map]
  constructor
  · rintro ⟨⟨id, q⟩, hmem, rfl⟩
    obtain ⟨hmem, hdurable⟩ := List.mem_filter.mp hmem
    obtain ⟨b, hb, hid, hkind⟩ := Binding.mem_queues.mp hmem
    obtain ⟨hb, haccepts⟩ := List.mem_filter.mp hb
    exact ⟨rfl, hdurable, b, hb, haccepts, hid, hkind⟩
  · rintro ⟨rfl, hdurable, b, hb, haccepts, hid, hkind⟩
    refine ⟨(d.binding, d.queue), List.mem_filter.mpr ⟨?_, hdurable⟩, rfl⟩
    exact Binding.mem_queues.mpr ⟨b, List.mem_filter.mpr ⟨hb, haccepts⟩, hid, hkind⟩

theorem Sound.bindings_planReplay_nodup {r : Registry} (h : r.Sound) (m : Message) :
    ((r.planReplay m).deliveries.map Delivery.binding).Nodup := by
  have hids := (h.ids_bindingsFor_nodup m.address.text).sublist
    ((List.filter_sublist (p := (·.accepts m))).map Binding.id)
  have hqueues := (hids.sublist (Binding.ids_queues_sublist _)).sublist
    ((List.filter_sublist (p := (·.2.durable))).map Prod.fst)
  simpa [planReplay, Function.comp_def] using hqueues

/-- Whether a message is put back into the queue of a binding. -/
def replaysTo (r : Registry) (id : BindingId) (m : Message) : Bool :=
  (r.planReplay m).deliveries.any (·.binding = id)

/-- A durable queue gets back, in the form in which it was read, a message that it takes. -/
theorem Sound.replaysTo_asRead {r : Registry} (h : r.Sound) {b : Binding} (hb : b ∈ r.named)
    {q : QueueInfo} (hkind : b.kind = .queue q) (hdurable : q.durable) {m : Message}
    (haccepts : r.Accepts b.id m) : r.replaysTo b.id m.asRead := by
  obtain ⟨found, hfound, htakes, hid⟩ := haccepts
  obtain rfl := h.eq_of_id_eq (h.mem_of_mem_bindingsFor hfound) hb hid
  rw [← Binding.accepts_asRead] at htakes
  refine List.any_eq_true.mpr ⟨{ binding := found.id, queue := q, message := m.asRead }, ?_, ?_⟩
  · exact mem_planReplay.mpr ⟨rfl, hdurable, found, hfound, htakes, rfl, hkind⟩
  · exact decide_eq_true rfl

/-- A queue gets a message back once or not at all. -/
theorem Sound.filter_planReplay {r : Registry} (h : r.Sound) (id : BindingId) (m : Message) :
    ((r.planReplay m).deliveries.filter (·.binding = id)).map Delivery.message =
      if r.replaysTo id m then [m] else [] := by
  have hmessage : ∀ d ∈ (r.planReplay m).deliveries, d.message = m :=
    fun d hd => (mem_planReplay.mp hd).1
  have hnodup := h.bindings_planReplay_nodup m
  rw [replaysTo]
  generalize (r.planReplay m).deliveries = deliveries at hmessage hnodup ⊢
  induction deliveries with
  | nil => rfl
  | cons d deliveries ih =>
      obtain ⟨hd, hrest⟩ := List.nodup_cons.mp hnodup
      have ih := ih (fun d hd => hmessage d (.tail _ hd)) hrest
      by_cases hid : d.binding = id
      · have hnone : deliveries.filter (·.binding = id) = [] := by
          refine List.filter_eq_nil_iff.mpr fun d' hd' heq => hd ?_
          exact List.mem_map.mpr ⟨d', hd', (of_decide_eq_true heq).trans hid.symm⟩
        simp [hid, hnone, hmessage d (.head _)]
      · simpa [hid] using ih

end Registry

namespace Router

/-- The queues after a message was put back. -/
def replay (r : Router) (m : Message) : Router :=
  (r.deliverAll (r.registry.planReplay m).deliveries).2

/-- The queues after messages were put back one after another. -/
def replayAll (r : Router) (messages : List Message) : Router :=
  messages.foldl replay r

variable {r : Router}

/-! ### Queues that replace no messages -/

/-- A queue that replaces no messages has a message that is delivered to it behind the others. -/
theorem Sound.browse_deliver (h : r.Sound) {d : Delivery} {deliveries : List Delivery}
    (hd : r.Awaits (d :: deliveries)) {id : BindingId} {q : Queue}
    (hq : r.queues.get? id = some q) (hvalue : q.isLastValue = false) :
    ∃ q', (r.deliver d).2.queues.get? id = some q' ∧ q'.toQueueInfo = q.toQueueInfo ∧
      q'.browse = q.browse ++ if d.binding = id then [d.message] else [] := by
  obtain ⟨found, hfound, -, hnew⟩ := hd.queue d (.head _)
  rw [Router.deliver, hfound]
  by_cases hid : d.binding = id
  · rw [hid, hq] at hfound
    cases hfound
    obtain ⟨out, -, hadd⟩ := (h.queue_sound id q hq).add hnew
    refine ⟨(q.add d.message).2, ?_, hadd.info_eq, ?_⟩
    · rw [hid]
      exact Dictionary.get?_insert_self ..
    · rw [if_pos hid]
      exact (h.queue_sound id q hq).browse_add hvalue d.message
  · refine ⟨q, (Dictionary.get?_insert_of_ne (Ne.symm hid)).trans hq, rfl, ?_⟩
    rw [if_neg hid, List.append_nil]

theorem Sound.browse_deliverAll (h : r.Sound) {deliveries : List Delivery}
    (hd : r.Awaits deliveries) {id : BindingId} {q : Queue} (hq : r.queues.get? id = some q)
    (hvalue : q.isLastValue = false) :
    ∃ q', (r.deliverAll deliveries).2.queues.get? id = some q' ∧ q'.toQueueInfo = q.toQueueInfo ∧
      q'.browse = q.browse ++ (deliveries.filter (·.binding = id)).map Delivery.message := by
  induction deliveries generalizing r q with
  | nil => exact ⟨q, hq, rfl, by simp⟩
  | cons d deliveries ih =>
      obtain ⟨_, -, -, hbecomes, hawaits⟩ := h.deliver hd
      obtain ⟨q₁, hq₁, hinfo₁, hbrowse₁⟩ := h.browse_deliver hd hq hvalue
      have hvalue₁ : q₁.isLastValue = false := by rw [hinfo₁, hvalue]
      obtain ⟨q', hq', hinfo, hbrowse⟩ := ih hbecomes.sound hawaits hq₁ hvalue₁
      refine ⟨q', hq', hinfo.trans hinfo₁, ?_⟩
      rw [hbrowse, hbrowse₁, List.append_assoc, List.filter_cons]
      by_cases hid : d.binding = id <;> simp [hid]

/-! ### Messages that are put back -/

/-- The queues after messages were put back. -/
structure Replayed (r : Router) (done : List Message) (r' : Router) : Prop where
  sound : r'.Sound
  registry_eq : r'.registry = r.registry
  held : ∀ id q', r'.queues.get? id = some q' → ∀ m ∈ q'.heldMessages, m ∈ done
  browse : ∀ id q, r.queues.get? id = some q → q.isLastValue = false →
    ∃ q', r'.queues.get? id = some q' ∧ q'.toQueueInfo = q.toQueueInfo ∧
      q'.browse = q.browse ++ done.filter (r.registry.replaysTo id)

/-- The deliveries of a message that is put back can be carried out. -/
theorem Replayed.awaits {r' : Router} {done : List Message} (h : r.Replayed done r')
    {m : Message} (hm : m.id ∉ done.map Message.id) :
    r'.Awaits (r'.registry.planReplay m).deliveries := by
  refine ⟨fun d hd => ?_, ?_⟩
  · obtain ⟨rfl, -, b, hb, -, hid, hkind⟩ := Registry.mem_planReplay.mp hd
    have hnamed := h.sound.registry.mem_of_mem_bindingsFor hb
    obtain ⟨q, hq, hinfo⟩ := h.sound.queue_of_binding b hnamed d.queue hkind
    rw [hid] at hq
    refine ⟨q, hq, hinfo, fun hmem => hm ?_⟩
    obtain ⟨m, hheld, heq⟩ := List.mem_map.mp hmem
    exact List.mem_map.mpr ⟨m, h.held _ q hq m hheld, heq⟩
  · refine List.Nodup.of_map Prod.fst ?_
    simpa [Function.comp_def] using h.sound.registry.bindings_planReplay_nodup m

/-- No message was put back into empty queues. -/
theorem Sound.replayed_nil (h : r.Sound)
    (hempty : ∀ id q, r.queues.get? id = some q → q.heldMessages = []) : r.Replayed [] r := by
  refine ⟨h, rfl, fun id q hq m hm => ?_, fun id q hq _ => ⟨q, hq, rfl, by simp⟩⟩
  rw [hempty id q hq] at hm
  exact hm

/-- One message is put back. -/
theorem Replayed.replay {r' : Router} {done : List Message} (h : r.Replayed done r')
    {m : Message} (hm : m.id ∉ done.map Message.id) : r.Replayed (done ++ [m]) (r'.replay m) := by
  have hawaits := h.awaits hm
  obtain ⟨_, -, -, hbecomes⟩ := h.sound.deliverAll hawaits
  refine ⟨hbecomes.sound, hbecomes.registry_eq.trans h.registry_eq, ?_, ?_⟩
  · intro id q' hq' n hn
    obtain ⟨q, hq, -, hheld⟩ := hbecomes.queues id q' hq'
    rcases hheld n hn with hn | ⟨d, hd, -, rfl⟩
    · exact List.mem_append_left _ (h.held id q hq n hn)
    · rw [(Registry.mem_planReplay.mp hd).1]
      exact List.mem_append_right _ (.head _)
  · intro id q hq hvalue
    obtain ⟨q₁, hq₁, hinfo₁, hbrowse₁⟩ := h.browse id q hq hvalue
    have hvalue₁ : q₁.isLastValue = false := by rw [hinfo₁, hvalue]
    obtain ⟨q', hq', hinfo, hbrowse⟩ := h.sound.browse_deliverAll hawaits hq₁ hvalue₁
    refine ⟨q', hq', hinfo.trans hinfo₁, ?_⟩
    rw [hbrowse, hbrowse₁, h.registry_eq, List.filter_append, List.append_assoc]
    have hsound := h.sound.registry
    rw [h.registry_eq] at hsound
    rw [hsound.filter_planReplay, List.filter_cons, List.filter_nil]

theorem Replayed.replayAll {r' : Router} {done messages : List Message} (h : r.Replayed done r')
    (hids : ((done ++ messages).map Message.id).Nodup) :
    r.Replayed (done ++ messages) (r'.replayAll messages) := by
  induction messages generalizing r' done with
  | nil =>
      rw [List.append_nil]
      exact h
  | cons m messages ih =>
      rw [List.append_cons] at hids ⊢
      refine ih (h.replay ?_) hids
      rw [List.map_append, List.nodup_append] at hids
      have hfront := hids.1
      rw [List.map_append, List.nodup_append] at hfront
      exact fun hmem => hfront.2.2 _ hmem _ (.head _) rfl

/-- A queue that replaces no messages has the messages that it takes. -/
theorem Replayed.mem_browse {r' : Router} {done : List Message} (h : r.Replayed done r')
    (hr : r.Sound) {id : BindingId} {q' : Queue} (hq' : r'.queues.get? id = some q')
    (hvalue : q'.isLastValue = false) {m : Message} (hm : m ∈ done)
    (hreplays : r.registry.replaysTo id m) : m ∈ q'.browse := by
  obtain ⟨bd, hbd, rfl, hkind⟩ := h.sound.binding_of_queue id q' hq'
  rw [h.registry_eq] at hbd
  obtain ⟨q, hq, hinfo⟩ := hr.queue_of_binding bd hbd q'.toQueueInfo hkind
  rw [← hinfo] at hvalue
  obtain ⟨found, hfound, -, hbrowse⟩ := h.browse bd.id q hq hvalue
  rw [hq'] at hfound
  cases hfound
  rw [hbrowse]
  exact List.mem_append_right _ (List.mem_filter.mpr ⟨hm, hreplays⟩)

end Router

namespace Broker

/-! ### Recovery -/

/-- A plan for a stored message is carried out without storing anything. -/
theorem perform_commit_replay (b : Broker MessageLog) {plan : RoutePlan} (h : plan.replay) :
    ∃ references counts store, b.perform (commit plan) =
      (.ok references, { b with
        router := (b.router.deliverAll plan.deliveries).2
        durableCounts := counts
        store }) := by
  have hrouter : (b.router.commit plan).2 = (b.router.deliverAll plan.deliveries).2 := by
    rw [Router.commit, h]
    rfl
  obtain ⟨counts, store, hrelease⟩ := perform_forM_release
    (perform_releaseId MessageLog.backed)
    { b with
      router := (b.router.commit plan).2
      durableCounts := plan.kept.foldl addReference b.durableCounts }
    ((b.router.commit plan).1.flatMap RoutedReference.releasedIds)
  rw [hrouter] at hrelease
  refine ⟨(b.router.commit plan).1, counts, store, ?_⟩
  rw [commit_eq, persistPlan_of_replay h, perform_bind_ok _ (perform_pure ..),
    perform_bind_ok _ (perform_get _), perform_bind_ok _ (perform_set ..)]
  rw [hrouter, perform_bind_ok _ hrelease, perform_pure]

theorem perform_recoverMessage (b : Broker MessageLog) (m : Message) :
    ∃ found counts store, b.perform (recoverMessage m) =
      (.ok found, { b with router := b.router.replay m, durableCounts := counts, store }) := by
  rw [recoverMessage, perform_bind_ok _ (perform_get _)]
  dsimp only
  split
  · next hempty =>
      have hnone : (b.router.registry.planReplay m).deliveries = [] := List.isEmpty_iff.mp hempty
      refine ⟨false, b.durableCounts, b.store.remove m.id, ?_⟩
      rw [Router.replay, hnone]
      rfl
  · have hreplay : (b.router.registry.planReplay m).replay := rfl
    obtain ⟨references, counts, store, hcommit⟩ := perform_commit_replay b hreplay
    refine ⟨true, counts, store, ?_⟩
    rw [perform_bind, perform_discard, hcommit]
    rfl

theorem perform_mapM_recoverMessage (b : Broker MessageLog) (messages : List Message) :
    ∃ found counts store, b.perform (messages.mapM recoverMessage) =
      (.ok found, { b with
        router := b.router.replayAll messages
        durableCounts := counts
        store }) := by
  induction messages generalizing b with
  | nil => exact ⟨[], b.durableCounts, b.store, rfl⟩
  | cons m messages ih =>
      obtain ⟨found, counts, store, hfirst⟩ := perform_recoverMessage b m
      obtain ⟨others, counts', store', hrest⟩ :=
        ih { b with router := b.router.replay m, durableCounts := counts, store }
      refine ⟨found :: others, counts', store', ?_⟩
      rw [List.mapM_cons, perform_bind_ok _ hfirst, perform_bind_ok _ hrest]
      rfl

/-- **Recovery puts back what the store loads.** -/
theorem perform_recover {b : Broker MessageLog} {messages : List Message}
    (h : b.store.load = .ok messages) :
    ∃ n counts store, b.perform recover =
      (.ok n, { b with
        router := b.router.replayAll messages
        durableCounts := counts
        store }) := by
  obtain ⟨found, counts, store, hperform⟩ := perform_mapM_recoverMessage b messages
  have hload : MessageStore.load b.store = .ok messages := by
    change b.store.load.mapError WireError.message = .ok messages
    rw [h]
    rfl
  refine ⟨found.countP id, counts, store, ?_⟩
  rw [recover, perform_bind_ok _ (perform_get _), hload]
  dsimp only
  rw [perform_bind_ok _ hperform, perform_pure]

end Broker

end Courier
