import Courier.Broker.Durability
import Courier.Proofs.Routing

/-!
# What the Queues of a Router Hold

The store keeps a message once for each durable queue that holds it. The list of the messages
that are held in this sense is followed through everything that happens to the queues of a
router: one queue changes, a plan is carried out, a queue is bound or withdrawn.

## Main definitions

* `Router.kept`: the durable messages in durable queues, once for each queue.
* `Router.Bound`: the queues are those of the queue bindings.
* `Router.Sound`: moreover each of them is sound.
* `Router.Becomes`: a router after messages left its queues and others came.

## Main results

* `Router.Sound.setQueue`: one queue changes.
* `Router.Sound.deliverAll`: a plan is carried out.
* `Router.Sound.bindQueue?`, `Router.Sound.unbindQueue`: a queue is bound or withdrawn.
-/

namespace Courier

/-- The durable messages in a durable queue. -/
def Queue.keptMessages (q : Queue) : List Message :=
  q.heldMessages.filter q.keeps

theorem Queue.Becomes.kept_perm {q q' : Queue} {out into : List Message} {slots : List Slot}
    (h : q.Becomes out into slots q') :
    (out.filter q.keeps ++ q'.keptMessages).Perm (into.filter q.keeps ++ q.keptMessages) := by
  have hperm := h.perm.filter q.keeps
  rw [List.filter_append, List.filter_append] at hperm
  rwa [keptMessages, keptMessages, h.info_eq]

/-- What is held after a change was held before or came. -/
theorem Queue.Becomes.mem_or_mem {q q' : Queue} {out into : List Message} {slots : List Slot}
    (h : q.Becomes out into slots q') {m : Message} (hm : m ∈ q'.heldMessages) :
    m ∈ q.heldMessages ∨ m ∈ into := by
  have hmem := h.perm.mem_iff.mp (List.mem_append_right out hm)
  exact (List.mem_append.mp hmem).symm

/-- The identifiers that a durable queue lets go of when it takes a message. -/
def RoutedReference.releasedIds (r : RoutedReference) : List MessageId :=
  if r.queue.durable then r.outcome.replacedIds else []

namespace Router

/-- The durable messages in durable queues, once for each queue. -/
def kept (r : Router) : List Message :=
  r.queues.values.flatMap Queue.keptMessages

/-- The queues of a router are those of its queue bindings. -/
structure Sound (r : Router) : Prop where
  registry : r.registry.Sound
  queue_of_binding : ∀ b ∈ r.registry.named, ∀ info, b.kind = .queue info →
    ∃ q, r.queues.get? b.id = some q ∧ q.toQueueInfo = info
  binding_of_queue : ∀ id q, r.queues.get? id = some q →
    ∃ b ∈ r.registry.named, b.id = id ∧ b.kind = .queue q.toQueueInfo
  queue_sound : ∀ id q, r.queues.get? id = some q → q.Sound

/-- The queues of a router are those of its queue bindings, whatever they hold. -/
structure Bound (r : Router) : Prop where
  registry : r.registry.Sound
  queue_of_binding : ∀ b ∈ r.registry.named, ∀ info, b.kind = .queue info →
    ∃ q, r.queues.get? b.id = some q ∧ q.toQueueInfo = info
  binding_of_queue : ∀ id q, r.queues.get? id = some q →
    ∃ b ∈ r.registry.named, b.id = id ∧ b.kind = .queue q.toQueueInfo

theorem Sound.bound {r : Router} (h : r.Sound) : r.Bound :=
  ⟨h.registry, h.queue_of_binding, h.binding_of_queue⟩

theorem Bound.sound {r : Router} (h : r.Bound)
    (hqueues : ∀ id q, r.queues.get? id = some q → q.Sound) : r.Sound :=
  ⟨h.registry, h.queue_of_binding, h.binding_of_queue, hqueues⟩

/-- A router after kept messages left its queues and others came. Whatever is held afterwards was
held before or came to its queue. -/
structure Becomes (r : Router) (out into : List Message) (came : BindingId → Message → Prop)
    (r' : Router) : Prop where
  sound : r'.Sound
  registry_eq : r'.registry = r.registry
  hops_eq : r'.maxDivertHops = r.maxDivertHops
  kept_perm : (out ++ r'.kept).Perm (into ++ r.kept)
  queues : ∀ id q', r'.queues.get? id = some q' →
    ∃ q, r.queues.get? id = some q ∧ q'.toQueueInfo = q.toQueueInfo ∧
      ∀ m ∈ q'.heldMessages, m ∈ q.heldMessages ∨ came id m

variable {r : Router}

theorem Becomes.withCounters {r' : Router} {out into : List Message}
    {came : BindingId → Message → Prop} (h : r.Becomes out into came r')
    (counters : RouterCounters) : r.Becomes out into came { r' with counters } :=
  ⟨⟨h.sound.registry, h.sound.queue_of_binding, h.sound.binding_of_queue, h.sound.queue_sound⟩,
    h.registry_eq, h.hops_eq, h.kept_perm, h.queues⟩

/-- One change and then another. -/
theorem Becomes.trans {r' r'' : Router} {out into out' into' : List Message}
    {came came' : BindingId → Message → Prop} (h : r.Becomes out into came r')
    (h' : r'.Becomes out' into' came' r'') :
    r.Becomes (out ++ out') (into ++ into') (fun id m => came id m ∨ came' id m) r'' := by
  refine ⟨h'.sound, h'.registry_eq.trans h.registry_eq, h'.hops_eq.trans h.hops_eq, ?_, ?_⟩
  · have hfirst := h'.kept_perm.append_left out
    have hthen := (List.perm_append_comm_assoc out into' r'.kept).trans
      (h.kept_perm.append_left into')
    rw [List.append_assoc, List.append_assoc]
    exact (hfirst.trans hthen).trans (List.perm_append_comm_assoc ..)
  · intro id q'' hq''
    obtain ⟨q', hq', hinfo', hheld'⟩ := h'.queues id q'' hq''
    obtain ⟨q, hq, hinfo, hheld⟩ := h.queues id q' hq'
    refine ⟨q, hq, hinfo'.trans hinfo, fun m hm => ?_⟩
    rcases hheld' m hm with hm | hm
    · exact (hheld m hm).imp_right .inl
    · exact .inr (.inr hm)

/-- The queues apart from one of them. -/
theorem kept_perm_of_get? {id : BindingId} {q : Queue} (hq : r.queues.get? id = some q) :
    r.kept.Perm (q.keptMessages ++ (r.queues.erase id).values.flatMap Queue.keptMessages) :=
  (Dictionary.values_perm_of_get? hq).flatMap_right _

theorem kept_insert_perm (r : Router) (id : BindingId) (q : Queue) :
    ({ r with queues := r.queues.insert id q } : Router).kept.Perm
      (q.keptMessages ++ (r.queues.erase id).values.flatMap Queue.keptMessages) :=
  (r.queues.values_insert_perm id q).flatMap_right _

/-- A queue of the same name and settings takes the place of another. -/
theorem Bound.setQueue (h : r.Bound) {id : BindingId} {q q' : Queue}
    (hq : r.queues.get? id = some q) (hinfo : q'.toQueueInfo = q.toQueueInfo) :
    Bound { r with queues := r.queues.insert id q' } := by
  refine ⟨h.registry, ?_, ?_⟩
  · intro b hb info hkind
    obtain ⟨found, hfound, hsame⟩ := h.queue_of_binding b hb info hkind
    by_cases hid : b.id = id
    · rw [hid, hq] at hfound
      cases hfound
      exact ⟨q', by rw [hid, Dictionary.get?_insert_self], hinfo.trans hsame⟩
    · exact ⟨found, (Dictionary.get?_insert_of_ne hid).trans hfound, hsame⟩
  · intro id' found hfound
    rw [Dictionary.get?_insert] at hfound
    split at hfound
    · next hid =>
        cases hfound
        rw [hid, hinfo]
        exact h.binding_of_queue id q hq
    · exact h.binding_of_queue id' found hfound

/-- A queue changes. -/
theorem Sound.setQueue (h : r.Sound) {id : BindingId} {q q' : Queue} {out into : List Message}
    (hq : r.queues.get? id = some q) (hq' : q.Becomes out into q'.order q') :
    r.Becomes (out.filter q.keeps) (into.filter q.keeps) (fun id' m => id' = id ∧ m ∈ into)
      { r with queues := r.queues.insert id q' } := by
  refine ⟨(h.bound.setQueue hq hq'.info_eq).sound ?_, rfl, rfl, ?_, ?_⟩
  · intro id' found hfound
    rw [Dictionary.get?_insert] at hfound
    split at hfound
    · cases hfound
      exact hq'.sound
    · exact h.queue_sound id' found hfound
  · refine ((kept_insert_perm r id q').append_left _).trans ?_
    refine List.Perm.trans ?_ ((kept_perm_of_get? hq).symm.append_left _)
    rw [← List.append_assoc, ← List.append_assoc]
    exact hq'.kept_perm.append_right _
  · intro id' found hfound
    rw [Dictionary.get?_insert] at hfound
    split at hfound
    · next hid =>
        cases hfound
        refine ⟨q, hid ▸ hq, hq'.info_eq, fun m hm => ?_⟩
        exact (hq'.mem_or_mem hm).imp_right fun hm => ⟨hid, hm⟩
    · exact ⟨found, hfound, rfl, fun m hm => .inl hm⟩

/-! ### Carrying plans out -/

/-- A delivery adds the message to its queue and leaves the others alone. -/
theorem get?_deliver (r : Router) (d : Delivery) (id : BindingId) :
    (r.deliver d).2.queues.get? id =
      (r.queues.get? id).map fun q => if id = d.binding then (q.add d.message).2 else q := by
  rw [Router.deliver]
  split
  · next q hq =>
      rw [Dictionary.get?_insert]
      split
      · next hid =>
          rw [hid, hq]
          rfl
      · simp
  · next hnone =>
      by_cases hid : id = d.binding
      · simp [hid, hnone]
      · simp [hid]

theorem isSome_get?_deliver (r : Router) (d : Delivery) (id : BindingId) :
    ((r.deliver d).2.queues.get? id).isSome = (r.queues.get? id).isSome := by
  rw [get?_deliver, Option.isSome_map]

/-- Deliveries that can be carried out: their queues are there and do not hold the messages, and
no queue gets two messages with one identifier. -/
structure Awaits (r : Router) (deliveries : List Delivery) : Prop where
  queue : ∀ d ∈ deliveries, ∃ q, r.queues.get? d.binding = some q ∧ q.toQueueInfo = d.queue ∧
    d.message.id ∉ q.heldMessages.map Message.id
  pairs_nodup : (deliveries.map fun d => (d.binding, d.message.id)).Nodup

/-- The messages of deliveries that the store keeps, once for each delivery. -/
def keptOf (deliveries : List Delivery) : List Message :=
  (deliveries.filter fun d => d.queue.keeps d.message).map Delivery.message

theorem exists_of_mem_keptOf {deliveries : List Delivery} {m : Message}
    (hm : m ∈ keptOf deliveries) : ∃ d ∈ deliveries, d.message = m := by
  obtain ⟨d, hd, rfl⟩ := List.mem_map.mp hm
  exact ⟨d, (List.mem_filter.mp hd).1, rfl⟩

/-- Messages that durable queues let go of. They were held before or are delivered themselves. -/
def Displaced (r : Router) (deliveries : List Delivery) (m : Message) : Prop :=
  (∃ id q, r.queues.get? id = some q ∧ m ∈ q.heldMessages) ∨ ∃ d ∈ deliveries, d.message = m

/-- One delivery. -/
theorem Sound.deliver (h : r.Sound) {d : Delivery} {deliveries : List Delivery}
    (hd : r.Awaits (d :: deliveries)) :
    ∃ displaced : List Message,
      displaced.map Message.id = (r.deliver d).1.flatMap RoutedReference.releasedIds ∧
      (∀ m ∈ displaced, r.Displaced [d] m) ∧
      r.Becomes (displaced.filter Message.durable) (keptOf [d])
        (fun id m => d.binding = id ∧ d.message = m) (r.deliver d).2 ∧
      (r.deliver d).2.Awaits deliveries := by
  obtain ⟨q, hq, hinfo, hid⟩ := hd.queue d (.head _)
  obtain ⟨hpair, hpairs⟩ := List.nodup_cons.mp hd.pairs_nodup
  obtain ⟨out, hout, hadd⟩ := (h.queue_sound _ q hq).add hid
  have hset := h.setQueue hq hadd
  have hheld : ∀ m ∈ out, r.Displaced [d] m := by
    intro m hm
    have hmem := hadd.perm.mem_iff.mp (List.mem_append_left _ hm)
    rcases List.mem_cons.mp hmem with rfl | hmem
    · exact .inr ⟨d, .head _, rfl⟩
    · exact .inl ⟨_, q, hq, hmem⟩
  have hkeeps : [d.message].filter q.keeps = keptOf [d] := by
    cases hk : d.queue.keeps d.message <;> simp [keptOf, hinfo, hk]
  have hcame : ∀ id m, (id = d.binding ∧ m ∈ [d.message]) → d.binding = id ∧ d.message = m := by
    rintro id m ⟨rfl, hm⟩
    exact ⟨rfl, (List.mem_singleton.mp hm).symm⟩
  rw [Router.deliver, hq]
  refine ⟨if d.queue.durable then out else [], ?_, ?_, ?_, ?_⟩
  · cases hdurable : d.queue.durable <;> simp [RoutedReference.releasedIds, hdurable, hout]
  · intro m hm
    split at hm
    · exact hheld m hm
    · cases hm
  · have hfilter : (if d.queue.durable then out else []).filter Message.durable =
        out.filter q.keeps := by
      rw [hinfo]
      cases hdurable : d.queue.durable with
      | true => exact List.filter_congr fun m _ => by simp [QueueInfo.keeps, hdurable]
      | false =>
          refine (List.filter_eq_nil_iff.mpr fun m _ => ?_).symm
          simp [QueueInfo.keeps, hdurable]
    rw [hfilter, ← hkeeps]
    refine ⟨hset.sound, hset.registry_eq, hset.hops_eq, hset.kept_perm, fun id q' hq' => ?_⟩
    obtain ⟨before, hbefore, hsame, hmem⟩ := hset.queues id q' hq'
    exact ⟨before, hbefore, hsame, fun m hm => (hmem m hm).imp_right (hcame id m)⟩
  · refine ⟨fun d' hd' => ?_, hpairs⟩
    obtain ⟨q', hq', hinfo', hid'⟩ := hd.queue d' (.tail _ hd')
    by_cases hsame : d'.binding = d.binding
    · rw [hsame, hq] at hq'
      cases hq'
      refine ⟨_, by rw [hsame]; exact Dictionary.get?_insert_self .., ?_, ?_⟩
      · exact hadd.info_eq.trans hinfo'
      · intro hmem
        obtain ⟨m, hm, heq⟩ := List.mem_map.mp hmem
        rcases hadd.mem_or_mem hm with hm | hm
        · exact hid' (List.mem_map.mpr ⟨m, hm, heq⟩)
        · obtain rfl := List.mem_singleton.mp hm
          exact hpair (List.mem_map.mpr ⟨d', hd', by rw [hsame, ← heq]⟩)
    · exact ⟨q', (Dictionary.get?_insert_of_ne hsame).trans hq', hinfo', hid'⟩

theorem Displaced.mono {r' : Router} {deliveries : List Delivery} {d : Delivery} {m : Message}
    {out into : List Message}
    (hr : r.Becomes out into (fun id m => d.binding = id ∧ d.message = m) r')
    (h : r'.Displaced deliveries m) : r.Displaced (d :: deliveries) m := by
  rcases h with ⟨id, q', hq', hm⟩ | ⟨d', hd', hm⟩
  · obtain ⟨q, hq, -, hheld⟩ := hr.queues id q' hq'
    rcases hheld m hm with hm | ⟨-, hm⟩
    · exact .inl ⟨id, q, hq, hm⟩
    · exact .inr ⟨d, .head _, hm⟩
  · exact .inr ⟨d', .tail _ hd', hm⟩

/-- **A plan is carried out**: the kept messages are those of before and those of the plan, less
the ones that durable queues let go of. -/
theorem Sound.deliverAll (h : r.Sound) {deliveries : List Delivery} (hd : r.Awaits deliveries) :
    ∃ displaced : List Message,
      displaced.map Message.id =
        (r.deliverAll deliveries).1.flatMap RoutedReference.releasedIds ∧
      (∀ m ∈ displaced, r.Displaced deliveries m) ∧
      r.Becomes (displaced.filter Message.durable) (keptOf deliveries)
        (fun id m => ∃ d ∈ deliveries, d.binding = id ∧ d.message = m)
        (r.deliverAll deliveries).2 := by
  induction deliveries generalizing r with
  | nil =>
      refine ⟨[], rfl, fun m hm => absurd hm List.not_mem_nil, h, rfl, rfl, .refl _, ?_⟩
      exact fun id q' hq' => ⟨q', hq', rfl, fun m hm => .inl hm⟩
  | cons d deliveries ih =>
      obtain ⟨first, hfirst, hheld, hbecomes, hawaits⟩ := h.deliver hd
      obtain ⟨others, hothers, hheld', hbecomes'⟩ := ih hbecomes.sound hawaits
      have hboth := hbecomes.trans hbecomes'
      refine ⟨first ++ others, ?_, ?_, hboth.sound, hboth.registry_eq, hboth.hops_eq, ?_, ?_⟩
      · rw [List.map_append, hfirst, hothers, ← List.flatMap_append]
        rfl
      · intro m hm
        rcases List.mem_append.mp hm with hm | hm
        · refine (hheld m hm).imp_right ?_
          rintro ⟨d', hd', rfl⟩
          obtain rfl := List.mem_singleton.mp hd'
          exact ⟨d', .head _, rfl⟩
        · exact (hheld' m hm).mono hbecomes
      · have hkept : keptOf (d :: deliveries) = keptOf [d] ++ keptOf deliveries := by
          rw [keptOf, keptOf, keptOf, ← List.map_append, ← List.filter_append]
          rfl
        rw [List.filter_append, hkept]
        exact hboth.kept_perm
      · intro id q' hq'
        obtain ⟨q, hq, hinfo, hmem⟩ := hboth.queues id q' hq'
        refine ⟨q, hq, hinfo, fun m hm => (hmem m hm).imp_right ?_⟩
        rintro (⟨hid, hm⟩ | ⟨d', hd', hid, hm⟩)
        · exact ⟨d, .head _, hid, hm⟩
        · exact ⟨d', .tail _ hd', hid, hm⟩

/-! ### Binding and withdrawing -/

theorem Bound.get?_eq_none (h : r.Bound) {id : BindingId}
    (hid : id ∉ r.registry.named.map Binding.id) : r.queues.get? id = none := by
  rcases hq : r.queues.get? id with _ | q
  · rfl
  · obtain ⟨b, hb, hbid, -⟩ := h.binding_of_queue id q hq
    exact absurd (List.mem_map.mpr ⟨b, hb, hbid⟩) hid

theorem sound_empty (w : Wildcards) (hops : Nat) :
    Sound { registry := .empty w, maxDivertHops := hops } :=
  ⟨Registry.sound_empty w, nofun, nofun, nofun⟩

/-- A new queue is empty. -/
theorem Bound.bindQueue? (h : r.Bound) {info : QueueInfo} {filter : Option Selector} {b : Binding}
    {r' : Router} (hbind : r.bindQueue? info filter = some (b, r')) :
    r'.Bound ∧ r.registry.byName.get? info.name = none ∧
      r'.registry.byName = r.registry.byName.insert info.name b ∧ b.kind = .queue info ∧
      r'.queues = r.queues.insert b.id { info with } ∧ r.queues.get? b.id = none := by
  obtain ⟨⟨b', registry⟩, hadd, heq⟩ := Option.map_eq_some_iff.mp hbind
  cases heq
  obtain ⟨hsound, hperm, hnone, hbyName, hb, hnew⟩ := h.registry.add? hadd
  have hkind : b.kind = .queue info := by rw [hb]
  refine ⟨⟨hsound, ?_, ?_⟩, hnone, hbyName, hkind, rfl, h.get?_eq_none hnew⟩
  · intro c hc other hother
    rcases List.mem_cons.mp (hperm.mem_iff.mp hc) with rfl | hc
    · rw [hkind] at hother
      cases hother
      exact ⟨_, Dictionary.get?_insert_self .., rfl⟩
    · have hne : c.id ≠ b.id := fun heq => hnew (List.mem_map.mpr ⟨c, hc, heq⟩)
      obtain ⟨q, hq, hinfo⟩ := h.queue_of_binding c hc other hother
      exact ⟨q, (Dictionary.get?_insert_of_ne hne).trans hq, hinfo⟩
  · intro id q hq
    rw [Dictionary.get?_insert] at hq
    split at hq
    · next hid =>
        cases hq
        exact ⟨b, hperm.mem_iff.mpr (.head _), hid.symm, hkind⟩
    · obtain ⟨c, hc, hid, hckind⟩ := h.binding_of_queue id q hq
      exact ⟨c, hperm.mem_iff.mpr (.tail _ hc), hid, hckind⟩

theorem Sound.bindQueue? (h : r.Sound) {info : QueueInfo} {filter : Option Selector} {b : Binding}
    {r' : Router} (hbind : r.bindQueue? info filter = some (b, r')) :
    r'.Sound ∧ r.registry.byName.get? info.name = none ∧
      r'.registry.byName = r.registry.byName.insert info.name b ∧ b.kind = .queue info ∧
      r'.queues = r.queues.insert b.id { info with } ∧ r.queues.get? b.id = none := by
  obtain ⟨hbound, hnone, hbyName, hkind, hqueues, hnew⟩ := h.bound.bindQueue? hbind
  refine ⟨hbound.sound fun id q hq => ?_, hnone, hbyName, hkind, hqueues, hnew⟩
  rw [hqueues, Dictionary.get?_insert] at hq
  split at hq
  · cases hq
    exact Queue.sound_new info
  · exact h.queue_sound id q hq

theorem kept_bindQueue {b : Binding} {info : QueueInfo} (hnone : r.queues.get? b.id = none) :
    (r.queues.insert b.id { info with }).values.flatMap Queue.keptMessages |>.Perm r.kept :=
  (Dictionary.values_insert_perm_of_get?_eq_none { info with } hnone).flatMap_right _

/-- A new divert leaves the queues alone. -/
theorem Bound.bindDivert? (h : r.Bound) {divert : Divert} {filter : Option Selector} {b : Binding}
    {r' : Router} (hbind : r.bindDivert? divert filter = some (b, r')) :
    r'.Bound ∧ r.registry.byName.get? divert.name = none ∧
      r'.registry.byName = r.registry.byName.insert divert.name b ∧ b.kind = .divert divert ∧
      r'.queues = r.queues := by
  obtain ⟨⟨b', registry⟩, hadd, heq⟩ := Option.map_eq_some_iff.mp hbind
  cases heq
  obtain ⟨hsound, hperm, hnone, hbyName, hb, -⟩ := h.registry.add? hadd
  have hkind : b.kind = .divert divert := by rw [hb]
  refine ⟨⟨hsound, ?_, ?_⟩, hnone, hbyName, hkind, rfl⟩
  · intro c hc info hinfo
    rcases List.mem_cons.mp (hperm.mem_iff.mp hc) with rfl | hc
    · rw [hkind] at hinfo
      cases hinfo
    · exact h.queue_of_binding c hc info hinfo
  · intro id q hq
    obtain ⟨c, hc, hid, hckind⟩ := h.binding_of_queue id q hq
    exact ⟨c, hperm.mem_iff.mpr (.tail _ hc), hid, hckind⟩

theorem Sound.bindDivert? (h : r.Sound) {divert : Divert} {filter : Option Selector} {b : Binding}
    {r' : Router} (hbind : r.bindDivert? divert filter = some (b, r')) :
    r'.Sound ∧ r.registry.byName.get? divert.name = none ∧
      r'.registry.byName = r.registry.byName.insert divert.name b ∧ b.kind = .divert divert ∧
      r'.queues = r.queues := by
  obtain ⟨hbound, hnone, hbyName, hkind, hqueues⟩ := h.bound.bindDivert? hbind
  exact ⟨hbound.sound (hqueues ▸ h.queue_sound), hnone, hbyName, hkind, hqueues⟩

/-- The binding of a name is withdrawn. -/
theorem Bound.unbind (h : r.Bound) {name : String} {b : Binding}
    (hb : r.registry.byName.get? name = some b) :
    (r.unbind name).registry.Sound ∧ (r.unbind name).queues = r.queues ∧
      (r.unbind name).registry.byName = r.registry.byName.erase name ∧
      r.registry.named.Perm (b :: (r.unbind name).registry.named) := by
  have hunbind : ∃ registry, r.registry.remove? name = some (b, registry) ∧
      r.unbind name = { r with registry } := by
    simp [Router.unbind, unbind?, Registry.remove?, Registry.get?, hb]
  obtain ⟨registry, hremove, heq⟩ := hunbind
  obtain ⟨hsound, -, hbyName, hperm⟩ := h.registry.remove? hremove
  rw [heq]
  exact ⟨hsound, rfl, hbyName, hperm⟩

/-- A withdrawn queue takes what it holds along. -/
theorem Bound.unbindQueue (h : r.Bound) {name : String} {b : Binding} {info : QueueInfo}
    (hb : r.registry.byName.get? name = some b) (hkind : b.kind = .queue info) :
    Bound { r.unbind name with queues := (r.unbind name).queues.erase b.id } := by
  obtain ⟨hsound, hqueues, -, hperm⟩ := h.unbind hb
  have hids := List.nodup_cons.mp ((hperm.map Binding.id).nodup_iff.mp h.registry.ids_nodup)
  rw [hqueues]
  refine ⟨hsound, ?_, ?_⟩
  · intro c hc other hother
    have hne : c.id ≠ b.id := fun heq => hids.1 (List.mem_map.mpr ⟨c, hc, heq⟩)
    obtain ⟨q, hq, hinfo⟩ := h.queue_of_binding c (hperm.mem_iff.mpr (.tail _ hc)) other hother
    exact ⟨q, (Dictionary.get?_erase_of_ne hne).trans hq, hinfo⟩
  · intro id q hq
    rw [Dictionary.get?_erase] at hq
    split at hq
    · cases hq
    · next hne =>
        obtain ⟨c, hc, hid, hckind⟩ := h.binding_of_queue id q hq
        rcases List.mem_cons.mp (hperm.mem_iff.mp hc) with rfl | hc
        · exact absurd hid.symm hne
        · exact ⟨c, hc, hid, hckind⟩

theorem Sound.unbindQueue (h : r.Sound) {name : String} {b : Binding} {info : QueueInfo}
    (hb : r.registry.byName.get? name = some b) (hkind : b.kind = .queue info) :
    Sound { r.unbind name with queues := (r.unbind name).queues.erase b.id } := by
  refine (h.bound.unbindQueue hb hkind).sound fun id q hq => ?_
  rw [(h.bound.unbind hb).2.1, Dictionary.get?_erase] at hq
  split at hq
  · cases hq
  · exact h.queue_sound id q hq

/-- A withdrawn divert leaves the queues alone. -/
theorem Bound.unbindDivert (h : r.Bound) {name : String} {b : Binding} {divert : Divert}
    (hb : r.registry.byName.get? name = some b) (hkind : b.kind = .divert divert) :
    (r.unbind name).Bound := by
  obtain ⟨hsound, hqueues, -, hperm⟩ := h.unbind hb
  refine ⟨hsound, ?_, ?_⟩
  · intro c hc info hinfo
    rw [hqueues]
    exact h.queue_of_binding c (hperm.mem_iff.mpr (.tail _ hc)) info hinfo
  · intro id q hq
    rw [hqueues] at hq
    obtain ⟨c, hc, hid, hckind⟩ := h.binding_of_queue id q hq
    rcases List.mem_cons.mp (hperm.mem_iff.mp hc) with rfl | hc
    · rw [hkind] at hckind
      cases hckind
    · exact ⟨c, hc, hid, hckind⟩

theorem Sound.unbindDivert (h : r.Sound) {name : String} {b : Binding} {divert : Divert}
    (hb : r.registry.byName.get? name = some b) (hkind : b.kind = .divert divert) :
    (r.unbind name).Sound :=
  (h.bound.unbindDivert hb hkind).sound ((h.bound.unbind hb).2.1 ▸ h.queue_sound)

end Router

end Courier
