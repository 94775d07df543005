import Courier.Proofs.Broker.Durability

/-!
# The Books of a Broker

A broker keeps books about durable messages: it counts the references that durable queues hold to
each of them, and its store is to have exactly those with a reference. Between the moment at
which a queue lets go of a message and the moment at which the books are told, the message is
owed; an action may begin and end with owed messages.

## Conventions

The pool is the list of all messages that ever came to the broker or were made by it. Their
identifiers differ, and differ from those that the supply will hand out up to a given turn. What
the store had taken and given up before the broker was deployed over it is in no books; the store
does not know the identifiers of the pool from then.

A predicate on queues and messages is carried along that holds of everything that queues hold; it
has to hold of what the bindings accept.

## Main definitions

* `Leftovers`: what was in a store before.
* `Books`: the invariant.
* `Registry.Accepts`: a binding takes a message at its address.

## Main results

* `Books.setQueue`: a queue changes.
* `Books.releaseId`, `Books.releaseAll`: an owed message is let go of.
* `Books.commit`: a plan is stored and carried out, or the store refuses it and nothing else
  changes.
* `Books.publish`: a message is published.
-/

namespace Courier

/-- Some binding with a number takes a message at its address. -/
def Registry.Accepts (r : Registry) (id : BindingId) (m : Message) : Prop :=
  ∃ b ∈ r.bindingsFor m.address.text, b.accepts m ∧ b.id = id

/-- What a store had taken and given up before a broker was deployed over it. -/
structure Leftovers where
  /-- The messages that it had taken. -/
  stored : List Message := []
  /-- The identifiers of those that it had given up. -/
  removed : List MessageId := []

namespace Leftovers

/-- The identifiers that the store knows. -/
def names (l : Leftovers) : List MessageId :=
  l.stored.map Message.id ++ l.removed

/-- Identifiers that differ and that the store does not know. -/
structure Admits (l : Leftovers) (ids : List MessageId) : Prop where
  nodup : ids.Nodup
  new : ∀ id ∈ ids, id ∉ l.names

variable {l : Leftovers} {ids ids' : List MessageId}

theorem admits_iff_of_empty : Admits {} ids ↔ ids.Nodup :=
  ⟨Admits.nodup, fun h => ⟨h, fun _ _ => List.not_mem_nil⟩⟩

theorem Admits.perm (h : l.Admits ids) (hperm : ids'.Perm ids) : l.Admits ids' :=
  ⟨hperm.nodup_iff.mpr h.nodup, fun id hid => h.new id (hperm.mem_iff.mp hid)⟩

theorem Admits.sublist (h : l.Admits ids) (hsub : ids'.Sublist ids) : l.Admits ids' :=
  ⟨h.nodup.sublist hsub, fun id hid => h.new id (hsub.subset hid)⟩

end Leftovers

/-- The books are right, up to some owed messages. -/
structure Books (good : BindingId → Message → Prop) (turns : Nat) (prior : Leftovers)
    (pool owed appended : List Message) (b : Broker MessageLog) : Prop where
  router : b.router.Sound
  fresh : prior.Admits (pool.map Message.id ++ b.ids.handedOut turns)
  readable : ∀ m ∈ pool, m.Readable
  held : ∀ id q, b.router.queues.get? id = some q → ∀ m ∈ q.heldMessages, m ∈ pool ∧ good id m
  owed_mem : ∀ m ∈ owed, m ∈ pool ∧ m.durable
  stored : b.store.Holds (prior.stored ++ appended)
  appended_mem : ∀ m ∈ appended, m ∈ pool
  appended_nodup : (appended.map Message.id).Nodup
  count_eq : ∀ id, b.durableCounts.get? id =
    positive (((b.router.kept ++ owed).map Message.id).count id)
  removed_mem : ∀ id ∈ b.store.removed, id ∈ prior.removed ∨ id ∈ appended.map Message.id
  removed_iff : ∀ m ∈ appended,
    m.id ∈ b.store.removed ↔ m.id ∉ (b.router.kept ++ owed).map Message.id
  kept_mem : ∀ m ∈ b.router.kept ++ owed, m ∈ appended

namespace Router

/-- The kept messages are the durable ones that durable queues hold. -/
theorem mem_kept_iff {r : Router} {m : Message} :
    m ∈ r.kept ↔
      m.durable ∧ ∃ id q, r.queues.get? id = some q ∧ q.durable ∧ m ∈ q.heldMessages := by
  constructor
  · intro h
    obtain ⟨q, hq, hm⟩ := List.mem_flatMap.mp h
    obtain ⟨id, hid⟩ := Dictionary.mem_values_iff.mp hq
    obtain ⟨hheld, hkeeps⟩ := List.mem_filter.mp hm
    rw [QueueInfo.keeps, Bool.and_eq_true] at hkeeps
    exact ⟨hkeeps.1, id, q, hid, hkeeps.2, hheld⟩
  · rintro ⟨hlasts, id, q, hid, hdurable, hheld⟩
    refine List.mem_flatMap.mpr ⟨q, Dictionary.mem_values_iff.mpr ⟨id, hid⟩, ?_⟩
    refine List.mem_filter.mpr ⟨hheld, ?_⟩
    rw [QueueInfo.keeps, Bool.and_eq_true]
    exact ⟨hlasts, hdurable⟩

end Router

namespace Books

variable {good : BindingId → Message → Prop} {turns : Nat} {prior : Leftovers}
  {pool owed appended : List Message} {b : Broker MessageLog}

/-- Messages of the pool with one identifier are the same message. -/
theorem eq_of_id_eq (h : Books good turns prior pool owed appended b) {m m' : Message}
    (hm : m ∈ pool) (hm' : m' ∈ pool) (hid : m.id = m'.id) : m = m' :=
  List.inj_on_of_nodup_map (List.nodup_append.mp h.fresh.nodup).1 hm hm' hid

/-- The store does not know messages of the pool from before. -/
theorem id_notMem_names (h : Books good turns prior pool owed appended b) {m : Message}
    (hm : m ∈ pool) : m.id ∉ prior.names :=
  h.fresh.new m.id (List.mem_append_left _ (List.mem_map_of_mem hm))

/-- What the store was given differs from what it had before. -/
theorem nodup_stored (h : Books good turns prior pool owed appended b)
    (hprior : (prior.stored.map Message.id).Nodup) :
    ((prior.stored ++ appended).map Message.id).Nodup := by
  rw [List.map_append, List.nodup_append]
  refine ⟨hprior, h.appended_nodup, ?_⟩
  rintro id hid _ hid' rfl
  obtain ⟨m, hm, rfl⟩ := List.mem_map.mp hid'
  exact h.id_notMem_names (h.appended_mem m hm) (List.mem_append_left _ hid)

/-- Another predicate that holds of everything that queues hold. -/
theorem of_held {good' : BindingId → Message → Prop}
    (h : Books good turns prior pool owed appended b)
    (hheld : ∀ id q, b.router.queues.get? id = some q → ∀ m ∈ q.heldMessages, good' id m) :
    Books good' turns prior pool owed appended b :=
  { h with held := fun id q hq m hm => ⟨(h.held id q hq m hm).1, hheld id q hq m hm⟩ }

/-- The store has not given up a message of the pool that it has not taken yet. -/
theorem notMem_removed (h : Books good turns prior pool owed appended b) {m : Message}
    (hm : m ∈ pool) (hnew : m.id ∉ appended.map Message.id) : m.id ∉ b.store.removed := by
  intro hmem
  rcases h.removed_mem _ hmem with hmem | hmem
  · exact h.id_notMem_names hm (List.mem_append_right _ hmem)
  · exact hnew hmem

theorem mem_pool_of_kept (h : Books good turns prior pool owed appended b) {m : Message}
    (hm : m ∈ b.router.kept ++ owed) : m ∈ pool :=
  h.appended_mem m (h.kept_mem m hm)

theorem durable_of_kept (h : Books good turns prior pool owed appended b) {m : Message}
    (hm : m ∈ b.router.kept ++ owed) : m.durable := by
  rcases List.mem_append.mp hm with hm | hm
  · exact (Router.mem_kept_iff.mp hm).1
  · exact (h.owed_mem m hm).2

/-- The store loads the messages that are kept or owed, and no others. -/
theorem mem_unhidden_iff (h : Books good turns prior pool owed appended b) {m : Message} :
    m ∈ b.store.unhidden appended ↔ m ∈ b.router.kept ++ owed := by
  rw [MessageLog.mem_unhidden]
  constructor
  · rintro ⟨hm, hremoved⟩
    rw [h.removed_iff m hm, not_not] at hremoved
    obtain ⟨n, hn, hid⟩ := List.mem_map.mp hremoved
    obtain rfl := h.eq_of_id_eq (h.mem_pool_of_kept hn) (h.appended_mem m hm) hid
    exact hn
  · intro hm
    refine ⟨h.kept_mem m hm, fun hremoved => ?_⟩
    exact (h.removed_iff m (h.kept_mem m hm)).mp hremoved (List.mem_map_of_mem hm)

/-- The store loads a durable message that a durable queue holds. -/
theorem mem_unhidden_of_held (h : Books good turns prior pool owed appended b) {id : BindingId}
    {q : Queue} (hq : b.router.queues.get? id = some q) (hdurable : q.durable) {m : Message}
    (hm : m ∈ q.heldMessages) (hlasts : m.durable) : m ∈ b.store.unhidden appended := by
  have hkept : m ∈ b.router.kept := Router.mem_kept_iff.mpr ⟨hlasts, id, q, hq, hdurable, hm⟩
  exact h.mem_unhidden_iff.mpr (List.mem_append_left _ hkept)

/-- What queues let go of is owed: what is kept or owed then is what was so before, with what
came in. -/
theorem kept_owed_perm {gone kept kept' into : List Message}
    (hkept : (gone ++ kept').Perm (into ++ kept)) :
    (kept' ++ (gone ++ owed)).Perm (into ++ (kept ++ owed)) := by
  refine (List.perm_append_comm_assoc ..).trans ?_
  rw [← List.append_assoc, ← List.append_assoc]
  exact hkept.append_right owed

/-- Durable queues let go of messages, which are owed from then on. -/
theorem ofRouter {gone : List Message} {b' : Broker MessageLog}
    (h : Books good turns prior pool owed appended b) (hstore : b'.store = b.store)
    (hcounts : b'.durableCounts = b.durableCounts) (hids : b'.ids = b.ids)
    (hsound : b'.router.Sound) (hkept : (gone ++ b'.router.kept).Perm b.router.kept)
    (hheld : ∀ id q', b'.router.queues.get? id = some q' → ∀ m ∈ q'.heldMessages,
      ∃ q, b.router.queues.get? id = some q ∧ m ∈ q.heldMessages) :
    Books good turns prior pool (gone ++ owed) appended b' := by
  have hperm : (b'.router.kept ++ (gone ++ owed)).Perm (b.router.kept ++ owed) :=
    kept_owed_perm (show (gone ++ b'.router.kept).Perm ([] ++ b.router.kept) from hkept)
  have hnames := hperm.map Message.id
  refine ⟨hsound, by rw [hids]; exact h.fresh, h.readable, ?_, ?_, by rw [hstore]; exact h.stored,
    h.appended_mem, h.appended_nodup, ?_, by rw [hstore]; exact h.removed_mem, ?_, ?_⟩
  · intro id q' hq' m hm
    obtain ⟨q, hq, hm⟩ := hheld id q' hq' m hm
    exact h.held id q hq m hm
  · intro m hm
    rcases List.mem_append.mp hm with hm | hm
    · have hm : m ∈ b.router.kept ++ owed :=
        List.mem_append_left _ (hkept.mem_iff.mp (List.mem_append_left _ hm))
      exact ⟨h.mem_pool_of_kept hm, h.durable_of_kept hm⟩
    · exact h.owed_mem m hm
  · intro id
    rw [hcounts, h.count_eq, hnames.count_eq]
  · intro m hm
    rw [hstore, h.removed_iff m hm, hnames.mem_iff]
  · exact fun m hm => h.kept_mem m (hperm.mem_iff.mp hm)

/-- A queue changes: the messages that leave it are owed, as far as the store keeps them. -/
theorem setQueue (h : Books good turns prior pool owed appended b) {id : BindingId} {q q' : Queue}
    {out : List Message} (hq : b.router.queues.get? id = some q)
    (hq' : q.Becomes out [] q'.order q') :
    (∀ m ∈ out, m ∈ pool) ∧
      Books good turns prior pool (out.filter q.keeps ++ owed) appended
        { b with router := { b.router with queues := b.router.queues.insert id q' } } := by
  have hset := h.router.setQueue hq hq'
  refine ⟨fun m hm => ?_, h.ofRouter rfl rfl rfl hset.sound hset.kept_perm ?_⟩
  · exact (h.held id q hq m (hq'.perm.mem_iff.mp (List.mem_append_left _ hm))).1
  · intro id' q'' hq'' m hm
    obtain ⟨before, hbefore, -, hheld⟩ := hset.queues id' q'' hq''
    refine ⟨before, hbefore, (hheld m hm).resolve_right ?_⟩
    exact fun hcame => absurd hcame.2 List.not_mem_nil

/-! ### Letting go -/

/-- The identifier of a message that is not durable is not counted. -/
theorem releaseId_of_not_durable (h : Books good turns prior pool owed appended b) {m : Message}
    (hm : m ∈ pool) (hdurable : m.durable = false) :
    b.perform (Broker.releaseId m.id) = (.ok (), b) := by
  have hnone : m.id ∉ (b.router.kept ++ owed).map Message.id := by
    intro hmem
    obtain ⟨m', hm', hid⟩ := List.mem_map.mp hmem
    obtain rfl := h.eq_of_id_eq (h.mem_pool_of_kept hm') hm hid
    rw [h.durable_of_kept hm'] at hdurable
    cases hdurable
  have hcount : b.durableCounts.get? m.id = none := by
    rw [h.count_eq, List.count_eq_zero.mpr hnone]
    rfl
  rw [Broker.releaseId, Broker.perform_bind_ok _ (Broker.perform_get b)]
  rw [hcount]
  rfl

/-- **An owed message is let go of**: its count goes down, and with the last reference the message
leaves the store. -/
theorem releaseId {m : Message} (h : Books good turns prior pool (m :: owed) appended b) :
    ∃ counts store,
      b.perform (Broker.releaseId m.id) = (.ok (), { b with durableCounts := counts, store }) ∧
      Books good turns prior pool owed appended { b with durableCounts := counts, store } := by
  have hperm : ((b.router.kept ++ m :: owed).map Message.id).Perm
      (m.id :: (b.router.kept ++ owed).map Message.id) :=
    List.perm_middle.map Message.id
  have hcount : ∀ id, ((b.router.kept ++ m :: owed).map Message.id).count id =
      ((b.router.kept ++ owed).map Message.id).count id + if m.id = id then 1 else 0 := by
    intro id
    rw [hperm.count_eq, List.count_cons]
    simp
  have hmem : ∀ id, id ∈ (b.router.kept ++ m :: owed).map Message.id ↔
      id = m.id ∨ id ∈ (b.router.kept ++ owed).map Message.id :=
    fun id => hperm.mem_iff.trans List.mem_cons
  have hget := h.count_eq m.id
  rw [hcount, if_pos rfl, positive, if_neg (Nat.succ_ne_zero _)] at hget
  have hkept : ∀ m' ∈ b.router.kept ++ owed, m' ∈ appended :=
    fun m' hm' => h.kept_mem m' (List.perm_middle.mem_iff.mpr (.tail _ hm'))
  rw [Broker.releaseId, Broker.perform_bind_ok _ (Broker.perform_get b), hget]
  dsimp only
  by_cases hlast : ((b.router.kept ++ owed).map Message.id).count m.id = 0
  · have hgone := List.count_eq_zero.mp hlast
    rw [if_neg (by omega), Broker.perform_bind_ok _ (Broker.perform_set ..)]
    refine ⟨b.durableCounts.erase m.id, b.store.remove m.id, rfl, h.router, h.fresh, h.readable,
      h.held, fun m' hm' => h.owed_mem m' (.tail _ hm'), h.stored.remove m.id, h.appended_mem,
      h.appended_nodup, fun id => ?_, fun id hid => ?_, fun m' hm' => ?_, hkept⟩
    · rw [Dictionary.get?_erase]
      split
      · next heq => rw [heq, hlast]; rfl
      · next hne => rw [h.count_eq, hcount, if_neg (Ne.symm hne)]; rfl
    · rcases (MessageLog.mem_removed_remove ..).mp hid with rfl | hid
      · exact .inr (List.mem_map_of_mem (h.kept_mem m (by simp)))
      · exact h.removed_mem id hid
    · rw [MessageLog.mem_removed_remove, h.removed_iff m' hm', hmem]
      by_cases heq : m'.id = m.id
      · rw [heq]
        exact iff_of_true (.inl rfl) hgone
      · simp only [heq, false_or]
  · have hmore := List.one_le_count_iff.mp (Nat.one_le_iff_ne_zero.mpr hlast)
    rw [if_pos (by omega), Nat.add_sub_cancel]
    refine ⟨b.durableCounts.insert m.id _, b.store, rfl, h.router, h.fresh, h.readable, h.held,
      fun m' hm' => h.owed_mem m' (.tail _ hm'), h.stored, h.appended_mem, h.appended_nodup,
      fun id => ?_, h.removed_mem, fun m' hm' => ?_, hkept⟩
    · rw [Dictionary.get?_insert]
      split
      · next heq => rw [heq, positive, if_neg hlast]
      · next hne => rw [h.count_eq, hcount, if_neg (Ne.symm hne)]; rfl
    · rw [h.removed_iff m' hm', hmem]
      by_cases heq : m'.id = m.id
      · rw [heq]
        exact iff_of_false (fun hnot => hnot (.inl rfl)) (fun hnot => hnot hmore)
      · simp only [heq, false_or]

/-- Messages of the pool are let go of one after another; those that are not durable are not in
the books. -/
theorem releaseAll {messages : List Message} (hmessages : ∀ m ∈ messages, m ∈ pool)
    (h : Books good turns prior pool (messages.filter Message.durable ++ owed) appended b) :
    ∃ counts store,
      b.perform ((messages.map Message.id).forM Broker.releaseId) =
        (.ok ⟨⟩, { b with durableCounts := counts, store }) ∧
      Books good turns prior pool owed appended { b with durableCounts := counts, store } := by
  induction messages generalizing b with
  | nil => exact ⟨b.durableCounts, b.store, rfl, h⟩
  | cons m messages ih =>
      have hrest : ∀ m ∈ messages, m ∈ pool := fun m hm => hmessages m (.tail _ hm)
      cases hdurable : m.durable with
      | true =>
          rw [List.filter_cons_of_pos hdurable] at h
          obtain ⟨counts, store, hperform, hbooks⟩ := releaseId h
          obtain ⟨counts', store', hperform', hbooks'⟩ := ih hrest hbooks
          refine ⟨counts', store', ?_, hbooks'⟩
          exact (Broker.perform_bind_ok _ hperform).trans hperform'
      | false =>
          rw [List.filter_cons_of_neg (by simp [hdurable])] at h
          obtain ⟨counts', store', hperform', hbooks'⟩ := ih hrest h
          refine ⟨counts', store', ?_, hbooks'⟩
          have hperform := releaseId_of_not_durable h (hmessages m (.head _)) hdurable
          exact (Broker.perform_bind_ok _ hperform).trans hperform'

/-! ### Carrying plans out -/

/-- The store takes messages with identifiers that it has not taken before. -/
theorem nodup_append_stored (h : Books good turns prior pool owed appended b)
    {stored : List Message} (hnodup : (stored.map Message.id).Nodup)
    (hnew : ∀ m ∈ stored, m.id ∉ appended.map Message.id) :
    ((appended ++ stored).map Message.id).Nodup := by
  rw [List.map_append, List.nodup_append]
  refine ⟨h.appended_nodup, hnodup, ?_⟩
  rintro id hid _ hid' rfl
  obtain ⟨m, hm, rfl⟩ := List.mem_map.mp hid'
  exact hnew m hm hid

/-- Messages that the store took and gave up again are not in the books. -/
theorem of_refused (h : Books good turns prior pool owed appended b) {store : MessageLog}
    {stored : List Message} (hstored : store.Holds (prior.stored ++ (appended ++ stored)))
    (hpool : ∀ m ∈ stored, m ∈ pool) (hnodup : (stored.map Message.id).Nodup)
    (hnew : ∀ m ∈ stored, m.id ∉ appended.map Message.id)
    (hremoved : ∀ id, id ∈ store.removed ↔ id ∈ b.store.removed ∨ id ∈ stored.map Message.id) :
    Books good turns prior pool owed (appended ++ stored) { b with store } where
  router := h.router
  fresh := h.fresh
  readable := h.readable
  held := h.held
  owed_mem := h.owed_mem
  stored := hstored
  appended_mem m hm := (List.mem_append.mp hm).elim (h.appended_mem m) (hpool m)
  appended_nodup := h.nodup_append_stored hnodup hnew
  count_eq := h.count_eq
  removed_mem id hid := by
    rw [List.map_append, List.mem_append, ← or_assoc]
    exact ((hremoved id).mp hid).imp_left (h.removed_mem id)
  removed_iff m hm := by
    rw [hremoved]
    rcases List.mem_append.mp hm with hm | hm
    · have hother : m.id ∉ stored.map Message.id := by
        intro hmem
        obtain ⟨m', hm', hid⟩ := List.mem_map.mp hmem
        exact hnew m' hm' (hid ▸ List.mem_map_of_mem hm)
      rw [← h.removed_iff m hm]
      exact ⟨fun hor => hor.resolve_right hother, .inl⟩
    · refine iff_of_true (.inr (List.mem_map_of_mem hm)) fun hmem => hnew m hm ?_
      obtain ⟨m', hm', hid⟩ := List.mem_map.mp hmem
      exact hid ▸ List.mem_map_of_mem (h.kept_mem m' hm')
  kept_mem m hm := List.mem_append_left _ (h.kept_mem m hm)

section Deliveries

variable {deliveries : List Delivery}

/-- What the store is given for deliveries is in the pool and new to the store. -/
theorem new_of_mem_keptOf
    (hdeliveries : ∀ d ∈ deliveries, d.message ∈ pool ∧ good d.binding d.message ∧
      d.message.id ∉ appended.map Message.id) {m : Message} (hm : m ∈ Router.keptOf deliveries) :
    m ∈ pool ∧ m.id ∉ appended.map Message.id := by
  obtain ⟨d, hd, rfl⟩ := Router.exists_of_mem_keptOf hm
  obtain ⟨hpool, -, hnew⟩ := hdeliveries d hd
  exact ⟨hpool, hnew⟩

/-- What queues let go of for deliveries is in the pool. -/
theorem mem_pool_of_displaced (h : Books good turns prior pool owed appended b)
    (hdeliveries : ∀ d ∈ deliveries, d.message ∈ pool) {m : Message}
    (hm : b.router.Displaced deliveries m) : m ∈ pool := by
  rcases hm with ⟨id, q, hq, hheld⟩ | ⟨d, hd, rfl⟩
  · exact (h.held id q hq m hheld).1
  · exact hdeliveries d hd

/-- The state between carrying a plan out and letting go of what queues replaced. -/
theorem of_delivered (h : Books good turns prior pool owed appended b)
    {displaced stored : List Message} {router : Router} {store : MessageLog}
    (horder : stored.Perm (Message.distinct (Router.keptOf deliveries)))
    (hdeliveries : ∀ d ∈ deliveries, d.message ∈ pool ∧ good d.binding d.message ∧
      d.message.id ∉ appended.map Message.id)
    (hstored : store.Holds (prior.stored ++ (appended ++ stored)))
    (hremoved : store.removed = b.store.removed)
    (hdisplaced : ∀ m ∈ displaced, b.router.Displaced deliveries m)
    (hrouter : b.router.Becomes (displaced.filter Message.durable) (Router.keptOf deliveries)
      (fun id m => ∃ d ∈ deliveries, d.binding = id ∧ d.message = m) router) :
    (∀ m ∈ displaced, m ∈ pool) ∧
      Books good turns prior pool (displaced.filter Message.durable ++ owed)
        (appended ++ stored)
        { b with
          router
          store
          durableCounts :=
            (Router.keptOf deliveries).foldl Broker.addReference b.durableCounts } := by
  obtain ⟨hnodup, hdistinct, hcovers⟩ := Message.spec_of_perm_distinct horder
  have hpool : ∀ m ∈ Router.keptOf deliveries, m ∈ pool ∧ m.id ∉ appended.map Message.id :=
    fun _ hm => new_of_mem_keptOf hdeliveries hm
  have hgone : ∀ m ∈ displaced, m ∈ pool := fun m hm =>
    h.mem_pool_of_displaced (fun d hd => (hdeliveries d hd).1) (hdisplaced m hm)
  -- every reference that is kept or owed afterwards was so before, or is one of the plan's
  have hperm : (router.kept ++ (displaced.filter Message.durable ++ owed)).Perm
      (Router.keptOf deliveries ++ (b.router.kept ++ owed)) := kept_owed_perm hrouter.kept_perm
  have hids := hperm.map Message.id
  have hnew : ∀ m ∈ appended, m.id ∉ (Router.keptOf deliveries).map Message.id := by
    intro m hm hmem
    obtain ⟨m', hm', hid⟩ := List.mem_map.mp hmem
    exact (hpool m' hm').2 (hid ▸ List.mem_map_of_mem hm)
  refine ⟨hgone, hrouter.sound, h.fresh, h.readable, ?_, ?_, hstored, ?_, ?_, ?_, ?_, ?_, ?_⟩
  · intro id q' hq' m hm
    obtain ⟨q, hq, -, hheld⟩ := hrouter.queues id q' hq'
    rcases hheld m hm with hm | ⟨d, hd, rfl, rfl⟩
    · exact h.held id q hq m hm
    · exact ⟨(hdeliveries d hd).1, (hdeliveries d hd).2.1⟩
  · intro m hm
    rcases List.mem_append.mp hm with hm | hm
    · obtain ⟨hm, hdurable⟩ := List.mem_filter.mp hm
      exact ⟨hgone m hm, hdurable⟩
    · exact h.owed_mem m hm
  · intro m hm
    exact (List.mem_append.mp hm).elim (h.appended_mem m) fun hm => (hpool m (hdistinct m hm)).1
  · exact h.nodup_append_stored hnodup fun m hm => (hpool m (hdistinct m hm)).2
  · intro id
    rw [Broker.get?_foldl_addReference _ _ id (h.count_eq id), hids.count_eq]
    simp only [List.map_append, List.count_append]
  · intro id hid
    rw [hremoved] at hid
    rw [List.map_append]
    exact (h.removed_mem id hid).imp_right (List.mem_append_left _)
  · intro m hm
    rw [hremoved, hids.mem_iff, List.map_append, List.mem_append]
    rcases List.mem_append.mp hm with hm | hm
    · rw [h.removed_iff m hm]
      exact ⟨fun hnot hor => hor.elim (hnew m hm) hnot, fun hnot hmem => hnot (.inr hmem)⟩
    · obtain ⟨hm', hunstored⟩ := hpool m (hdistinct m hm)
      refine iff_of_false (h.notMem_removed hm' hunstored) fun hnot => ?_
      exact hnot (.inl (List.mem_map_of_mem (hdistinct m hm)))
  · intro m hm
    rcases List.mem_append.mp (hperm.mem_iff.mp hm) with hm | hm
    · refine List.mem_append_right _ ?_
      obtain ⟨m', hm', hid⟩ := List.mem_map.mp (hcovers m hm)
      rwa [← h.eq_of_id_eq (hpool m' (hdistinct m' hm')).1 (hpool m hm).1 hid]
    · exact List.mem_append_left _ (h.kept_mem m hm)

end Deliveries

/-- **A plan is stored and carried out**, or the store refuses it and the queues stay as they
are. -/
theorem commit (h : Books good turns prior pool owed appended b) {plan : RoutePlan}
    (hreplay : plan.replay = false) (hawaits : b.router.Awaits plan.deliveries)
    (hdeliveries : ∀ d ∈ plan.deliveries, d.message ∈ pool ∧ good d.binding d.message ∧
      d.message.id ∉ appended.map Message.id) :
    ∃ appended', Books good turns prior pool owed appended' (b.perform (Broker.commit plan)).2 ∧
      (b.perform (Broker.commit plan)).2.ids = b.ids ∧
      ((∃ references, (b.perform (Broker.commit plan)).1 = .ok references) ∨
        ∃ reason, (b.perform (Broker.commit plan)).1 = .error (.storage reason)) := by
  have hkept : plan.kept = Router.keptOf plan.deliveries := rfl
  have horder := b.toPersist_perm plan
  obtain ⟨hnodup, hdistinct, -⟩ := Message.spec_of_perm_distinct horder
  have hpool : ∀ m ∈ b.toPersist plan, m ∈ pool ∧ m.id ∉ appended.map Message.id :=
    fun m hm => new_of_mem_keptOf hdeliveries (hdistinct m hm)
  have hpersists := Broker.perform_persist MessageLog.backed h.stored
    (fun m hm => h.readable m (hpool m hm).1) []
  simp only [id_eq, List.append_assoc] at hpersists
  rw [← Broker.perform_persistPlan_of_new b hreplay] at hpersists
  rw [Broker.commit_eq]
  rcases hpersists with
    ⟨store, hpersist, hstored, hremoved⟩ |
      ⟨store, reason, stored, hpersist, hinitial, hstored, hgone⟩
  · obtain ⟨displaced, hreleased, hdisplaced, hbecomes⟩ := h.router.deliverAll hawaits
    obtain ⟨counters, hcommit⟩ := Broker.commit_router b.router plan
    rw [Broker.perform_bind_ok _ hpersist, Broker.perform_bind_ok _ (Broker.perform_get _),
      Broker.perform_bind_ok _ (Broker.perform_set ..)]
    dsimp only
    rw [hcommit]
    obtain ⟨hgone, hbooks⟩ := h.of_delivered horder hdeliveries hstored hremoved hdisplaced
      (hbecomes.withCounters counters)
    obtain ⟨counts, store', hrelease, hfinal⟩ := releaseAll hgone hbooks
    rw [hreleased] at hrelease
    rw [hkept, Broker.perform_bind_ok _ hrelease]
    exact ⟨_, hfinal, rfl, .inl ⟨_, rfl⟩⟩
  · rw [Broker.perform_bind_error _ hpersist]
    have hsub := hinitial.subset
    refine ⟨_, h.of_refused hstored (fun m hm => (hpool m (hsub hm)).1)
      (hnodup.sublist (hinitial.sublist.map Message.id)) (fun m hm => (hpool m (hsub hm)).2) ?_,
      rfl, .inr ⟨reason, rfl⟩⟩
    simpa using hgone

/-- The pool grows by messages with identifiers that were not used. -/
theorem withPool {pool' : List Message} (h : Books good turns prior pool owed appended b)
    {ids : IdSupply} (counters : BrokerCounters) (hsub : ∀ m ∈ pool, m ∈ pool')
    (hreadable : ∀ m ∈ pool', m.Readable)
    (hfresh : prior.Admits (pool'.map Message.id ++ ids.handedOut turns)) :
    Books good turns prior pool' owed appended { b with counters, ids } where
  router := h.router
  fresh := hfresh
  readable := hreadable
  held id q hq m hm := (h.held id q hq m hm).imp_left (hsub m)
  owed_mem m hm := (h.owed_mem m hm).imp_left (hsub m)
  stored := h.stored
  appended_mem m hm := hsub m (h.appended_mem m hm)
  appended_nodup := h.appended_nodup
  count_eq := h.count_eq
  removed_mem := h.removed_mem
  removed_iff := h.removed_iff
  kept_mem := h.kept_mem

/-- The deliveries of new messages can be carried out. -/
theorem awaits (h : Books good turns prior pool owed appended b) {items : List InTransit}
    (hnodup : (items.map fun item => item.message.id).Nodup)
    (hnew : ∀ item ∈ items, item.message.id ∉ pool.map Message.id) :
    b.router.Awaits (items.flatMap b.router.registry.deliveriesTo) := by
  refine ⟨fun d hd => ?_, h.router.registry.pairs_nodup hnodup⟩
  obtain ⟨item, hitem, hd⟩ := List.mem_flatMap.mp hd
  obtain ⟨hmessage, bd, hbd, -, hid, hkind⟩ := Registry.mem_deliveriesTo hd
  have hnamed := h.router.registry.mem_of_mem_bindingsFor hbd
  obtain ⟨q, hq, hinfo⟩ := h.router.queue_of_binding bd hnamed d.queue hkind
  rw [hid] at hq
  refine ⟨q, hq, hinfo, fun hmem => ?_⟩
  obtain ⟨m, hm, heq⟩ := List.mem_map.mp hmem
  refine hnew item hitem (List.mem_map.mpr ⟨m, (h.held _ q hq m hm).1, ?_⟩)
  rw [heq, hmessage]

/-- The deliveries of new messages are new to the store, and the predicate holds of them. -/
theorem deliveries_new (h : Books good turns prior pool owed appended b) {items : List InTransit}
    (hitems : ∀ item ∈ items, item.message.address = item.address)
    (hnew : ∀ item ∈ items, item.message.id ∉ pool.map Message.id)
    (hgood : ∀ id m, b.router.registry.Accepts id m → m.id ∉ pool.map Message.id → good id m) :
    ∀ d ∈ items.flatMap b.router.registry.deliveriesTo,
      d.message ∈ items.map InTransit.message ∧ good d.binding d.message ∧
      d.message.id ∉ appended.map Message.id := by
  intro d hd
  obtain ⟨item, hitem, hd⟩ := List.mem_flatMap.mp hd
  obtain ⟨hmessage, bd, hbd, haccepts, hid, -⟩ := Registry.mem_deliveriesTo hd
  rw [hmessage]
  refine ⟨List.mem_map_of_mem hitem, ?_, fun hmem => ?_⟩
  · refine hgood _ _ ⟨bd, ?_, haccepts, hid⟩ (hnew item hitem)
    rwa [hitems item hitem]
  · obtain ⟨m, hm, heq⟩ := List.mem_map.mp hmem
    exact hnew item hitem (heq ▸ List.mem_map_of_mem (h.appended_mem m hm))

/-- **A message is published**: the books are right afterwards, also if the store refuses the
message or one of its copies. The message and its copies are in the pool then. -/
theorem publish (h : Books good turns prior pool owed appended b) {m : Message} (hm : m.Readable)
    (hfresh : prior.Admits (m.id :: (pool.map Message.id ++ b.ids.handedOut turns)))
    (hgood : ∀ id m', b.router.registry.Accepts id m' → m'.id ∉ pool.map Message.id → good id m')
    (hturns : (b.perform (Broker.publish m)).2.ids.used ≤ turns) :
    ∃ pool' appended',
      Books good turns prior pool' owed appended' (b.perform (Broker.publish m)).2 ∧
      (∀ m ∈ pool, m ∈ pool') ∧
      (pool'.map Message.id ++ (b.perform (Broker.publish m)).2.ids.handedOut turns).Perm
        (m.id :: (pool.map Message.id ++ b.ids.handedOut turns)) ∧
      ((∃ references, (b.perform (Broker.publish m)).1 = .ok references) ∨
        ∃ reason, (b.perform (Broker.publish m)).1 = .error (.storage reason)) := by
  obtain ⟨items, hdeliveries, hreplay, hsupply, hused, hids, hitems⟩ :=
    b.router.registry.plan_explains b.router.maxDivertHops b.ids m
  let counters := { b.counters with published := b.counters.published + 1 }
  have hperform : b.perform (Broker.publish m) =
      ({ b with counters, ids := (b.router.plan b.ids m m.address).2 }).perform
        (Broker.commit (b.router.plan b.ids m m.address).1) := Broker.perform_publish b m
  rw [hperform] at hturns ⊢
  generalize hplan : b.router.plan b.ids m m.address = result at hturns ⊢
  obtain ⟨plan, ids⟩ := result
  rw [Router.plan] at hplan
  rw [hplan] at hdeliveries hreplay hsupply hused hids
  dsimp only at hdeliveries hreplay hsupply hused hids hturns ⊢
  -- all identifiers, those of the pool, of the message and its copies, and of later copies
  have hused' : ids.used ≤ turns :=
    Nat.le_trans (Broker.commit_steady plan { b with counters, ids }).used_le hturns
  have hnames : ((pool ++ items.map InTransit.message).map Message.id ++ ids.handedOut turns).Perm
      (m.id :: (pool.map Message.id ++ b.ids.handedOut turns)) := by
    rw [IdSupply.handedOut_append hsupply hused hused', List.map_append, List.map_map,
      show (items.map (Message.id ∘ InTransit.message)) = _ from hids]
    simp only [List.append_assoc, List.cons_append]
    exact List.perm_middle
  have hall := hfresh.perm hnames
  have hpool := (List.nodup_append.mp hall.nodup).1
  rw [List.map_append, List.map_map] at hpool
  obtain ⟨-, hitemsNodup, hdisjoint⟩ := List.nodup_append.mp hpool
  have hnew : ∀ item ∈ items, item.message.id ∉ pool.map Message.id := fun item hitem hmem =>
    hdisjoint _ hmem _ (List.mem_map_of_mem (f := Message.id ∘ InTransit.message) hitem) rfl
  have hreadable : ∀ m' ∈ pool ++ items.map InTransit.message, m'.Readable := by
    intro m' hm'
    rcases List.mem_append.mp hm' with hm' | hm'
    · exact h.readable m' hm'
    · obtain ⟨item, hitem, rfl⟩ := List.mem_map.mp hm'
      exact (hitems item hitem).2 hm
  have hbooks := h.withPool counters (fun m' hm' => List.mem_append_left _ hm') hreadable hall
  have hawaits := h.awaits hitemsNodup hnew
  rw [← hdeliveries] at hawaits
  have haccepted := h.deliveries_new (fun item hitem => (hitems item hitem).1) hnew hgood
  rw [← hdeliveries] at haccepted
  obtain ⟨appended', hcommit, hsame, hresult⟩ := hbooks.commit hreplay hawaits
    fun d hd => (haccepted d hd).imp_left (List.mem_append_right _)
  refine ⟨_, appended', hcommit, fun m' hm' => List.mem_append_left _ hm', ?_, hresult⟩
  rw [hsame]
  exact hnames

end Books

end Courier
