import Courier.Proofs.Broker.Lifetime

/-!
# Restarts

A broker is deployed over a store that another broker with the same configuration has left behind,
and recovers. The durable messages that were in a durable queue are in the queue of the same name
again, unless the queue replaces messages. But there is one record for all queues that hold a
message: as long as one of them holds it, a restart brings it back to all of them, to those that
had let go of it, too.

## Main results

* `Broker.restart_of_books`: what is in the queues after a restart.
* `Broker.restart_keeps`: **a restart loses nothing.**
* `Broker.held_of_restart`: **a message that was acknowledged comes back only if another queue
  still held it.**
-/

namespace Courier

namespace Broker

open BrokerM

variable {levels : String → Bool} {walks : WalkOrders} {c : Config} {store : MessageLog}
  {old : List Message} {ids : IdSupply} {b : Broker MessageLog} {requests : List BrokerRequest}

/-! ### The queues after a restart -/

/-- After a restart the queues have what the store had loaded. -/
theorem restart_of_books {good : BindingId → Message → Prop} {turns : Nat} {prior : Leftovers}
    {pool owed appended : List Message} {after : Broker MessageLog}
    (hb : deploy levels walks c store ids = .ok b)
    (hbooks : Books good turns prior pool owed appended after)
    (hprior : (prior.stored.map Message.id).Nodup) (walks' : WalkOrders) (ids' : IdSupply) :
    ∃ restarted n recovered, deploy levels walks' c after.store ids' = .ok restarted ∧
      restarted.perform recover = (.ok n, recovered) ∧ b.queueIds = recovered.queueIds ∧
      b.router.Replayed ((after.store.unhidden (prior.stored ++ appended)).map Message.asRead)
        recovered.router := by
  have hstart := fresh_of_deploy hb
  have hload : (b.restocked walks' after.store ids').store.load = _ := hbooks.stored.load_eq
  obtain ⟨n, counts, store, hrecover⟩ := perform_recover hload
  have hids : (([] ++ (after.store.unhidden (prior.stored ++ appended)).map Message.asRead).map
      Message.id).Nodup := by
    rw [List.nil_append, List.map_map]
    exact (hbooks.nodup_stored hprior).sublist ((List.filter_sublist ..).map Message.id)
  have hempty := hstart.router.replayed_nil fun id q hq => hstart.heldMessages_eq hq
  have hreplayed := hempty.replayAll hids
  rw [List.nil_append] at hreplayed
  exact ⟨_, n, _, deploy_restocked hb walks' after.store ids', hrecover, rfl, hreplayed⟩

/-- A queue is found by its name in every state that has the same bindings. -/
theorem queue?_of_binding {after : Broker MessageLog} (hwired : b.Wired)
    (hregistry : after.router.registry = b.router.registry)
    (hqueueIds : after.queueIds = b.queueIds)
    (hrouter : after.router.Sound) {name : String} {bd : Binding} {info : QueueInfo}
    (hname : b.router.registry.byName.get? name = some bd) (hkind : bd.kind = .queue info) :
    ∃ q, after.queue? name = some (bd.id, q) ∧ q.toQueueInfo = info := by
  have hnamed : bd ∈ after.router.registry.named := by
    rw [hregistry]
    exact Dictionary.mem_values_iff.mpr ⟨name, hname⟩
  obtain ⟨q, hq, hinfo⟩ := hrouter.queue_of_binding bd hnamed info hkind
  refine ⟨q, queue?_eq_some_iff.mpr ⟨?_, hq⟩, hinfo⟩
  rw [hqueueIds, hwired.queueIds_eq, hname, Option.bind_some, Binding.queueId?,
    if_pos (Binding.isQueue_eq.mpr ⟨info, hkind⟩)]

/-! ### A message for two queues -/

/-- The first of two queues acknowledges a message. -/
def halfAcknowledged : List BrokerRequest :=
  [.publish (order 1), .receive "first" .epoch, .acknowledge "first" (order 1).id]

theorem readable_halfAcknowledged :
    ∀ m ∈ halfAcknowledged.flatMap BrokerRequest.published, m.Readable := by
  intro m hm
  obtain rfl : m = order 1 := by simpa [halfAcknowledged, BrokerRequest.published] using hm
  exact readable_order 1

theorem timesWhole_halfAcknowledged :
    ∀ m ∈ halfAcknowledged.flatMap BrokerRequest.published, m.TimesWhole := by
  intro m hm
  obtain rfl : m = order 1 := by simpa [halfAcknowledged, BrokerRequest.published] using hm
  exact timesWhole_order 1

/-- The second queue holds the message then, and the first one has it again after a restart. This is
decided for a store that had taken some messages before. -/
def comesBack (old : List Message) (store : MessageLog) : Bool :=
  (deploy LogLevel.isSound {} twoQueues store (consecutive 100)).toOption.any fun b =>
    let after := (b.serve halfAcknowledged).2
    let names := (halfAcknowledged.flatMap BrokerRequest.published).map Message.id ++
      (consecutive 100).handedOut after.ids.used
    decide (names.Nodup ∧ ∀ id ∈ names, id ∉ Leftovers.names ⟨old, store.removed⟩) &&
    (b.serve halfAcknowledged).1.any (fun e =>
      decide (e.request = .acknowledge "first" (order 1).id) && e.result.toOption.isSome) &&
    (after.queue? "second").any (fun found =>
      !found.2.isLastValue && decide (order 1 ∈ found.2.heldMessages)) &&
    (deploy LogLevel.isSound {} twoQueues after.store (consecutive 200)).toOption.any
      fun restarted => (restarted.perform recover).1.toOption.isSome &&
        ((restarted.perform recover).2.queue? "first").any fun found =>
          found.2.durable && decide ((order 1).id ∈ found.2.heldMessages.map Message.id)

theorem exists_halfAcknowledged (hcheck : comesBack old store) :
    ∃ b : Broker MessageLog, deploy LogLevel.isSound {} twoQueues store (consecutive 100) = .ok b ∧
      Leftovers.Admits ⟨old, store.removed⟩
        ((halfAcknowledged.flatMap BrokerRequest.published).map Message.id ++
          (consecutive 100).handedOut (b.serve halfAcknowledged).2.ids.used) ∧
      { request := .acknowledge "first" (order 1).id, result := .ok () } ∈
        (b.serve halfAcknowledged).1 ∧
      (∃ id q, (b.serve halfAcknowledged).2.queue? "second" = some (id, q) ∧
        q.isLastValue = false ∧ order 1 ∈ q.heldMessages) ∧
      ∃ restarted n recovered,
        deploy LogLevel.isSound {} twoQueues (b.serve halfAcknowledged).2.store
          (consecutive 200) = .ok restarted ∧
        restarted.perform recover = (.ok n, recovered) ∧
        ∃ id q, recovered.queue? "first" = some (id, q) ∧ q.durable ∧
          (order 1).id ∈ q.heldMessages.map Message.id := by
  obtain ⟨b, hb, hcheck⟩ := exists_ok_of_any hcheck
  rw [Bool.and_eq_true, Bool.and_eq_true, Bool.and_eq_true, decide_eq_true_iff,
    List.any_eq_true, Option.any_eq_true] at hcheck
  obtain ⟨⟨⟨⟨hnodup, hnew⟩, e, he, hends⟩, ⟨id, q⟩, hsecond, hheld⟩, hcomes⟩ := hcheck
  rw [Bool.and_eq_true, decide_eq_true_iff] at hends
  rw [Bool.and_eq_true, decide_eq_true_iff, Bool.not_eq_true'] at hheld
  obtain ⟨restarted, hrestart, hcomes⟩ := exists_ok_of_any hcomes
  rw [Bool.and_eq_true, Option.any_eq_true] at hcomes
  obtain ⟨hrecovers, ⟨id', q'⟩, hfirst, hagain⟩ := hcomes
  rw [Bool.and_eq_true, decide_eq_true_iff] at hagain
  refine ⟨b, hb, ⟨hnodup, hnew⟩, ?_, ⟨id, q, hsecond, hheld⟩, restarted, ?_⟩
  · obtain ⟨request, result⟩ := e
    obtain ⟨rfl, hresult⟩ := hends
    cases result with
    | error e => cases hresult
    | ok => exact he
  · rcases hperform : restarted.perform recover with ⟨e | n, recovered⟩
    · rw [hperform] at hrecovers
      cases hrecovers
    · rw [hperform] at hfirst
      exact ⟨n, recovered, hrestart, rfl, id', q', hfirst, hagain⟩

theorem comesBack_empty : comesBack [] {} := by decide +kernel

/-! ### What a restart keeps -/

/-- **A restart loses nothing.** Whatever a broker was asked to do after its deployment, and
whether or not that succeeded: a broker that is deployed over its store and recovers has all
durable messages that the durable queues held, as pending messages of the same queues. The times
of published messages are whole milliseconds. Queues that replace messages are left out. -/
theorem restart_keeps (hb : deploy levels walks c {} ids = .ok b)
    (hdelivers : ∀ r ∈ requests, r.delivers)
    (hread : ∀ m ∈ requests.flatMap BrokerRequest.published, m.Readable ∧ m.TimesWhole)
    (hfresh : ((requests.flatMap BrokerRequest.published).map Message.id ++
      ids.handedOut (b.serve requests).2.ids.used).Nodup) (walks' : WalkOrders)
    (ids' : IdSupply) :
    ∃ restarted n recovered,
      deploy levels walks' c (b.serve requests).2.store ids' = .ok restarted ∧
      restarted.perform recover = (.ok n, recovered) ∧
      ∀ queue ∈ c.queues, ∃ id q id' q', (b.serve requests).2.queue? queue.name = some (id, q) ∧
        recovered.queue? queue.name = some (id', q') ∧
        (queue.durable → q.isLastValue = false →
          ∀ m ∈ q.heldMessages, m.durable → ∃ m' ∈ q'.browse, m'.sameContent m) := by
  have hstart := fresh_of_deploy hb
  have hextends := extends_serve b hdelivers
  obtain ⟨-, pool, owed, appended, hbooks, -, -⟩ := serve_books_of_deploy hb .empty
    (List.append_nil requests).symm (fun _ _ haccepts => haccepts)
    (fun r hr hfalse => absurd (hdelivers r hr) (Bool.eq_false_iff.mp hfalse))
    (fun m hm => (hread m hm).1) (Leftovers.admits_iff_of_empty.mpr hfresh)
  obtain ⟨restarted, n, recovered, hrestart, hrecover, hqueueIds, hreplayed⟩ :=
    restart_of_books hb hbooks .nil walks' ids'
  refine ⟨restarted, n, recovered, hrestart, hrecover, fun queue hqueue => ?_⟩
  obtain ⟨bd, info, hname, hkind, hdurable⟩ := names_of_deploy hb queue hqueue
  obtain ⟨q, hq, hinfo⟩ := queue?_of_binding hstart.wired hextends.registry_eq
    hextends.queueIds_eq hbooks.router hname hkind
  obtain ⟨q', hq', hinfo'⟩ := queue?_of_binding hstart.wired hreplayed.registry_eq
    hqueueIds.symm hreplayed.sound hname hkind
  refine ⟨bd.id, q, bd.id, q', hq, hq', fun hkeeps hvalue m hm hlasts => ?_⟩
  have hget := (queue?_eq_some_iff.mp hq).2
  have hlasting : info.durable := by rw [hdurable, hkeeps]
  have hvalue' : q'.isLastValue = false := by rw [hinfo', ← hinfo, hvalue]
  have hloaded := hbooks.mem_unhidden_of_held hget (by rw [hinfo, hlasting]) hm hlasts
  -- The queue takes the message again, because it took it before.
  have hreplays : b.router.registry.replaysTo bd.id m.asRead :=
    hstart.router.registry.replaysTo_asRead (Dictionary.mem_values_iff.mpr ⟨queue.name, hname⟩)
      hkind hlasting (hbooks.held bd.id q hget m hm).2
  have htimes := held_timesWhole hb (fun m hm => (hread m hm).2) hget hm
  refine ⟨m.asRead, ?_, htimes.sameContent_asRead⟩
  exact hreplayed.mem_browse hstart.router (queue?_eq_some_iff.mp hq').2 hvalue'
    (List.mem_map_of_mem hloaded) hreplays

/-- The message that the second queue still holds is there again. -/
theorem restart_keeps_halfAcknowledged :
    ∃ (b restarted recovered : Broker MessageLog) (n : Nat),
      deploy LogLevel.isSound {} twoQueues {} (consecutive 100) = .ok b ∧
      deploy LogLevel.isSound {} twoQueues (b.serve halfAcknowledged).2.store
        (consecutive 200) = .ok restarted ∧
      restarted.perform recover = (.ok n, recovered) ∧
      ∃ id q, recovered.queue? "second" = some (id, q) ∧
        ∃ m ∈ q.browse, m.sameContent (order 1) := by
  obtain ⟨b, hb, hfresh, -, ⟨id, q, hq, hvalue, hheld⟩, -⟩ :=
    exists_halfAcknowledged comesBack_empty
  obtain ⟨restarted, n, recovered, hrestart, hrecover, hkeeps⟩ :=
    restart_keeps hb (by decide)
      (fun m hm => ⟨readable_halfAcknowledged m hm, timesWhole_halfAcknowledged m hm⟩)
      hfresh.nodup {} (consecutive 200)
  obtain ⟨_, q₁, id', q', hq₁, hq', hall⟩ :=
    hkeeps { name := "second", address := "orders" } (by decide)
  rw [hq] at hq₁
  cases hq₁
  exact ⟨b, restarted, recovered, n, hb, hrestart, hrecover, id', q', hq',
    hall rfl hvalue (order 1) hheld rfl⟩

/-! ### What a restart brings back -/

/-- An acknowledged message is not in the queue any more. -/
theorem not_mem_of_acknowledge {after : Broker MessageLog} (hrouter : after.router.Sound)
    {name : String} {message : MessageId}
    (h : (after.perform (acknowledge name message)).1 = .ok ()) :
    ∃ id q, after.queue? name = some (id, q) ∧ message ∈ q.heldMessages.map Message.id ∧
      ∀ q', (after.perform (acknowledge name message)).2.router.queues.get? id = some q' →
        message ∉ q'.heldMessages.map Message.id := by
  rcases perform_acknowledge after name message with
    ⟨e, -, hperform⟩ | ⟨id, q, r, q', counts, store, hid, hq, hacknowledge, hperform⟩
  · rw [hperform] at h
    cases h
  · obtain ⟨hbefore, hgone⟩ := (hrouter.queue_sound id q hq).not_mem_of_acknowledge hacknowledge
    refine ⟨id, q, queue?_eq_some_iff.mpr ⟨hid, hq⟩, hbefore, fun found hfound => ?_⟩
    rw [hperform] at hfound
    change (after.router.queues.insert id q').get? id = some found at hfound
    rw [Dictionary.get?_insert_self] at hfound
    cases hfound
    exact hgone

/-- An acknowledgement: the books know the message, and the queue does not hold it any more. -/
theorem settled_of_acknowledge {turns : Nat} {prior : Leftovers}
    {pool owed appended : List Message} {after : Broker MessageLog} {name : String}
    {message : MessageId}
    (hbooks : Books (fun _ _ => True) turns prior pool owed appended after)
    (h : (after.perform (acknowledge name message)).1 = .ok ())
    (hturns : (after.perform (acknowledge name message)).2.ids.used ≤ turns) :
    ∃ id pool', after.queueIds.get? name = some id ∧ message ∈ pool'.map Message.id ∧
      after.Settled (fun id' m => ¬(id' = id ∧ m.id = message)) turns prior [] pool
        (after.perform (acknowledge name message)).2 pool' owed := by
  obtain ⟨pool', ⟨appended', hbooks'⟩, hsubset, hnames⟩ :=
    acknowledge_balancesAt pool owed appended hbooks (fun _ _ _ _ => trivial) hturns
  obtain ⟨id, q, hq, hmem, hgone⟩ := not_mem_of_acknowledge hbooks.router h
  obtain ⟨hid, hq⟩ := queue?_eq_some_iff.mp hq
  refine ⟨id, pool', hid, ?_, ⟨appended', hbooks'.of_held ?_⟩, hsubset, hnames⟩
  · obtain ⟨m, hm, rfl⟩ := List.mem_map.mp hmem
    exact List.mem_map_of_mem (hsubset m (hbooks.held id q hq m hm).1)
  · rintro id' q' hq' m hm ⟨rfl, rfl⟩
    exact hgone q' hq' (List.mem_map_of_mem hm)

/-- A message that was acknowledged does not come to the queue again, and the store did not know it
from before. -/
theorem books_of_acknowledged (hb : deploy levels walks c store ids = .ok b)
    (hstore : store.Holds old) (hdelivers : ∀ r ∈ requests, r.delivers)
    (hforwards : ∀ r ∈ requests, r.forwards = false)
    (hread : ∀ m ∈ requests.flatMap BrokerRequest.published, m.Readable)
    (hfresh : Leftovers.Admits ⟨old, store.removed⟩
      ((requests.flatMap BrokerRequest.published).map Message.id ++
        ids.handedOut (b.serve requests).2.ids.used))
    {name : String} {message : MessageId}
    (hacknowledged : { request := .acknowledge name message, result := .ok () } ∈
      (b.serve requests).1) :
    (b.serve requests).2.Wired ∧ message ∉ old.map Message.id ∧ ∃ id pool appended,
      (b.serve requests).2.queueIds.get? name = some id ∧
      Books (fun id' m => ¬(id' = id ∧ m.id = message)) (b.serve requests).2.ids.used
        ⟨old, store.removed⟩ pool [] appended (b.serve requests).2 := by
  obtain ⟨before, rest, hrequests, hresult⟩ := exists_of_mem_serve hacknowledged
  have htrue : ∀ id m, b.router.registry.Accepts id m → True := fun _ _ _ => trivial
  obtain ⟨hwired, pool, owed, appended, hbooks, hrest, howed⟩ := serve_books_of_deploy hb hstore
    hrequests htrue (fun _ _ _ _ _ => trivial) hread hfresh
  have hbefore : ∀ r ∈ before, r ∈ requests :=
    fun r hr => hrequests ▸ List.mem_append_left _ hr
  have hafter : ∀ r ∈ rest, r ∈ requests :=
    fun r hr => hrequests ▸ List.mem_append_right _ (.tail _ hr)
  rw [howed (owes_serve fun r hr => hforwards r (hbefore r hr))] at hbooks
  have hserve : (b.serve requests).2 =
      (((b.serve before).2.perform (acknowledge name message)).2.serve rest).2 := by
    rw [hrequests, serve_append]
    rfl
  have hpublished : ∀ m ∈ rest.flatMap BrokerRequest.published, m.Readable := by
    intro m hm
    obtain ⟨r, hr, hm⟩ := List.mem_flatMap.mp hm
    exact hread m (List.mem_flatMap.mpr ⟨r, hafter r hr, hm⟩)
  rw [hserve] at hbooks hrest ⊢
  generalize hstate : (b.serve before).2 = state at *
  have hused := used_le_serve (state.perform (acknowledge name message)).2 rest
  obtain ⟨id, pool₁, hid, hknown, hsettled⟩ :=
    settled_of_acknowledge hbooks hresult.symm hused
  obtain ⟨appended₁, hbooks₁⟩ := hsettled.books
  have hextends : state.Extends (state.perform (acknowledge name message)).2 :=
    acknowledge_steady name message state
  have hgood : (state.perform (acknowledge name message)).2.Approves
      (fun id' m => ¬(id' = id ∧ m.id = message)) pool₁ :=
    fun _ m _ hnew hsame => hnew (hsame.2 ▸ hknown)
  obtain ⟨hwired', pool', owed', ⟨⟨appended', hfinal⟩, -, -⟩, howed'⟩ :=
    serve_settled hbooks₁ (hwired.of_extends hextends) hgood
      (fun r hr hfalse => absurd (hdelivers r (hafter r hr)) (Bool.eq_false_iff.mp hfalse))
      hpublished (hrest.perm (hsettled.names.append_left _)) (Nat.le_refl _)
  rw [howed' (owes_serve fun r hr => hforwards r (hafter r hr))] at hfinal
  have hnew : message ∉ old.map Message.id := by
    obtain ⟨m, hm, rfl⟩ := List.mem_map.mp hknown
    exact fun hmem => hbooks₁.id_notMem_names hm (List.mem_append_left _ hmem)
  refine ⟨hwired', hnew, id, pool', appended', ?_, hfinal⟩
  rw [(extends_serve _ fun r hr => hdelivers r (hafter r hr)).queueIds_eq, hextends.queueIds_eq]
  exact hid

/-- **A message that was acknowledged comes back only if another queue still held it.** A broker is
deployed over a store that may have taken messages before, and publishes, receives and acknowledges
messages with identifiers that the store does not know. If, after a restart, a queue has a message
again that was acknowledged there, then another durable queue had not let go of it. -/
theorem held_of_restart (hb : deploy levels walks c store ids = .ok b)
    (hstore : store.Holds old) (hold : (old.map Message.id).Nodup)
    (hdelivers : ∀ r ∈ requests, r.delivers)
    (hforwards : ∀ r ∈ requests, r.forwards = false)
    (hread : ∀ m ∈ requests.flatMap BrokerRequest.published, m.Readable)
    (hfresh : Leftovers.Admits ⟨old, store.removed⟩
      ((requests.flatMap BrokerRequest.published).map Message.id ++
        ids.handedOut (b.serve requests).2.ids.used))
    {walks' : WalkOrders} {ids' : IdSupply} {restarted recovered : Broker MessageLog} {n : Nat}
    (hrestart : deploy levels walks' c (b.serve requests).2.store ids' = .ok restarted)
    (hrecover : restarted.perform recover = (.ok n, recovered)) {name : String}
    {message : MessageId}
    (hacknowledged : { request := .acknowledge name message, result := .ok () } ∈
      (b.serve requests).1)
    {id : BindingId} {q : Queue} (hq : recovered.queue? name = some (id, q))
    (hheld : message ∈ q.heldMessages.map Message.id) :
    ∃ other id' q', other ≠ name ∧ (b.serve requests).2.queue? other = some (id', q') ∧
      q'.durable ∧ message ∈ q'.heldMessages.map Message.id := by
  obtain ⟨hwired, hnew, gone, pool, appended, hgone, hbooks⟩ :=
    books_of_acknowledged hb hstore hdelivers hforwards hread hfresh hacknowledged
  obtain ⟨restarted', n', recovered', hrestart', hrecover', -, hreplayed⟩ :=
    restart_of_books hb hbooks hold walks' ids'
  rw [hrestart] at hrestart'
  cases hrestart'
  rw [hrecover] at hrecover'
  cases hrecover'
  obtain ⟨m, hm, rfl⟩ := List.mem_map.mp hheld
  have hloaded := hreplayed.held id q (queue?_eq_some_iff.mp hq).2 m hm
  obtain ⟨stored, hstored, rfl⟩ := List.mem_map.mp hloaded
  rw [MessageLog.unhidden, List.filter_append, List.mem_append] at hstored
  -- The message was not in the store before, so that it is in the books.
  replace hstored : stored ∈ (b.serve requests).2.store.unhidden appended :=
    hstored.resolve_left fun hmem =>
      hnew (List.mem_map.mpr ⟨stored, (List.mem_filter.mp hmem).1, rfl⟩)
  rw [hbooks.mem_unhidden_iff, List.append_nil, Router.mem_kept_iff] at hstored
  obtain ⟨-, id', q', hq', hdurable, hholds⟩ := hstored
  obtain ⟨other, hother⟩ := hwired.queue?_of_get? hbooks.router hq'
  refine ⟨other, id', q', ?_, hother, hdurable, List.mem_map.mpr ⟨stored, hholds, rfl⟩⟩
  rintro rfl
  rw [(queue?_eq_some_iff.mp hother).1, Option.some.injEq] at hgone
  exact (hbooks.held id' q' hq' stored hholds).2 ⟨hgone, rfl⟩

/-- A store that took a message. -/
theorem exists_append {p : MessageLog → Bool} {number : Nat}
    (h : (MessageLog.append {} (order number)).toOption.any p) :
    ∃ store : MessageLog, store.Holds [order number] ∧ p store := by
  obtain ⟨store, happend, hp⟩ := exists_ok_of_any h
  obtain ⟨record, hw⟩ := MessageLog.append_eq_ok happend
  obtain ⟨store', happend', hholds, -⟩ := MessageLog.Holds.empty.append (readable_order number) hw
  cases happend.symm.trans happend'
  exact ⟨store, hholds, hp⟩

/-- The second queue still holds a message that the first one has again. The store had taken another
message before. -/
theorem held_of_restart_halfAcknowledged :
    ∃ (store : MessageLog) (b restarted recovered : Broker MessageLog) (n : Nat),
      store.Holds [order 9] ∧
      deploy LogLevel.isSound {} twoQueues store (consecutive 100) = .ok b ∧
      deploy LogLevel.isSound {} twoQueues (b.serve halfAcknowledged).2.store
        (consecutive 200) = .ok restarted ∧
      restarted.perform recover = (.ok n, recovered) ∧
      (∃ id q, recovered.queue? "first" = some (id, q) ∧
        (order 1).id ∈ q.heldMessages.map Message.id) ∧
      ∃ other id q, other ≠ "first" ∧
        (b.serve halfAcknowledged).2.queue? other = some (id, q) ∧ q.durable ∧
        (order 1).id ∈ q.heldMessages.map Message.id := by
  have hcheck : (MessageLog.append {} (order 9)).toOption.any (comesBack [order 9]) := by
    decide +kernel
  obtain ⟨store, hstore, hcheck⟩ := exists_append hcheck
  obtain ⟨b, hb, hfresh, hacknowledged, -, restarted, n, recovered, hrestart, hrecover, id, q, hq,
    -, hheld⟩ := exists_halfAcknowledged hcheck
  refine ⟨store, b, restarted, recovered, n, hstore, hb, hrestart, hrecover, ⟨id, q, hq, hheld⟩, ?_⟩
  exact held_of_restart hb hstore (List.nodup_singleton _) (by decide) (by decide)
    readable_halfAcknowledged hfresh hrestart hrecover hacknowledged hq hheld

/-- **A restart can bring back a message that was acknowledged**, because there is one record of
it for all queues. -/
theorem restart_brings_back :
    ¬∀ (levels : String → Bool) (walks walks' : WalkOrders) (c : Config) (ids ids' : IdSupply)
      (requests : List BrokerRequest) (b restarted recovered : Broker MessageLog) (n : Nat)
      (name : String) (message : MessageId),
      deploy levels walks c {} ids = .ok b →
      (∀ r ∈ requests, r.delivers) → (∀ r ∈ requests, r.forwards = false) →
      (∀ m ∈ requests.flatMap BrokerRequest.published, m.Readable) →
      ((requests.flatMap BrokerRequest.published).map Message.id ++
        ids.handedOut (b.serve requests).2.ids.used).Nodup →
      deploy levels walks' c (b.serve requests).2.store ids' = .ok restarted →
      restarted.perform recover = (.ok n, recovered) →
      { request := .acknowledge name message, result := .ok () } ∈ (b.serve requests).1 →
      ∀ id q, recovered.queue? name = some (id, q) → q.durable →
        message ∉ q.heldMessages.map Message.id := by
  intro hnever
  obtain ⟨b, hb, hfresh, hacknowledged, -, restarted, n, recovered, hrestart, hrecover, id, q, hq,
    hdurable, hheld⟩ := exists_halfAcknowledged comesBack_empty
  exact hnever LogLevel.isSound {} {} twoQueues (consecutive 100) (consecutive 200)
    halfAcknowledged b restarted recovered n "first" (order 1).id hb (by decide) (by decide)
    readable_halfAcknowledged hfresh.nodup hrestart hrecover hacknowledged id q hq hdurable hheld

end Broker

end Courier
