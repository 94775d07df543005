import Courier.Proofs.Broker.Lifetime
import Courier.Proofs.Store.Compaction

/-!
# Messages That the Store Refuses

Before a message is put into queues, it is stored together with all copies that diverts make of it.
The store may refuse any of them. Those that were stored before it are removed again then, and
nothing has happened: the queues, the counters of the router and the counts of references are those
of before, and the store loads what it loaded before.

This depends on records that can be read back. The priority of a message that is built is at
most 9; the record of a message with a higher priority cannot be read, and what is found inside of
it when the log is read may be anything, even after the message was removed.

## Main definitions

* `Regime.records`: the log is made of records with identifiers that the broker knows.
* `GuardedLog`: a store in memory that refuses a message at some calls.

## Main results

* `Broker.perform_persist_eq_error`: messages that cannot all be stored leave no trace, in whatever
  order they are stored.
* `Broker.publish_atomic`: **a message that is refused leaves no trace.**
* `Broker.publish_leaves_trace`: a message with a priority above 9 may leave one.
-/

namespace Courier

namespace Regime

variable {σ : Type} [MessageStore σ] {log : σ → MessageLog}

/-- All messages can be read back, and the log is made of records of such messages, with
identifiers that the broker knows. -/
def records (hlog : MessageStore.Backed log) : Regime σ where
  good := Message.Readable
  stock known s := ∃ appended, (log s).Holds appended ∧ ∀ m ∈ appended, known m.id
  good_forwarded h id target := h.forwarded id target
  good_withHeader h header value := h.withHeader header value
  good_lasting h := ⟨h.priority_le, h.properties_made⟩
  stock_mono := by
    rintro known known' s hknown ⟨appended, hholds, hids⟩
    exact ⟨appended, hholds, fun m hm => hknown _ (hids m hm)⟩
  stock_append := by
    rintro known s m ⟨appended, hholds, hids⟩ hread hknown
    rcases hlog.append s m with ⟨reason, -, hsame⟩ | ⟨-, happend⟩
    · exact ⟨appended, hsame ▸ hholds, hids⟩
    · obtain ⟨record, hw⟩ := MessageLog.append_eq_ok happend
      obtain ⟨s', happend', hholds', -⟩ := hholds.append hread hw
      rw [happend] at happend'
      cases happend'
      refine ⟨appended ++ [m], hholds', fun n hn => ?_⟩
      rcases List.mem_append.mp hn with hn | hn
      · exact hids n hn
      · exact List.mem_singleton.mp hn ▸ hknown
  stock_remove := by
    rintro known s ⟨appended, hholds, hids⟩ id
    exact ⟨appended, (hlog.remove s id).2 ▸ hholds.remove id, hids⟩
  good_of_load := by
    rintro known s messages ⟨appended, hholds, -⟩ hload m hm
    rw [hlog.load, hholds.load_eq] at hload
    cases hload
    obtain ⟨n, hn, rfl⟩ := List.mem_map.mp hm
    have hmem := (List.mem_filter.mp hn).1
    obtain ⟨record, hw⟩ := hholds.recorded.toRecord hmem
    exact (hholds.recorded.readable hmem).asRead hw

theorem records_of_empty (hlog : MessageStore.Backed log) (known : MessageId → Prop) {s : σ}
    (h : log s = {}) : (records hlog).stock known s :=
  ⟨[], h ▸ .empty, fun _ hm => absurd hm List.not_mem_nil⟩

theorem records_of_compact (hlog : MessageStore.Backed log) (known : MessageId → Prop) {s s' : σ}
    (h : (log s).compact = .ok (log s')) (hs : (records hlog).stock known s) :
    (records hlog).stock known s' := by
  obtain ⟨appended, hholds, hids⟩ := hs
  obtain ⟨compacted, hcompact, hholds', -⟩ := hholds.compact
  rw [h] at hcompact
  cases hcompact
  refine ⟨_, hholds', fun m hm => ?_⟩
  obtain ⟨n, hn, rfl⟩ := List.mem_map.mp hm
  exact hids n (List.mem_filter.mp hn).1

end Regime

namespace MessageLog

/-- Records that were appended and removed again are not loaded. -/
theorem Holds.load_of_rolledBack {s s' : MessageLog} {appended stored : List Message}
    (h : s.Holds appended) (h' : s'.Holds (appended ++ stored))
    (hremoved : ∀ id, id ∈ s'.removed ↔ id ∈ s.removed ∨ id ∈ stored.map Message.id)
    (hnew : ∀ m ∈ appended, m.id ∉ stored.map Message.id) : s'.load = s.load := by
  have hold : s'.unhidden appended = s.unhidden appended := by
    refine List.filter_congr fun m hm => ?_
    have hsame : m.id ∈ s'.removed ↔ m.id ∈ s.removed := by
      rw [hremoved]
      exact or_iff_left (hnew m hm)
    simp [hsame]
  have hgone : s'.unhidden stored = [] := by
    refine List.filter_eq_nil_iff.mpr fun m hm => ?_
    have hmem : m.id ∈ s'.removed := (hremoved _).mpr (.inr (List.mem_map_of_mem hm))
    simp [hmem]
  rw [h.load_eq, h'.load_eq, unhidden, List.filter_append]
  change Except.ok ((s'.unhidden appended ++ s'.unhidden stored).map Message.asRead) = _
  rw [hold, hgone, List.append_nil]

end MessageLog

namespace Broker

open BrokerM

section Atomic

variable {σ : Type} [MessageStore σ] {log : σ → MessageLog}

/-- Messages that cannot all be stored leave no trace, in whatever order they are stored, if their
identifiers are new. -/
theorem perform_persist_eq_error (hlog : MessageStore.Backed log) {b b' : Broker σ}
    {messages appended : List Message} {e : BrokerError} (hholds : (log b.store).Holds appended)
    (hread : ∀ m ∈ messages, m.Readable)
    (hfail : b.perform (persist [] messages) = (.error e, b')) :
    ∃ store, b' = { b with store } ∧ ((∀ n ∈ appended, ∀ m ∈ messages, n.id ≠ m.id) →
      MessageStore.load store = MessageStore.load b.store) := by
  rcases perform_persist hlog hholds hread [] with
    ⟨store, hpersist, -, -⟩ | ⟨store, reason, stored, hpersist, hinitial, hstored, hremoved⟩
  · cases hpersist.symm.trans hfail
  · cases hpersist.symm.trans hfail
    refine ⟨store, rfl, fun hnew => ?_⟩
    rw [hlog.load, hlog.load, hholds.load_of_rolledBack hstored (fun id => ?_) fun n hn hid => ?_]
    · simpa using hremoved id
    · obtain ⟨m, hm, heq⟩ := List.mem_map.mp hid
      exact hnew n hn m (hinitial.subset hm) heq.symm

/-- A plan that fails is not carried out, and nothing is stored for it. -/
theorem perform_commit_eq_error (hlog : MessageStore.Backed log) {b b' : Broker σ}
    {plan : RoutePlan} {appended : List Message} {e : BrokerError}
    (hholds : (log b.store).Holds appended) (hreplay : plan.replay = false)
    (hread : ∀ d ∈ plan.deliveries, d.message.Readable)
    (hfail : b.perform (commit plan) = (.error e, b')) :
    ∃ store, b' = { b with store } ∧
      ((∀ n ∈ appended, ∀ d ∈ plan.deliveries, n.id ≠ d.message.id) →
        MessageStore.load store = MessageStore.load b.store) := by
  rw [commit_eq, perform_bind, perform_persistPlan_of_new b hreplay] at hfail
  split at hfail
  · -- All messages are stored, and the rest does not fail.
    next stored _ =>
      rw [perform_bind_ok _ (perform_get _), perform_bind_ok _ (perform_set ..)] at hfail
      obtain ⟨counts, store, hrelease⟩ := perform_forM_release (perform_releaseId hlog)
        { stored with
          router := (stored.router.commit plan).2
          durableCounts := plan.kept.foldl addReference stored.durableCounts }
        ((stored.router.commit plan).1.flatMap RoutedReference.releasedIds)
      rw [perform_bind_ok _ hrelease] at hfail
      cases hfail
  · next hpersist =>
      cases hfail
      obtain ⟨store, rfl, hload⟩ := perform_persist_eq_error hlog hholds (fun m hm => by
        obtain ⟨d, hd, rfl⟩ := exists_delivery_of_mem_toPersist hm
        exact hread d hd) hpersist
      refine ⟨store, rfl, fun hnew => hload fun n hn m hm => ?_⟩
      obtain ⟨d, hd, rfl⟩ := exists_delivery_of_mem_toPersist hm
      exact hnew n hn d hd

variable {published : List Message} {b b' : Broker σ}

/-- **A message that is refused leaves no trace.** The store is a log in memory that may refuse any
message, in any state that a broker comes to over it, and the message and its copies are stored in
whatever order the broker has for them. If a message whose identifier is new, with
new identifiers for its copies, is not published, then the queues, the counters of the router and
the counts of references are those of before, and the store loads what it loaded before. -/
theorem publish_atomic (hlog : MessageStore.Backed log)
    (hb : Reachable (fun s => log s = {}) (fun s s' => (log s).compact = .ok (log s'))
      published b)
    {m : Message} (hread : ∀ n ∈ m :: published, n.Readable) {e : BrokerError}
    (hfail : b.perform (publish m) = (.error e, b'))
    (hfresh : ∀ id ∈ m.id :: b.ids.handedOut b'.ids.used, ¬b.Knows published id) :
    b'.router = b.router ∧ b'.durableCounts = b.durableCounts ∧
      MessageStore.load b'.store = MessageStore.load b.store := by
  have hcustody : b.Custody (Regime.records hlog) published :=
    hb.custody (fun known _ => Regime.records_of_empty hlog known)
      (fun known _ _ => Regime.records_of_compact hlog known)
      fun n hn => hread n (.tail _ hn)
  obtain ⟨appended, hholds, hknown⟩ := hcustody.stock
  have hdeliveries : ∀ d ∈ (b.router.plan b.ids m m.address).1.deliveries, d.message.Readable ∧
      d.message.id ∈ m.id :: b.ids.handedOut (b.router.plan b.ids m m.address).2.used :=
    fun d hd => hcustody.deliveries (hread m (.head _)) hd
  obtain ⟨-, -, hreplay, -⟩ :=
    b.router.registry.plan_explains b.router.maxDivertHops b.ids m
  rw [perform_publish] at hfail
  obtain ⟨store, rfl, hload⟩ := perform_commit_eq_error hlog (b := b.planned m) hholds hreplay
    (fun d hd => (hdeliveries d hd).1) hfail
  exact ⟨rfl, rfl, hload fun n hn d hd heq => hfresh _ (hdeliveries d hd).2 (heq ▸ hknown n hn)⟩

end Atomic

end Broker

/-! ### A store that refuses messages -/

/-- A store in memory that refuses messages at some of its calls. -/
structure GuardedLog where
  /-- The log. -/
  log : MessageLog := {}
  /-- Why the store refuses the message at a call, if it does. -/
  refuses : Nat → Option String
  /-- The number of calls so far. -/
  calls : Nat := 0

namespace GuardedLog

instance : MessageStore GuardedLog where
  append s m :=
    match s.refuses s.calls with
    | some reason => (.error reason, { s with calls := s.calls + 1 })
    | none =>
      let (result, log) := MessageStore.append s.log m
      (result, { s with log, calls := s.calls + 1 })
  remove s id := (.ok (), { s with log := s.log.remove id })
  load s := MessageStore.load s.log

theorem backed : MessageStore.Backed log where
  append s m := by
    simp only [MessageStore.append]
    cases s.refuses s.calls with
    | some reason => exact .inl ⟨reason, rfl, rfl⟩
    | none => exact MessageLog.backed.append s.log m
  remove _ _ := ⟨rfl, rfl⟩
  load _ := rfl

/-- The store that refuses the message at one call. -/
def refusing (call : Nat) : GuardedLog where
  refuses n := if n = call then some "full" else none

end GuardedLog

namespace Broker

/-- Two queues, and a divert that sends copies of what the first one gets to the second one. -/
def diverted : Config where
  queues := [{ name := "first", address := "orders" }, { name := "second", address := "late" }]
  diverts := [{ name := "away", address := "orders", forwardingAddress := "late" }]

theorem knows_iff {σ : Type} {b : Broker σ} {published : List Message} {id : MessageId} :
    b.Knows published id ↔
      id ∈ published.map Message.id ++ (List.range b.ids.used).map b.ids.id := by
  simp [Knows]

/-- Copies are stored before messages. After a message and its copy, the copy of another message is
stored, and this message is refused. There is a third record in the log then, but the store loads
what it loaded before. -/
theorem publish_atomic_secondCopy :
    ∃ (b b' : Broker GuardedLog) (e : BrokerError),
      b.perform (publish (order 2)) = (.error e, b') ∧ b'.store.log.records = 3 ∧
      b'.router = b.router ∧ b'.durableCounts = b.durableCounts ∧
      MessageStore.load b'.store = MessageStore.load b.store := by
  have hcheck : (deploy LogLevel.isSound { messages := .reversed } diverted
      (GuardedLog.refusing 3) (consecutive 100)).toOption.any fun b₀ =>
        let b := (b₀.perform (BrokerRequest.publish (order 1)).act).2
        let (result, b') := b.perform (publish (order 2))
        !result.toOption.isSome && decide (b'.store.log.records = 3) &&
        decide (∀ id ∈ (order 2).id :: b.ids.handedOut b'.ids.used,
          id ∉ ([order 1].map Message.id ++ (List.range b.ids.used).map b.ids.id)) := by
    decide +kernel
  obtain ⟨b₀, hb₀, hcheck⟩ := exists_ok_of_any hcheck
  have hreached : Reachable (fun s : GuardedLog => s.log = {})
      (fun s s' => s.log.compact = .ok s'.log) [order 1]
      (b₀.perform (BrokerRequest.publish (order 1)).act).2 :=
    .served (.publish (order 1)) (.deployed rfl hb₀)
  generalize (b₀.perform (BrokerRequest.publish (order 1)).act).2 = b at hcheck hreached
  dsimp only at hcheck
  rcases hfail : b.perform (publish (order 2)) with ⟨e | _, b'⟩
  · rw [hfail] at hcheck
    simp only [Bool.and_eq_true, decide_eq_true_iff] at hcheck
    obtain ⟨⟨-, hrecords⟩, hfresh⟩ := hcheck
    have hread : ∀ n ∈ order 2 :: [order 1], n.Readable := by
      intro n hn
      rcases List.mem_cons.mp hn with rfl | hn
      · exact readable_order 2
      · exact List.mem_singleton.mp hn ▸ readable_order 1
    obtain ⟨hrouter, hcounts, hsame⟩ := publish_atomic GuardedLog.backed hreached hread hfail
      fun id hid hknown => hfresh id hid (knows_iff.mp hknown)
    exact ⟨b, b', e, hfail, hrecords, hrouter, hcounts, hsame⟩
  · rw [hfail] at hcheck
    cases hcheck

/-- A message with a priority that no message is built with. A property holds the beginning of a
record in another version. -/
def misread : Message :=
  { order 1 with
    priority := 10
    properties := ({} : Properties).put "p"
      (.bytes (Record.magic ++ 7 :: List.replicate 11 0)) }

set_option maxRecDepth 8192 in
/-- **A message with a priority above 9 may leave a trace**: its record stays in the log after it
was removed, and the log cannot be read any more because of what is found inside the record. -/
theorem publish_leaves_trace :
    ¬∀ (published : List Message) (b b' : Broker GuardedLog) (m : Message) (e : BrokerError),
      Reachable (fun s => s.log = {}) (fun s s' => s.log.compact = .ok s'.log) published b →
      b.perform (publish m) = (.error e, b') →
      (∀ id ∈ m.id :: b.ids.handedOut b'.ids.used, ¬b.Knows published id) →
      b'.router = b.router ∧ b'.durableCounts = b.durableCounts ∧
        MessageStore.load b'.store = MessageStore.load b.store := by
  intro hall
  have hcheck : (deploy LogLevel.isSound {} diverted (GuardedLog.refusing 1)
      (consecutive 100)).toOption.any fun b =>
      let (result, b') := b.perform (publish misread)
      !result.toOption.isSome &&
      decide (∀ id ∈ misread.id :: b.ids.handedOut b'.ids.used,
        id ∉ (([] : List Message).map Message.id ++ (List.range b.ids.used).map b.ids.id)) &&
      (MessageStore.load b.store).toOption.isSome &&
      !(MessageStore.load b'.store).toOption.isSome := by
    decide +kernel
  obtain ⟨b, hb, hcheck⟩ := exists_ok_of_any hcheck
  dsimp only at hcheck
  rcases hfail : b.perform (publish misread) with ⟨e | _, b'⟩
  · rw [hfail] at hcheck
    simp only [Bool.and_eq_true, decide_eq_true_iff] at hcheck
    obtain ⟨⟨⟨-, hfresh⟩, hbefore⟩, hafter⟩ := hcheck
    obtain ⟨-, -, hsame⟩ := hall [] b b' misread e (.deployed rfl hb) hfail
      fun id hid hknown => hfresh id hid (knows_iff.mp hknown)
    rw [hsame, hbefore] at hafter
    cases hafter
  · rw [hfail] at hcheck
    cases hcheck

end Broker

end Courier
