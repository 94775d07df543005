import Courier.Proofs.Broker.Perform
import Courier.Proofs.Store

/-!
# Storing and Counting

The messages of a plan are stored once each, and the references to them are counted once for each
queue. The store may refuse a message; then those that were stored before it are removed again.

## Main results

* `Broker.perform_persist`: messages are stored, or the store refuses one of them.
* `Broker.perform_releaseId`: giving up references does not fail.
* `Broker.get?_foldl_addReference`: counting adds up.
* `Message.spec_of_perm_distinct`: each message once, in any order.
-/

namespace Courier

/-- A count, unless it is zero. -/
def positive (n : Nat) : Option Nat := if n = 0 then none else some n

namespace MessageLog

theorem append_eq_ok {s s' : MessageLog} {m : Message} (h : s.append m = .ok s') :
    ∃ record, m.toRecord = .ok record := by
  rw [append] at h
  cases hw : m.toRecord with
  | ok record => exact ⟨record, rfl⟩
  | error e => rw [hw] at h; cases h

theorem Holds.removeAll {s : MessageLog} {messages : List Message} (h : s.Holds messages)
    (ids : List MessageId) : (ids.foldl MessageLog.remove s).Holds messages := by
  induction ids generalizing s with
  | nil => exact h
  | cons id ids ih => exact ih (h.remove id)

theorem mem_removed_removeAll (s : MessageLog) (ids : List MessageId) (id : MessageId) :
    id ∈ (ids.foldl remove s).removed ↔ id ∈ s.removed ∨ id ∈ ids := by
  induction ids generalizing s with
  | nil => simp
  | cons other ids ih =>
      rw [List.foldl_cons, ih, mem_removed_remove, List.mem_cons]
      tauto

end MessageLog

namespace Broker

section Backed

variable {σ : Type} [MessageStore σ] {log : σ → MessageLog}

theorem perform_rollback (hlog : MessageStore.Backed log) (b : Broker σ) (ids : List MessageId) :
    ∃ store, b.perform (ids.forM fun id =>
      discard (tryStore (MessageStore.remove · id) : BrokerM σ (Except String Unit))) =
        (.ok ⟨⟩, { b with store }) ∧ log store = ids.foldl MessageLog.remove (log b.store) := by
  induction ids generalizing b with
  | nil => exact ⟨b.store, rfl, rfl⟩
  | cons id ids ih =>
      have hfirst : b.perform (discard (tryStore (MessageStore.remove · id) :
          BrokerM σ (Except String Unit))) =
            (.ok (), { b with store := (MessageStore.remove b.store id).2 }) := rfl
      obtain ⟨store, hrest, hstore⟩ :=
        ih { b with store := (MessageStore.remove b.store id).2 }
      refine ⟨store, (perform_bind_ok _ hfirst).trans hrest, ?_⟩
      rw [hstore, (hlog.remove b.store id).2]
      rfl

/-- Messages are stored one after another. When the store refuses one, those before it are removed
again. -/
theorem perform_persist (hlog : MessageStore.Backed log) {b : Broker σ}
    {appended messages : List Message} (h : (log b.store).Holds appended)
    (hread : ∀ m ∈ messages, m.Readable) (written : List MessageId) :
    (∃ store, b.perform (persist written messages) = (.ok (), { b with store }) ∧
      (log store).Holds (appended ++ messages) ∧
      (log store).removed = (log b.store).removed) ∨
    ∃ store reason stored, b.perform (persist written messages) =
        (.error (.storage reason), { b with store }) ∧
      stored <+: messages ∧ (log store).Holds (appended ++ stored) ∧
      ∀ id, id ∈ (log store).removed ↔
        id ∈ (log b.store).removed ∨ id ∈ written ∨ id ∈ stored.map Message.id := by
  induction messages generalizing b appended written with
  | nil => exact .inl ⟨b.store, rfl, by simpa using h, rfl⟩
  | cons m messages ih =>
      rw [persist, perform_bind_ok _ (perform_tryStore ..)]
      rcases hlog.append b.store m with ⟨reason, hresult, hsame⟩ | ⟨hresult, happend⟩
      · rw [hresult]
        dsimp only
        obtain ⟨store, hrollback, hstore⟩ := perform_rollback hlog
          { b with store := (MessageStore.append b.store m).2 } written
        rw [perform_bind_ok _ hrollback]
        dsimp only at hstore
        rw [hsame] at hstore
        refine .inr ⟨store, reason, [], rfl, List.nil_prefix, ?_, fun id => ?_⟩
        · rw [List.append_nil, hstore]
          exact h.removeAll written
        · rw [hstore, MessageLog.mem_removed_removeAll]
          simp
      · obtain ⟨record, hw⟩ := MessageLog.append_eq_ok happend
        obtain ⟨store', happend', hholds, hremoved⟩ := h.append (hread m (.head _)) hw
        rw [happend] at happend'
        cases happend'
        rw [hresult]
        rcases ih (b := { b with store := (MessageStore.append b.store m).2 }) hholds
          (fun m hm => hread m (.tail _ hm)) (written ++ [m.id]) with
          ⟨final, hrest, hall, hsame⟩ | ⟨final, reason, stored, hrest, hinitial, hall, hgone⟩
        · exact .inl ⟨final, hrest, by simpa using hall, hsame.trans hremoved⟩
        · refine .inr ⟨final, reason, m :: stored, hrest, ?_, by simpa using hall, fun id => ?_⟩
          · exact List.cons_prefix_cons.mpr ⟨rfl, hinitial⟩
          · rw [hgone, hremoved, List.mem_append, List.mem_singleton, List.map_cons,
              List.mem_cons]
            tauto

/-- Giving up references does not fail, and touches nothing but the counts and the store. -/
theorem perform_releaseId (hlog : MessageStore.Backed log) (b : Broker σ) (id : MessageId) :
    ∃ counts store,
      b.perform (releaseId id) = (.ok (), { b with durableCounts := counts, store }) := by
  rw [releaseId, perform_bind_ok _ (perform_get b)]
  split
  · exact ⟨b.durableCounts, b.store, rfl⟩
  · next n _ =>
      split
      · exact ⟨b.durableCounts.insert id (n - 1), b.store, rfl⟩
      · rw [perform_bind_ok _ (perform_set ..), callStore, perform_bind_ok _ (perform_tryStore ..),
          (hlog.remove b.store id).1]
        exact ⟨b.durableCounts.erase id, _, rfl⟩

theorem perform_release (hlog : MessageStore.Backed log) (b : Broker σ) (q : QueueInfo)
    (m : Message) :
    ∃ counts store,
      b.perform (release q m) = (.ok (), { b with durableCounts := counts, store }) := by
  rw [release]
  split
  · exact perform_releaseId hlog b m.id
  · exact ⟨b.durableCounts, b.store, rfl⟩

end Backed

/-- Actions that touch nothing but the counts and the store, one after another. -/
theorem perform_forM_release {σ α : Type} {act : α → BrokerM σ PUnit}
    (h : ∀ (b : Broker σ) (a : α), ∃ counts store,
      b.perform (act a) = (.ok ⟨⟩, { b with durableCounts := counts, store }))
    (b : Broker σ) (items : List α) :
    ∃ counts store,
      b.perform (items.forM act) = (.ok ⟨⟩, { b with durableCounts := counts, store }) := by
  induction items generalizing b with
  | nil => exact ⟨b.durableCounts, b.store, rfl⟩
  | cons a items ih =>
      obtain ⟨counts, store, hfirst⟩ := h b a
      obtain ⟨counts', store', hrest⟩ := ih { b with durableCounts := counts, store }
      exact ⟨counts', store', (perform_bind_ok _ hfirst).trans hrest⟩

/-- Counting references adds them up. -/
theorem get?_foldl_addReference (messages : List Message) (counts : Dictionary MessageId Nat)
    (id : MessageId) {n : Nat} (h : counts.get? id = positive n) :
    (messages.foldl addReference counts).get? id =
      positive ((messages.map Message.id).count id + n) := by
  induction messages generalizing counts n with
  | nil => simpa using h
  | cons m messages ih =>
      rw [List.foldl_cons, List.map_cons, List.count_cons]
      by_cases hid : m.id = id
      · have hget : (counts.get? m.id).getD 0 = n := by
          rw [hid, h, positive]
          split
          · next hzero => simp [hzero]
          · rfl
        have hnext : (addReference counts m).get? id = positive (n + 1) := by
          rw [addReference, hget, hid, Dictionary.get?_insert_self]
          rfl
        rw [ih _ hnext]
        simp [hid, Nat.add_assoc, Nat.add_comm]
      · have hnext : (addReference counts m).get? id = positive n := by
          rw [addReference, Dictionary.get?_insert_of_ne (Ne.symm hid), h]
        rw [ih _ hnext]
        simp [hid]

end Broker

namespace Message

theorem distinct_invariant (messages found : List Message) (hfound : (found.map id).Nodup) :
    let all := messages.foldl
      (fun found m => if found.any (·.id = m.id) then found else m :: found) found
    (all.map id).Nodup ∧ (∀ m ∈ all, m ∈ found ∨ m ∈ messages) ∧
      (∀ m ∈ found, m ∈ all) ∧ ∀ m ∈ messages, m.id ∈ all.map id := by
  induction messages generalizing found with
  | nil => simpa using hfound
  | cons m messages ih =>
      rw [List.foldl_cons]
      by_cases hany : found.any (·.id = m.id)
      · obtain ⟨hnodup, hmem, hfirst, hrest⟩ := ih found hfound
        rw [if_pos hany]
        refine ⟨hnodup, fun n hn => (hmem n hn).imp_right (.tail _), hfirst, fun n hn => ?_⟩
        rcases List.mem_cons.mp hn with rfl | hn
        · obtain ⟨other, hother, hid⟩ := List.any_eq_true.mp hany
          rw [← of_decide_eq_true hid]
          exact List.mem_map_of_mem (hfirst other hother)
        · exact hrest n hn
      · have hnew : m.id ∉ found.map id := by
          intro hmem
          obtain ⟨other, hother, hid⟩ := List.mem_map.mp hmem
          exact hany (List.any_eq_true.mpr ⟨other, hother, decide_eq_true hid⟩)
        obtain ⟨hnodup, hmem, hfirst, hrest⟩ :=
          ih (m :: found) (List.nodup_cons.mpr ⟨hnew, hfound⟩)
        rw [if_neg hany]
        refine ⟨hnodup, fun n hn => ?_, fun n hn => hfirst n (.tail _ hn), fun n hn => ?_⟩
        · rcases hmem n hn with hn | hn
          · rcases List.mem_cons.mp hn with rfl | hn
            · exact .inr (.head _)
            · exact .inl hn
          · exact .inr (.tail _ hn)
        · rcases List.mem_cons.mp hn with rfl | hn
          · exact List.mem_map_of_mem (hfirst n (.head _))
          · exact hrest n hn

/-- Each message once. -/
theorem distinct_spec (messages : List Message) :
    ((distinct messages).map id).Nodup ∧ (∀ m ∈ distinct messages, m ∈ messages) ∧
      ∀ m ∈ messages, m.id ∈ (distinct messages).map id := by
  obtain ⟨hnodup, hmem, -, hall⟩ := distinct_invariant messages [] .nil
  refine ⟨?_, fun m hm => ?_, fun m hm => ?_⟩
  · rw [distinct, List.map_reverse]
    exact List.nodup_reverse.mpr hnodup
  · exact (hmem m (List.mem_reverse.mp hm)).resolve_left List.not_mem_nil
  · rw [distinct, List.map_reverse]
    exact List.mem_reverse.mpr (hall m hm)

/-- Each message once, in any order. -/
theorem spec_of_perm_distinct {messages stored : List Message}
    (h : stored.Perm (distinct messages)) :
    (stored.map id).Nodup ∧ (∀ m ∈ stored, m ∈ messages) ∧
      ∀ m ∈ messages, m.id ∈ stored.map id := by
  obtain ⟨hnodup, hmem, hall⟩ := distinct_spec messages
  have hids := h.map Message.id
  exact ⟨hids.nodup_iff.mpr hnodup, fun m hm => hmem m (h.mem_iff.mp hm),
    fun m hm => hids.mem_iff.mpr (hall m hm)⟩

end Message

end Courier
