import Courier.Proofs.Broker.Forwarding
import Courier.Proofs.Broker.Histories

/-!
# Sweeping All Queues

A sweep goes through the queues of a broker one after another and takes out what has expired. If a
queue names an address for what has expired, a copy of each message is published there before the
sweep goes on. The copy may come to a queue that was swept already, to one that is yet to be swept,
or to the very queue that the message left; it may come there through diverts, and in a last-value
queue it may take the place of another message. Copies do not expire, so that a queue that was
swept stays clean: when the sweep has been through all queues, in whatever order, nothing that has
expired is left, and a second sweep finds nothing to do.

## Conventions

A sweep that goes on is described by its account: what was taken out of queues so far, what of it
was let go of, the copies that were sent on, and the state of the broker. Queues are swept in an
order that is given; the broker itself sweeps them in the order of its walk over them.

## Main definitions

* `Queue.Counted`: what a sweep leaves alone in a queue, and what it counts.
* `Queue.Clean`: a queue of which nothing is to be taken out.
* `Broker.sweep`: goes through queues in a given order.
* `Broker.Sweeping`: what a sweep did so far.

## Main results

* `Queue.Clean.expire_eq`: sweeping a clean queue changes nothing.
* `Broker.Sweeping.take`, `Broker.Sweeping.letGo`: the steps of a sweep.
* `Broker.Sweeping.expireQueue`, `Broker.Sweeping.expireQueues`: a sweep goes through queues.
* `Broker.sweep_complete`: **a sweep that succeeds is complete**, and a second one finds nothing.
-/

namespace Courier

/-! ### One queue -/

namespace Queue

/-- Of a queue from which references were taken out as expired, nothing in delivery was touched, and
its counter tells how many there were. -/
structure Counted (q : Queue) (out : List Reference) (q' : Queue) : Prop where
  delivering_eq : q'.delivering = q.delivering
  expired_eq : q'.counters.expired = q.counters.expired + out.length

/-- Nothing is to be taken out of a queue as expired at a time. -/
structure Clean (now : Timestamp) (q : Queue) : Prop where
  setAside : q.expired = []
  waiting : ∀ r ∈ q.pending.values, ¬r.message.isExpired now

variable {q q' q'' : Queue} {out out' : List Reference} {now : Timestamp}

theorem Counted.refl (q : Queue) : q.Counted [] q := ⟨rfl, rfl⟩

theorem Counted.trans (h : q.Counted out q') (h' : q'.Counted out' q'') :
    q.Counted (out ++ out') q'' := by
  refine ⟨h'.delivering_eq.trans h.delivering_eq, ?_⟩
  rw [h'.expired_eq, h.expired_eq, List.length_append, Nat.add_assoc]

theorem counted_expire (q : Queue) (now : Timestamp) :
    q.Counted (q.expire now).1 (q.expire now).2 :=
  ⟨(takeAll_frame ..).1, rfl⟩

theorem counted_add (q : Queue) (m : Message) : q.Counted [] (q.add m).2 := by
  rw [Queue.add]
  split <;> exact ⟨rfl, rfl⟩

theorem Clean.not_isExpired (h : q.Clean now) {slot : Slot} {r : Reference}
    (hr : q.pending.get? slot = some r) : ¬r.message.isExpired now :=
  h.waiting r (Dictionary.mem_values_iff.mpr ⟨slot, hr⟩)

/-- A queue is clean after it was swept. -/
theorem LaidOut.clean_expire (h : q.LaidOut q.order) (now : Timestamp) :
    (q.expire now).2.Clean now := by
  obtain ⟨hlaid, hplain⟩ := h.expire now
  refine ⟨rfl, fun r hr => ?_⟩
  -- Slots are swept by their order; each one that leads to a reference is in it.
  have hwaiting : (q.expire now).2.pendingReferences =
      q.pendingReferences.filter (!·.isLate now) := (congrArg (·.2.waiting) hplain).symm
  have hmem := hlaid.values_perm.mem_iff.mp hr
  rw [show (q.expire now).2.order.filterMap _ = _ from hwaiting] at hmem
  simpa [Reference.isLate] using (List.mem_filter.mp hmem).2

/-- A clean queue stays clean when a message comes that does not expire. -/
theorem Clean.add (h : q.Clean now) {m : Message} (hm : m.expiration = none) :
    (q.add m).2.Clean now := by
  have hstays : ∀ place slot r, (q.pending.insert place
      { message := m, lastValue := q.lastValueOf m }).get? slot = some r →
      ¬r.message.isExpired now := by
    intro place slot r hr
    rw [Dictionary.get?_insert] at hr
    split at hr
    · cases hr
      simp [Message.isExpired, hm]
    · exact h.not_isExpired hr
  rw [Queue.add]
  split
  all_goals
    refine ⟨h.setAside, fun r hr => ?_⟩
    obtain ⟨slot, hslot⟩ := Dictionary.mem_values_iff.mp hr
    exact hstays _ slot r hslot

/-- **Sweeping a clean queue changes nothing.** -/
theorem Clean.expire_eq (h : q.Clean now) : q.expire now = ([], q) := by
  have hstale : ∀ slot ∈ q.order, q.isStale now slot = false := by
    intro slot _
    cases hr : q.pending.get? slot with
    | none => rw [isStale, hr]; rfl
    | some r => rw [isStale_of_get? hr]; simpa [Reference.isLate] using h.not_isExpired hr
  have hnone : q.order.filter (q.isStale now) = [] :=
    List.filter_eq_nil_iff.mpr fun slot hslot => by simp [hstale slot hslot]
  have hall : q.order.filter (not ∘ q.isStale now) = q.order :=
    List.filter_eq_self.mpr fun slot hslot => by simp [hstale slot hslot]
  have hexpired := h.setAside
  rw [Queue.expire, List.partition_eq_filter_filter, hnone, hall]
  obtain ⟨info, order, pending, lastValues, nextSlot, delivering, expired, counters⟩ := q
  obtain rfl : expired = [] := hexpired
  rfl

end Queue

/-! ### All queues of a router -/

namespace Router

/-- Of queues from which references were taken out as expired, nothing in delivery was touched, and
their counters tell how many there were. -/
def Counted (r : Router) (removed : List Removal) (r' : Router) : Prop :=
  ∀ id q, r.queues.get? id = some q → ∃ q', r'.queues.get? id = some q' ∧
    q.Counted (Removal.at id removed) q'

/-- Nothing is to be taken out of the queue of a binding. -/
def CleanAt (now : Timestamp) (r : Router) (id : BindingId) : Prop :=
  ∀ q, r.queues.get? id = some q → q.Clean now

variable {r r' r'' : Router} {removed removed' : List Removal} {deliveries : List Delivery}
  {now : Timestamp} {id : BindingId}

theorem Counted.refl (r : Router) : r.Counted [] r := fun _ q hq => ⟨q, hq, .refl q⟩

theorem Counted.trans (h : r.Counted removed r') (h' : r'.Counted removed' r'') :
    r.Counted (removed ++ removed') r'' := by
  intro id q hq
  obtain ⟨q', hq', hcounted⟩ := h id q hq
  obtain ⟨q'', hq'', hcounted'⟩ := h' id q' hq'
  rw [Removal.at_append]
  exact ⟨q'', hq'', hcounted.trans hcounted'⟩

theorem Counted.of_queues_eq (h : r.Counted removed r') (hqueues : r''.queues = r'.queues) :
    r.Counted removed r'' := by
  intro id q hq
  rw [hqueues]
  exact h id q hq

/-- What has expired is taken out of one queue. -/
theorem counted_expire {q : Queue} (hq : r.queues.get? id = some q) (now : Timestamp) :
    r.Counted (Removal.ofBatch id q.toQueueInfo (q.expire now).1)
      { r with queues := r.queues.insert id (q.expire now).2 } := by
  intro other found hfound
  by_cases hid : other = id
  · subst hid
    obtain rfl := Option.some.inj (hfound.symm.trans hq)
    refine ⟨_, Dictionary.get?_insert_self .., ?_⟩
    rw [Removal.at_ofBatch_self]
    exact found.counted_expire now
  · refine ⟨found, (Dictionary.get?_insert_of_ne hid).trans hfound, ?_⟩
    rw [Removal.at_ofBatch_of_ne hid]
    exact .refl found

/-- Messages are delivered to queues. -/
theorem Counted.deliverAll (h : r.Counted removed r') (deliveries : List Delivery) :
    r.Counted removed (r'.deliverAll deliveries).2 := by
  induction deliveries generalizing r' with
  | nil => exact h
  | cons d deliveries ih =>
      suffices hfirst : r.Counted removed (r'.deliver d).2 from ih hfirst
      intro id q hq
      obtain ⟨q', hq', hcounted⟩ := h id q hq
      refine ⟨_, (r'.get?_deliver d id).trans (congrArg _ hq'), ?_⟩
      dsimp only
      split
      · have hadded := hcounted.trans (q'.counted_add d.message)
        rwa [List.append_nil] at hadded
      · exact hcounted

/-- Clean queues stay clean when messages come that do not expire. -/
theorem CleanAt.deliverAll (h : r.CleanAt now id)
    (hlasting : ∀ d ∈ deliveries, d.message.expiration = none) :
    (r.deliverAll deliveries).2.CleanAt now id := by
  induction deliveries generalizing r with
  | nil => exact h
  | cons d deliveries ih =>
      refine ih (r := (r.deliver d).2) (fun found hfound => ?_) fun d hd => hlasting d (.tail _ hd)
      rw [get?_deliver, Option.map_eq_some_iff] at hfound
      obtain ⟨q, hq, rfl⟩ := hfound
      split
      · exact (h q hq).add (hlasting d (.head _))
      · exact h q hq

theorem CleanAt.of_queues_eq (h : r.CleanAt now id) (hqueues : r'.queues = r.queues) :
    r'.CleanAt now id := fun q hq => h q (hqueues ▸ hq)

end Router

namespace Broker

open BrokerM

variable {σ : Type}

/-- Removes what has expired from some queues, one after another, and tells how much that was. -/
def sweep [MessageStore σ] (now : Timestamp) (order : List BindingId) : BrokerM σ Nat := do
  let numbers ← order.mapM (expireQueue now)
  let total := numbers.foldl (· + ·) 0
  count fun c => { c with expired := c.expired + total }
  return total

/-- The broker sweeps all its queues, in the order of its walk over them. -/
theorem expireMessages_eq_sweep [MessageStore σ] (b : Broker σ) (now : Timestamp) :
    b.perform (expireMessages now) = b.perform (sweep now b.toExpire) ∧
      b.toExpire.Perm b.queueIds.values :=
  ⟨rfl, b.walks.queues.perm _ _⟩

/-- What a sweep did so far: the account of a departure, with as many messages published as copies
were sent, and references in delivery untouched. -/
structure Sweeping (now : Timestamp) (b : Broker σ) (removed settled : List Removal)
    (sent : List Sending) (b' : Broker σ) : Prop
    extends b.Account (.expired now) removed settled sent b' where
  published_eq : b'.counters.published = b.counters.published + sent.length
  counted : b.router.Counted removed b'.router

variable {b b₁ b₂ : Broker σ} {now : Timestamp} {removed settled : List Removal}
  {sent : List Sending} {published : List Message} {id : BindingId} {x : Removal}

namespace Sweeping

/-- Nothing happens but that counters of other things change. -/
theorem count (h : b.Sweeping now removed settled sent b₁) {counters : BrokerCounters}
    (hcounters : counters.published = b₁.counters.published) :
    b.Sweeping now removed settled sent { b₁ with counters } where
  toAccount := h.toAccount.of_queues_eq ⟨rfl, rfl, rfl, rfl, rfl, Nat.le_refl _⟩ rfl
  published_eq := hcounters.trans h.published_eq
  counted := h.counted

/-- Copies are published at the addresses that their queues name, and do not expire. -/
theorem copy_eq (h : b.Sweeping now removed settled sent b₁) {s : Sending} (hs : s ∈ sent) :
    s.copy.expiration = none ∧ s.queue.settings.expiryAddress = some s.copy.address := by
  obtain ⟨turn, target, -, -, htarget, hcopy, -⟩ := (h.made s hs).copied
  rw [hcopy]
  exact ⟨rfl, htarget⟩

variable [MessageStore σ]

theorem start {R : Regime σ} (hb : b.Custody R published) (now : Timestamp) :
    b.Sweeping now [] [] [] b where
  toAccount := .start hb _
  published_eq := rfl
  counted := .refl _

/-- **What has expired is taken out of a queue.** -/
theorem take (h : b.Sweeping now removed removed sent b₁)
    (hb₁ : b₁.Expiring published now b.router) {q : Queue}
    (hq : b₁.router.queues.get? id = some q) :
    b.Sweeping now (removed ++ Removal.ofBatch id q.toQueueInfo (q.expire now).1) removed sent
      { b₁ with
        router := { b₁.router with queues := b₁.router.queues.insert id (q.expire now).2 } } where
  toAccount := h.toAccount.takeExpired hb₁ hq
  published_eq := h.published_eq
  counted := h.counted.trans (Router.counted_expire hq now)

/-- **A reference is let go of** that was taken out. -/
theorem letGo (h : b.Sweeping now removed settled sent b₁)
    (hb₁ : b₁.Custody Regime.trivial published) (hx : x ∈ removed)
    (hperform : b₁.perform ((Departure.expired now).letGo x) = (.ok (), b₂)) :
    ∃ sent', b.Sweeping now removed (settled ++ [x]) sent' b₂ := by
  have hsteady := letGo_steady (.expired now) x b₁
  rw [hperform] at hsteady
  rcases htarget : (Departure.expired now).target x.queue with _ | target
  · obtain ⟨released, counts, store, hrelease⟩ :=
      exists_perform_release b₁ x.queue x.reference.message
    rw [Departure.letGo, htarget] at hperform
    cases hrelease.symm.trans hperform
    exact ⟨sent, (h.toAccount.drop htarget).of_queues_eq hsteady rfl, h.published_eq, h.counted⟩
  · obtain ⟨out, router, counts, store, hletGo, hrouter⟩ :=
      letGo_refused_or_sent (.expired now) b₁ (x := x) htarget rfl
    cases hletGo.symm.trans hperform
    rcases hrouter with ⟨-, e, herror⟩ | rfl
    · cases herror
    · obtain ⟨counters, hcommit⟩ := commit_router b₁.router _
      have hqueues := congrArg (·.2.queues) hcommit
      obtain ⟨s, hsent⟩ := h.toAccount.send hb₁ hx htarget rfl hsteady (lt_used_copied b₁ _) hqueues
      refine ⟨_, hsent, ?_, (h.counted.deliverAll _).of_queues_eq hqueues⟩
      rw [List.length_append, ← Nat.add_assoc, ← h.published_eq]
      rfl

/-- **All references of a batch are let go of.** -/
theorem letGo_forM {batch : List Removal} (h : b.Sweeping now removed settled sent b₁)
    (hb₁ : b₁.Custody Regime.trivial published) (hbatch : ∀ x ∈ batch, x ∈ removed)
    (hperform : b₁.perform (batch.forM (Departure.expired now).letGo) = (.ok ⟨⟩, b₂)) :
    ∃ sent', b.Sweeping now removed (settled ++ batch) sent' b₂ := by
  -- All of the batch was taken out at once, so that only what was let go of grows with it.
  induction batch generalizing settled sent b₁ with
  | nil =>
      cases hperform
      exact ⟨sent, by simpa using h⟩
  | cons x batch ih =>
      have hcustody := letGo_custody (.expired now) x b₁ hb₁
      rw [List.forM_eq_forM, List.forM_cons] at hperform
      obtain ⟨⟨⟩, b₃, hfirst, hrest⟩ := exists_of_perform_bind hperform
      rw [hfirst] at hcustody
      obtain ⟨sent', hnext⟩ := h.letGo hb₁ (hbatch x (.head _)) hfirst
      obtain ⟨sent'', hlast⟩ := ih hnext hcustody (fun y hy => hbatch y (.tail _ hy)) hrest
      refine ⟨sent'', ?_⟩
      rwa [List.append_assoc] at hlast

/-- **One queue is swept.** -/
theorem expireQueue (h : b.Sweeping now removed removed sent b₁)
    (hb₁ : b₁.Expiring published now b.router) {n : Nat}
    (hperform : b₁.perform (expireQueue now id) = (.ok n, b₂)) :
    ∃ removed' sent', b.Sweeping now removed' removed' sent' b₂ ∧
      removed'.length = removed.length + n := by
  rw [Broker.expireQueue, perform_bind_ok _ (perform_get b₁)] at hperform
  cases hq : b₁.router.queues.get? id with
  | none =>
      rw [hq] at hperform
      cases hperform
      exact ⟨removed, sent, h, rfl⟩
  | some q =>
      rw [hq] at hperform
      dsimp only at hperform
      have hyields := (hb₁.custody.router.keyed id q hq).expire now
      have hset := hb₁.custody.setQueue (hb₁.custody.router.setQueue_of_yields hq hyields).1
      rw [perform_bind_ok _ (perform_setQueue ..), forM_dismiss id, hyields.info_eq] at hperform
      obtain ⟨⟨⟩, b₃, hforM, hreturn⟩ := exists_of_perform_bind hperform
      cases hreturn
      obtain ⟨sent', hlast⟩ := (h.take hb₁ hq).letGo_forM hset
        (fun x hx => List.mem_append_right _ hx) hforM
      exact ⟨_, sent', hlast, by rw [List.length_append, Removal.ofBatch, List.length_map]⟩

/-- **Queues are swept one after another**, in whatever order. -/
theorem expireQueues {order : List BindingId} (h : b.Sweeping now removed removed sent b₁)
    (hb₁ : b₁.Expiring published now b.router) {numbers : List Nat}
    (hperform : b₁.perform (order.mapM (Broker.expireQueue now)) = (.ok numbers, b₂)) :
    ∃ removed' sent', b.Sweeping now removed' removed' sent' b₂ ∧
      removed'.length = numbers.foldl (· + ·) removed.length := by
  -- Between two queues whatever was taken out was let go of.
  induction order generalizing removed sent b₁ numbers with
  | nil =>
      cases hperform
      exact ⟨removed, sent, h, rfl⟩
  | cons id order ih =>
      have hnext := expireQueue_expiring now b.router id b₁ hb₁
      obtain ⟨n, rest, b₃, rfl, hfirst, hrest⟩ := exists_of_perform_mapM_cons hperform
      rw [hfirst] at hnext
      obtain ⟨removed', sent', hswept, hcount⟩ := h.expireQueue hb₁ hfirst
      obtain ⟨removed'', sent'', hlast, htotal⟩ := ih hswept hnext hrest
      exact ⟨removed'', sent'', hlast, by rw [htotal, hcount, List.foldl_cons]⟩

end Sweeping

variable [MessageStore σ]

/-! ### Queues that were swept are clean -/

/-- Letting go of a reference brings nothing to the queues but copies that do not expire. -/
theorem letGo_queues (hb : b.Custody Regime.trivial published) (now : Timestamp) (x : Removal) :
    ∃ deliveries : List Delivery, (∀ d ∈ deliveries, d.message.expiration = none) ∧
      (b.perform ((Departure.expired now).letGo x)).2.router.queues =
        (b.router.deliverAll deliveries).2.queues := by
  rcases htarget : (Departure.expired now).target x.queue with _ | target
  · obtain ⟨released, counts, store, hrelease⟩ :=
      exists_perform_release b x.queue x.reference.message
    refine ⟨[], fun _ hd => absurd hd List.not_mem_nil, ?_⟩
    rw [Departure.letGo, htarget]
    dsimp only
    rw [hrelease]
    rfl
  · obtain ⟨result, router, counts, store, hletGo, hrouter⟩ :=
      letGo_refused_or_sent _ b (x := x) htarget rfl
    rw [hletGo]
    rcases hrouter with ⟨rfl, -⟩ | rfl
    · exact ⟨[], fun _ hd => absurd hd List.not_mem_nil, rfl⟩
    · obtain ⟨counters, hcommit⟩ := commit_router b.router _
      have hmarks := Departure.expired_marks now
      refine ⟨_, fun d hd => ?_, congrArg (·.2.queues) hcommit⟩
      exact hb.router.bound.registry.of_mem_plan hd hmarks.forwarded (hmarks.copy ..)

/-- A queue is clean after it was swept, and stays so while others are swept. -/
theorem expireQueue_cleanAt (hb : b.Custody Regime.trivial published) (hhistories : b.HaveHistories)
    {other : BindingId} (h : other = id ∨ b.router.CleanAt now other) :
    (b.perform (expireQueue now id)).2.router.CleanAt now other := by
  have hletGo : ∀ x, ((Departure.expired now).letGo x : BrokerM σ Unit).Keeps fun b =>
      b.Custody Regime.trivial published ∧ b.router.CleanAt now other := by
    rintro x b ⟨hb, hclean⟩
    obtain ⟨deliveries, hlasting, hqueues⟩ := letGo_queues hb now x
    exact ⟨letGo_custody _ x b hb, (hclean.deliverAll hlasting).of_queues_eq hqueues⟩
  rw [expireQueue, perform_bind_ok _ (perform_get b)]
  cases hq : b.router.queues.get? id with
  | none =>
      rcases h with rfl | h
      · intro q hfound
        rw [show b.router.queues.get? other = some q from hfound] at hq
        cases hq
      · exact h
  | some q =>
      have hyields := (hb.router.keyed id q hq).expire now
      have hset := hb.setQueue (hb.router.setQueue_of_yields hq hyields).1
      have hswept := (hhistories id q hq).laidOut.clean_expire now
      have hclean : Router.CleanAt now
          { b.router with queues := b.router.queues.insert id (q.expire now).2 } other := by
        intro found hfound
        rw [Dictionary.get?_insert] at hfound
        split at hfound
        · cases hfound
          exact hswept
        · next hne => exact h.resolve_left hne found hfound
      dsimp only
      rw [perform_bind_ok _ (perform_setQueue ..), forM_dismiss id]
      exact (((Keeps.forM hletGo _).bind fun _ => .pure _) _ ⟨hset, hclean⟩).2

/-- All queues that were swept are clean, and so are those that were clean before. -/
theorem expireQueues_cleanAt {order : List BindingId} {r : Router}
    (hb : b.Expiring published now r) (hhistories : b.HaveHistories) {numbers : List Nat}
    (hperform : b.perform (order.mapM (expireQueue now)) = (.ok numbers, b₂)) {other : BindingId}
    (h : other ∈ order ∨ b.router.CleanAt now other) : b₂.router.CleanAt now other := by
  -- A queue that is not among the remaining ones was clean before; copies keep it so.
  induction order generalizing b numbers with
  | nil =>
      cases hperform
      exact h.resolve_left List.not_mem_nil
  | cons id order ih =>
      have hnext := expireQueue_expiring now r id b hb
      have hkept := expireQueue_keeps_histories now id b hhistories
      have hclean : other = id ∨ b.router.CleanAt now other →
          (b.perform (expireQueue now id)).2.router.CleanAt now other :=
        expireQueue_cleanAt hb.custody hhistories
      obtain ⟨n, rest, b₃, rfl, hfirst, hrest⟩ := exists_of_perform_mapM_cons hperform
      rw [hfirst] at hnext hkept hclean
      refine ih hnext hkept hrest ?_
      rcases h with hmem | h
      · exact (List.mem_cons.mp hmem).symm.imp_right (hclean ∘ .inl)
      · exact .inr (hclean (.inr h))

/-- **All queues are clean** after they were swept. -/
theorem expireQueues_clean {order : List BindingId} {r : Router}
    (hb : b.Expiring published now r) (hhistories : b.HaveHistories) {numbers : List Nat}
    (hperform : b.perform (order.mapM (expireQueue now)) = (.ok numbers, b₂))
    (horder : order.Perm b.queueIds.values) {q : Queue}
    (hq : b₂.router.queues.get? id = some q) : q.Clean now := by
  have hkeeps : (order.mapM (expireQueue now) : BrokerM σ (List Nat)).Keeps
      (Expiring published now r) :=
    .mapM_mem fun other _ => expireQueue_expiring now r other
  have hb₂ := hkeeps b hb
  have hqueueIds := (Steady.mapM (expireQueue_steady now) order b).queueIds_eq
  rw [hperform] at hb₂ hqueueIds
  obtain ⟨name, hname⟩ := hb₂.custody.wired.exists_queue? hb₂.custody.router.bound hq
  have hid := (queue?_eq_some_iff.mp hname).1
  rw [hqueueIds] at hid
  have hmem : id ∈ order := horder.mem_iff.mpr (Dictionary.mem_values_iff.mpr ⟨name, hid⟩)
  exact expireQueues_cleanAt hb hhistories hperform (.inl hmem) q hq

/-! ### A second sweep -/

/-- Sweeping a clean queue changes nothing at all. -/
theorem perform_expireQueue_of_cleanAt (h : b.router.CleanAt now id) :
    b.perform (expireQueue now id) = (.ok 0, b) := by
  rw [expireQueue, perform_bind_ok _ (perform_get b)]
  cases hq : b.router.queues.get? id with
  | none => rfl
  | some q =>
      dsimp only
      rw [(h q hq).expire_eq, perform_bind_ok _ (perform_setQueue ..),
        Dictionary.insert_eq_self hq]
      rfl

theorem perform_expireQueues_of_cleanAt {order : List BindingId}
    (h : ∀ id ∈ order, b.router.CleanAt now id) :
    ∃ numbers, b.perform (order.mapM (expireQueue now)) = (.ok numbers, b) ∧
      numbers.foldl (· + ·) 0 = 0 := by
  induction order with
  | nil => exact ⟨[], rfl, rfl⟩
  | cons id order ih =>
      obtain ⟨numbers, hperform, htotal⟩ := ih fun id hid => h id (.tail _ hid)
      refine ⟨0 :: numbers, ?_, by rw [List.foldl_cons]; exact htotal⟩
      rw [List.mapM_cons, perform_bind_ok _ (perform_expireQueue_of_cleanAt (h id (.head _))),
        perform_bind_ok _ hperform]
      rfl

/-- **A sweep of clean queues finds nothing and changes nothing.** -/
theorem perform_sweep_of_cleanAt {order : List BindingId}
    (h : ∀ id ∈ order, b.router.CleanAt now id) : b.perform (sweep now order) = (.ok 0, b) := by
  obtain ⟨numbers, hperform, htotal⟩ := perform_expireQueues_of_cleanAt h
  rw [sweep, perform_bind_ok _ hperform, htotal]
  rfl

/-! ### A whole sweep -/

/-- **A sweep that succeeds is complete.** In any state that a broker comes to, over any store, and
in whatever order the queues are swept: the number that is told is that of the references that were
taken out as expired, each of which was to be taken out at the start; of each that left a queue
which names an address exactly one copy was published there, which does not expire, and nothing
else was published; references in delivery are untouched. Afterwards no queue holds a reference
that waits and has expired or one that was set aside, and a second sweep, in whatever order, tells
that there was nothing and changes nothing. -/
theorem sweep_complete (hb : Reachable (fun _ => True) (fun _ _ => True) published b)
    {order : List BindingId} (horder : order.Perm b.queueIds.values) {n : Nat} {b' : Broker σ}
    (hsweep : b.perform (sweep now order) = (.ok n, b')) :
    (b.perform (expireMessages now) = b.perform (sweep now b.toExpire) ∧
        b.toExpire.Perm b.queueIds.values) ∧
      (∃ removed sent, b.Sweeping now removed removed sent b' ∧ n = removed.length ∧
        ∀ s ∈ sent, s.copy.expiration = none ∧
          s.queue.settings.expiryAddress = some s.copy.address) ∧
      (∀ id q, b'.router.queues.get? id = some q → q.Clean now) ∧
      b'.perform (expireMessages now) = (.ok 0, b') ∧
      ∀ order', b'.perform (sweep now order') = (.ok 0, b') := by
  have hcustody : b.Custody Regime.trivial published :=
    hb.custody (fun _ _ _ => True.intro) (fun _ _ _ _ _ => True.intro) fun _ _ => True.intro
  have hexpiring : b.Expiring published now b.router := ⟨hcustody, .refl now b.router⟩
  obtain ⟨numbers, b₁, hqueues, htotal⟩ := exists_of_perform_bind hsweep
  cases htotal
  obtain ⟨removed, sent, hswept, hcount⟩ :=
    (Sweeping.start hcustody now).expireQueues hexpiring hqueues
  have hclean : ∀ id q, b₁.router.queues.get? id = some q → q.Clean now := fun _ _ hq =>
    expireQueues_clean hexpiring hb.histories hqueues horder hq
  exact ⟨expireMessages_eq_sweep b now,
    ⟨removed, sent, hswept.count rfl, hcount.symm, fun _ hs => hswept.copy_eq hs⟩, hclean,
    perform_sweep_of_cleanAt fun id _ => hclean id,
    fun order' => perform_sweep_of_cleanAt fun id _ => hclean id⟩

/-- A queue that keeps the last order for each item. What has expired is kept as well, and goes back
to the orders. -/
def returning : Config where
  delivery := { expiryAddress := some "expired" }
  addressSettings :=
    [{ pattern := "orders",
       settings := { lastValueQueue := some true, lastValueKey := some "item" } }]
  queues := [{ name := "latest", address := "orders" }, { name := "late", address := "expired" }]
  diverts := [{ name := "again", address := "expired", forwardingAddress := "orders" }]

/-- The properties of an order of an item. -/
def ordering (item : String) : Properties :=
  ({} : Properties).put "item" (.string item)

/-- At a time when the first order has expired, it is set aside and the second one is handed out.
Two more orders come, of which one is of the same item as the first one. -/
def handedOut (now : Timestamp) : List BrokerRequest :=
  [.publish (perishable 1 (ordering "ink")),
    .publish { order 2 with properties := ordering "pen" },
    .receive "latest" now,
    .publish (perishable 3 (ordering "ink")),
    .publish (perishable 4 (ordering "nib"))]

/-- The queues are swept in the opposite order. The copies of three orders come to both queues,
where one of them takes the place of another one. -/
theorem sweep_complete_handedOut :
    ∃ (published : List Message) (b b' : Broker MessageLog) (now : Timestamp),
      Reachable (fun _ => True) (fun _ _ => True) published b ∧
      b.perform (sweep now b.queueIds.values.reverse) = (.ok 3, b') ∧
      b'.router.queues.values.map (fun q => (q.pending.values.length, q.counters.replaced)) =
        [(2, 1), (3, 0)] ∧
      b'.perform (expireMessages now) = (.ok 0, b') := by
  have hcheck : (deploy LogLevel.isSound {} returning ({} : MessageLog)
      (consecutive 100)).toOption.any fun b₀ =>
      let b := (b₀.serve (handedOut (.atMillis 2 (by decide)))).2
      let (result, b') := b.perform (sweep (.atMillis 2 (by decide)) b.queueIds.values.reverse)
      decide (result.toOption = some 3) &&
      decide (b'.router.queues.values.map
        (fun q => (q.pending.values.length, q.counters.replaced)) = [(2, 1), (3, 0)]) := by
    decide +kernel
  obtain ⟨b₀, hb₀, hcheck⟩ := exists_ok_of_any hcheck
  have hdeployed : Reachable (fun _ => True) (fun _ _ => True) [] b₀ := .deployed True.intro hb₀
  obtain ⟨published, hreached⟩ := hdeployed.serve (handedOut (.atMillis 2 (by decide)))
  generalize (b₀.serve (handedOut (.atMillis 2 (by decide)))).2 = b at hcheck hreached
  dsimp only at hcheck
  rcases hsweep : b.perform (sweep (.atMillis 2 (by decide)) b.queueIds.values.reverse) with
    ⟨e | n, b'⟩
  all_goals
    rw [hsweep, Bool.and_eq_true, decide_eq_true_iff, decide_eq_true_iff] at hcheck
  · cases hcheck.1
  · obtain rfl : n = 3 := Option.some.inj hcheck.1
    refine ⟨published, b, b', _, hreached, hsweep, hcheck.2, ?_⟩
    obtain ⟨-, -, -, hagain, -⟩ := sweep_complete hreached (List.reverse_perm _) hsweep
    exact hagain

end Broker

end Courier
