import Courier.Proofs.Broker.Lifetime
import Courier.Proofs.Queue.Plain

/-!
# Messages That Leave Queues

A message that is given up or has expired leaves its queue, and a copy of it is sent to another
address if the queue names one. Before the message is let go of, the copy is published, which may
bring it, and copies that diverts make of it, to any queue: to the very queue that the message left,
or to one where it takes the place of another message.

What became of all messages is written down in an account, which is kept while a request goes on.
It tells what was taken out of which queue, what of that was let go of, and which copies were sent,
and says what every queue holds. It is about any store, which may fail at any call.

## Conventions

A request that sends messages on is seen as a departure: for each queue, the batch of references
that the request takes out of it. The account is kept with three lists: the references that were
taken out of queues, those of them that were let go of, and the copies that were sent, one for each
that was let go of and left a queue which names an address, in the same order.

## Main definitions

* `Queue.Exchanged`, `Router.Exchanged`: queues after messages left them and others came.
* `Departure`, `Departure.letGo`: what a request takes out of queues, and what it does with each
  reference.
* `Removal`, `Sending`: a reference that was taken out, and a copy that was sent.
* `Broker.Account`: what became of the messages that queues held, while a request goes on.

## Main results

* `Broker.Account.take`, `Broker.Account.drop`, `Broker.Account.send`: what each step of a request
  does to the account.
* `Broker.Account.letGo`, `Broker.Account.letGo_forM`: what letting go of a reference and of a whole
  batch does to it.
* `Broker.Account.count_le`: how often a queue holds a message.
-/

namespace Courier

/-! ### What queues retain -/

namespace Router

/-- The queue of a binding holds a message, or one of some others that took its place. -/
def Retains (r : Router) (others : List Message) (id : BindingId) (m : Message) : Prop :=
  ∃ q, r.queues.get? id = some q ∧ q.Retains others m

variable {good : Message → Prop} {r r' : Router} {others : List Message} {id : BindingId}
  {m : Message}

theorem Retains.mono {others' : List Message} (h : r.Retains others id m)
    (hsub : ∀ n ∈ others, n ∈ others') : r.Retains others' id m := by
  obtain ⟨q, hq, hretains⟩ := h
  exact ⟨q, hq, hretains.mono hsub⟩

theorem Retains.of_queues_eq (h : r.Retains others id m) (hqueues : r'.queues = r.queues) :
    r'.Retains others id m := by
  rw [Retains, hqueues]
  exact h

theorem Retains.deliver (h : r.Retains others id m) (hr : r.Orderly good) {d : Delivery}
    (hd : d.message ∈ others) : (r.deliver d).2.Retains others id m := by
  obtain ⟨q, hq, hretains⟩ := h
  refine ⟨_, (r.get?_deliver d id).trans (congrArg _ hq), ?_⟩
  dsimp only
  split
  · exact hretains.add (hr.keyed id q hq) hd
  · exact hretains

theorem Retains.deliverAll (h : r.Retains others id m) (hr : r.Orderly good)
    {deliveries : List Delivery} (hgood : ∀ d ∈ deliveries, good d.message)
    (hd : ∀ d ∈ deliveries, d.message ∈ others) :
    (r.deliverAll deliveries).2.Retains others id m := by
  induction deliveries generalizing r with
  | nil => exact h
  | cons d deliveries ih =>
      exact ih (h.deliver hr (hd d (.head _))) (hr.deliver (hgood d (.head _)))
        (fun d hd' => hgood d (.tail _ hd')) fun d hd' => hd d (.tail _ hd')

/-- Every queue that a plan delivers to retains the message. -/
theorem Orderly.retains_deliverAll (hr : r.Orderly good) {deliveries : List Delivery}
    (hgood : ∀ d ∈ deliveries, good d.message) (hd : ∀ d ∈ deliveries, d.message ∈ others)
    (hqueues : ∀ d ∈ deliveries, (r.queues.get? d.binding).isSome) :
    ∀ d ∈ deliveries, (r.deliverAll deliveries).2.Retains others d.binding d.message := by
  induction deliveries generalizing r with
  | nil => exact fun d hd => absurd hd List.not_mem_nil
  | cons d deliveries ih =>
      have hfirst := hr.deliver (hgood d (.head _))
      have hrest : ∀ d ∈ deliveries, good d.message := fun d hd' => hgood d (.tail _ hd')
      have hothers : ∀ d ∈ deliveries, d.message ∈ others := fun d hd' => hd d (.tail _ hd')
      intro d' hd'
      rcases List.mem_cons.mp hd' with rfl | hd'
      · obtain ⟨q, hq⟩ := Option.isSome_iff_exists.mp (hqueues d' (.head _))
        refine Retains.deliverAll ⟨(q.add d'.message).2, ?_, ?_⟩ hfirst hrest hothers
        · rw [get?_deliver, hq, Option.map_some, if_pos rfl]
        · exact .inl ((hr.keyed _ q hq).add d'.message).1
      · refine ih hfirst hrest hothers (fun d'' hd'' => ?_) d' hd'
        rw [isSome_get?_deliver]
        exact hqueues d'' (.tail _ hd'')

end Router

/-! ### What queues exchange -/

namespace Queue

/-- A queue after messages left it and others came, of which some took the place of others. Its
counters tell how many came and how many were replaced. -/
structure Exchanged (q : Queue) (out into : List Message) (q' : Queue) : Prop where
  info_eq : q'.toQueueInfo = q.toQueueInfo
  added_eq : q'.counters.added = q.counters.added + into.length
  conserved : ∃ replaced : List Message,
    q'.counters.replaced = q.counters.replaced + replaced.length ∧
      (out ++ replaced ++ q'.heldMessages).Perm (into ++ q.heldMessages)

variable {q q' q'' : Queue} {out out' into into' : List Message}

theorem Exchanged.refl (q : Queue) : q.Exchanged [] [] q :=
  ⟨rfl, rfl, [], rfl, .refl _⟩

theorem Exchanged.trans (h : q.Exchanged out into q') (h' : q'.Exchanged out' into' q'') :
    q.Exchanged (out ++ out') (into ++ into') q'' := by
  obtain ⟨replaced, hreplaced, hperm⟩ := h.conserved
  obtain ⟨replaced', hreplaced', hperm'⟩ := h'.conserved
  refine ⟨h'.info_eq.trans h.info_eq, ?_, replaced ++ replaced', ?_,
    List.perm_iff_count.mpr fun m => ?_⟩
  · rw [h'.added_eq, h.added_eq, List.length_append, Nat.add_assoc]
  · rw [hreplaced', hreplaced, List.length_append, Nat.add_assoc]
  · have hperm := hperm.count_eq m
    have hperm' := hperm'.count_eq m
    simp only [List.count_append] at hperm hperm' ⊢
    omega

/-- Messages leave, and no others come. -/
theorem Yields.exchanged (h : q.Yields out [] q') (hadded : q'.counters.added = q.counters.added)
    (hreplaced : q'.counters.replaced = q.counters.replaced) : q.Exchanged out [] q' := by
  refine ⟨h.info_eq, hadded, [], hreplaced, ?_⟩
  rw [List.append_nil]
  exact h.perm

/-- A message comes, and may take the place of another one. -/
theorem Keyed.exchanged_add (h : q.Keyed) (m : Message) : q.Exchanged [] [m] (q.add m).2 := by
  rw [Queue.add]
  split
  · next slot previous hindexed =>
      obtain ⟨value, hm, hvalue⟩ := Option.bind_eq_some_iff.mp hindexed
      obtain ⟨hslot, hr⟩ := indexed?_eq_some_iff.mp hvalue
      obtain ⟨-, hyields⟩ := h.replace hm hslot hr
      exact ⟨rfl, rfl, [previous.message], rfl, hyields.perm⟩
  · let counters : QueueCounters := { q.counters with added := q.counters.added + 1 }
    have hpush := Keyed.push (q := { q with counters })
      (r := { message := m, lastValue := q.lastValueOf m }) (h.withCounters counters) rfl false
    exact ⟨rfl, rfl, [], rfl, hpush.perm⟩

end Queue

/-- A reference that was taken out of a queue. -/
structure Removal where
  /-- The binding of the queue. -/
  binding : BindingId
  /-- The queue. -/
  queue : QueueInfo
  /-- The reference. -/
  reference : Reference

/-- References that were taken out of one queue. -/
def Removal.ofBatch (id : BindingId) (q : QueueInfo) (batch : List Reference) : List Removal :=
  batch.map fun r => ⟨id, q, r⟩

/-- The references that were taken out of the queue of a binding. -/
def Removal.at (id : BindingId) (removed : List Removal) : List Reference :=
  (removed.filter (·.binding = id)).map Removal.reference

/-- The messages that were delivered to the queue of a binding. -/
def Delivery.at (id : BindingId) (deliveries : List Delivery) : List Message :=
  (deliveries.filter (·.binding = id)).map Delivery.message

namespace Removal

theorem at_append (id : BindingId) (removed removed' : List Removal) :
    Removal.at id (removed ++ removed') = Removal.at id removed ++ Removal.at id removed' := by
  rw [Removal.at, List.filter_append, List.map_append]
  rfl

theorem at_ofBatch_self (id : BindingId) (q : QueueInfo) (batch : List Reference) :
    Removal.at id (ofBatch id q batch) = batch := by
  simp [Removal.at, ofBatch, List.filter_map, Function.comp_def]

theorem at_ofBatch_of_ne {id other : BindingId} (h : other ≠ id) (q : QueueInfo)
    (batch : List Reference) : Removal.at other (ofBatch id q batch) = [] := by
  simp [Removal.at, ofBatch, List.filter_map, Function.comp_def, h.symm]

end Removal

namespace Router

/-- The queues after references were taken out of some and messages were delivered to some. -/
def Exchanged (r : Router) (removed : List Removal) (deliveries : List Delivery) (r' : Router) :
    Prop :=
  ∀ id q, r.queues.get? id = some q → ∃ q', r'.queues.get? id = some q' ∧
    q.Exchanged ((Removal.at id removed).map Reference.message) (Delivery.at id deliveries) q'

variable {r r' r'' : Router} {removed removed' : List Removal}
  {deliveries deliveries' : List Delivery} {good : Message → Prop} {id : BindingId}

theorem Exchanged.refl (r : Router) : r.Exchanged [] [] r := fun _ q hq => ⟨q, hq, .refl q⟩

theorem Exchanged.trans (h : r.Exchanged removed deliveries r')
    (h' : r'.Exchanged removed' deliveries' r'') :
    r.Exchanged (removed ++ removed') (deliveries ++ deliveries') r'' := by
  intro id q hq
  obtain ⟨q', hq', hexchanged⟩ := h id q hq
  obtain ⟨q'', hq'', hexchanged'⟩ := h' id q' hq'
  refine ⟨q'', hq'', ?_⟩
  rw [Removal.at_append, List.map_append, Delivery.at, List.filter_append, List.map_append]
  exact hexchanged.trans hexchanged'

theorem Exchanged.of_queues_eq (h : r.Exchanged removed deliveries r')
    (hqueues : r''.queues = r'.queues) : r.Exchanged removed deliveries r'' := by
  intro id q hq
  rw [hqueues]
  exact h id q hq

/-- References are taken out of one queue. -/
theorem exchanged_setQueue {q q' : Queue} {out : List Reference}
    (hq : r.queues.get? id = some q) (hq' : q.Exchanged (out.map Reference.message) [] q') :
    r.Exchanged (Removal.ofBatch id q.toQueueInfo out) []
      { r with queues := r.queues.insert id q' } := by
  intro other found hfound
  by_cases hid : other = id
  · subst hid
    obtain rfl := Option.some.inj (hfound.symm.trans hq)
    refine ⟨q', Dictionary.get?_insert_self .., ?_⟩
    rw [Removal.at_ofBatch_self]
    exact hq'
  · refine ⟨found, (Dictionary.get?_insert_of_ne hid).trans hfound, ?_⟩
    rw [Removal.at_ofBatch_of_ne hid]
    exact .refl found

/-- Messages are delivered to queues. -/
theorem Orderly.exchanged_deliverAll (h : r.Orderly good)
    (hd : ∀ d ∈ deliveries, good d.message) :
    r.Exchanged [] deliveries (r.deliverAll deliveries).2 := by
  induction deliveries generalizing r with
  | nil => exact .refl r
  | cons d deliveries ih =>
      have hfirst : r.Exchanged [] [d] (r.deliver d).2 := by
        intro id q hq
        refine ⟨_, (r.get?_deliver d id).trans (congrArg _ hq), ?_⟩
        by_cases hid : id = d.binding
        · subst hid
          simpa [Removal.at, Delivery.at] using (h.keyed _ q hq).exchanged_add d.message
        · simpa [Removal.at, Delivery.at, hid, Ne.symm hid] using Queue.Exchanged.refl q
      exact hfirst.trans
        (ih (h.deliver (hd d (.head _))) fun d hd' => hd d (.tail _ hd'))

end Router

/-! ### Departures -/

/-- What a request takes out of queues, and what it sends on. -/
structure Departure where
  /-- The references that it takes out of the queue of a binding, in order. -/
  batch : BindingId → Queue → List Reference
  /-- The address that it sends copies to, if the queue names one. -/
  target : QueueInfo → Option Address
  /-- The copy of a message. -/
  copy : QueueInfo → Message → MessageId → Address → Message
  /-- Copies get new identifiers. -/
  copy_id : ∀ q m id target, (copy q m id target).id = id

namespace Departure

/-- A delivery from a queue is cancelled: the reference leaves the queue if it is given up. -/
def cancelled (binding : BindingId) (message : MessageId) : Departure where
  batch id q :=
    if id = binding then
      match q.cancel message with
      | .ok (.deadLetter r _, _) => [r]
      | _ => []
    else []
  target q := q.settings.deadLetterAddress
  copy q m id target := m.forwardedFrom q id target
  copy_id _ _ _ _ := rfl

/-- References to messages that have expired leave all queues. -/
def expired (now : Timestamp) : Departure where
  batch _ q := (q.expire now).1
  target q := q.settings.expiryAddress
  copy q m id target := m.expiredFrom q now id target
  copy_id _ _ _ _ := rfl

/-- Whether a copy of the message is to be sent on. -/
def sendsOn (dep : Departure) (x : Removal) : Bool :=
  (dep.target x.queue).isSome

/-- A reference that was taken out of a queue is let go of, after a copy of its message was sent on
if the queue names an address. -/
def letGo {σ : Type} [MessageStore σ] (dep : Departure) (x : Removal) : BrokerM σ Unit := do
  if let some target := dep.target x.queue then
    discard (Broker.publish (dep.copy x.queue x.reference.message (← Broker.newId) target))
  Broker.release x.queue x.reference.message

/-- What is known of the copies that are made of messages and of the copies of copies. -/
structure Marks (dep : Departure) (known : Message → Prop) : Prop where
  copy : ∀ q m id target, known (dep.copy q m id target)
  forwarded : ∀ m id target, known m → known (m.forwarded id target)

/-- The copies that are made of messages that have expired do not expire. -/
theorem expired_marks (now : Timestamp) : (expired now).Marks (·.expiration = none) where
  copy _ _ _ _ := rfl
  forwarded _ _ _ h := h

end Departure

/-- A copy of a message that was sent on. -/
structure Sending where
  /-- The binding of the queue that the message left. -/
  binding : BindingId
  /-- The queue that the message left. -/
  queue : QueueInfo
  /-- The message. -/
  message : Message
  /-- Its copy. -/
  copy : Message
  /-- Where the copy and the copies that diverts made of it went. -/
  deliveries : List Delivery

/-- Where a message left a queue. -/
def Removal.source (x : Removal) : BindingId × QueueInfo × Message :=
  (x.binding, x.queue, x.reference.message)

namespace Sending

/-- Where the message left a queue that a copy was sent of. -/
def source (s : Sending) : BindingId × QueueInfo × Message :=
  (s.binding, s.queue, s.message)

/-- The messages that came to queues. -/
def arrivals (sent : List Sending) : List Message :=
  sent.flatMap fun s => s.deliveries.map Delivery.message

theorem mem_arrivals {sent : List Sending} {s : Sending} (hs : s ∈ sent) {d : Delivery}
    (hd : d ∈ s.deliveries) : d.message ∈ arrivals sent :=
  List.mem_flatMap.mpr ⟨s, hs, List.mem_map_of_mem hd⟩

theorem arrivals_append (sent sent' : List Sending) :
    arrivals (sent ++ sent') = arrivals sent ++ arrivals sent' :=
  List.flatMap_append

end Sending

namespace Broker

open BrokerM

variable {σ : Type}

/-- A deployed queue holds a message, or one of some others that took its place. -/
def Retains (b : Broker σ) (others : List Message) (id : BindingId) (m : Message) : Prop :=
  (∃ name, b.queueIds.get? name = some id) ∧ b.router.Retains others id m

/-- A copy was sent on between two states of a broker: of a message from the batch of its queue,
to the address that the queue names, under an identifier that the supply handed out, and to the
queues of its plan. -/
structure Sent (dep : Departure) (b b' : Broker σ) (s : Sending) : Prop where
  from_batch : ∃ q, b.router.queues.get? s.binding = some q ∧ q.toQueueInfo = s.queue ∧
    s.message ∈ (dep.batch s.binding q).map Reference.message
  copied : ∃ turn target, b.ids.used ≤ turn ∧ turn < b'.ids.used ∧
    dep.target s.queue = some target ∧
    s.copy = dep.copy s.queue s.message (b.ids.id turn) target ∧
    s.deliveries =
      (b.router.plan { b.ids with used := turn + 1 } s.copy s.copy.address).1.deliveries

/-- What became of the messages that queues held at the start of a request: the references that the
request has taken out of queues, those of them that it has let go of, and the copies that it has
sent. There is one copy for each reference that was let go of and left a queue which names an
address. Every queue to which a copy was delivered has it, every queue has what it held and was
not taken out of it, and what else came to the queues is what was delivered of the copies. -/
structure Account (dep : Departure) (b : Broker σ) (removed settled : List Removal)
    (sent : List Sending) (b' : Broker σ) : Prop where
  bindings : b.Extends b'
  due : ∀ x ∈ removed, ∃ q, b.router.queues.get? x.binding = some q ∧
    q.toQueueInfo = x.queue ∧ x.reference ∈ dep.batch x.binding q
  made : ∀ s ∈ sent, b.Sent dep b' s
  sources : sent.map Sending.source = (settled.filter dep.sendsOn).map Removal.source
  arrived : ∀ s ∈ sent, ∀ d ∈ s.deliveries, b'.Retains (Sending.arrivals sent) d.binding d.message
  stays : ∀ id q, b.router.queues.get? id = some q → ∀ m ∈ q.heldMessages,
    b'.Retains (Sending.arrivals sent) id m ∨
      ∃ x ∈ removed, x.binding = id ∧ x.reference.message = m
  queues : b.router.Exchanged removed (sent.flatMap Sending.deliveries) b'.router

variable {dep : Departure} {b b₁ b₂ : Broker σ} {others : List Message}
  {removed settled : List Removal} {sent : List Sending} {id : BindingId} {m : Message}
  {x : Removal}

theorem Retains.of_extends (h : b.Retains others id m) (hextends : b.Extends b₁)
    (hrouter : b.router.Retains others id m → b₁.router.Retains others id m) :
    b₁.Retains others id m :=
  ⟨hextends.queueIds_eq ▸ h.1, hrouter h.2⟩

theorem Sent.mono {s : Sending} (h : b.Sent dep b₁ s) (hused : b₁.ids.used ≤ b₂.ids.used) :
    b.Sent dep b₂ s := by
  obtain ⟨turn, target, hle, hlt, hcopy⟩ := h.copied
  exact ⟨h.from_batch, turn, target, hle, Nat.lt_of_lt_of_le hlt hused, hcopy⟩

/-- What is known of all copies is known of those that were sent. -/
theorem Sent.known {s : Sending} (h : b.Sent dep b₁ s) (hb : b.router.registry.Sound)
    {known : Message → Prop} (hknown : dep.Marks known) : ∀ d ∈ s.deliveries, known d.message := by
  obtain ⟨turn, target, -, -, -, hcopy, hdeliveries⟩ := h.copied
  intro d hd
  rw [hdeliveries] at hd
  exact hb.of_mem_plan hd hknown.forwarded (hcopy ▸ hknown.copy ..)

/-! ### Accounts -/

namespace Account

/-- At the start all messages are where they are. -/
theorem start [MessageStore σ] {R : Regime σ} {published : List Message}
    (hb : b.Custody R published) (dep : Departure) : b.Account dep [] [] [] b where
  bindings := .refl b
  due _ hx := absurd hx List.not_mem_nil
  made _ hs := absurd hs List.not_mem_nil
  sources := rfl
  arrived _ hs := absurd hs List.not_mem_nil
  stays id q hq _ hm := by
    obtain ⟨name, hname⟩ := hb.wired.exists_queue? hb.router.bound hq
    exact .inl ⟨⟨name, (queue?_eq_some_iff.mp hname).1⟩, q, hq, .inl hm⟩
  queues := .refl _

/-- Nothing happens to the queues. -/
theorem of_queues_eq (h : b.Account dep removed settled sent b₁) (hextends : b₁.Extends b₂)
    (hqueues : b₂.router.queues = b₁.router.queues) : b.Account dep removed settled sent b₂ where
  bindings := h.bindings.trans hextends
  due := h.due
  made s hs := (h.made s hs).mono hextends.used_le
  sources := h.sources
  arrived s hs d hd := (h.arrived s hs d hd).of_extends hextends (·.of_queues_eq hqueues)
  stays id q hq m hm := (h.stays id q hq m hm).imp_left
    (·.of_extends hextends (·.of_queues_eq hqueues))
  queues := h.queues.of_queues_eq hqueues

/-- **References are taken out of a queue.** -/
theorem take (h : b.Account dep removed settled sent b₁) {q q' : Queue} {out : List Reference}
    (hq : b₁.router.queues.get? id = some q) (hq' : q.Yields (out.map Reference.message) [] q')
    (hexchanged : q.Exchanged (out.map Reference.message) [] q')
    (hbatch : ∃ start, b.router.queues.get? id = some start ∧
      start.toQueueInfo = q.toQueueInfo ∧ ∀ r ∈ out, r ∈ dep.batch id start)
    (hstay : ∀ m ∈ Sending.arrivals sent, m ∉ out.map Reference.message) :
    b.Account dep (removed ++ Removal.ofBatch id q.toQueueInfo out) settled sent
      { b₁ with router := { b₁.router with queues := b₁.router.queues.insert id q' } } := by
  let b₂ : Broker σ :=
    { b₁ with router := { b₁.router with queues := b₁.router.queues.insert id q' } }
  have hleaves : ∀ other m, b₁.Retains (Sending.arrivals sent) other m →
      (other = id ∧ m ∈ out.map Reference.message) ∨
        b₂.Retains (Sending.arrivals sent) other m := by
    rintro other m ⟨hname, found, hfound, hretains⟩
    by_cases hid : other = id
    · rw [hid, hq] at hfound
      cases hfound
      refine (hretains.of_yields hq' hstay).imp (fun hm => ⟨hid, hm⟩) fun hretains => ?_
      exact ⟨hname, q', hid ▸ Dictionary.get?_insert_self .., hretains⟩
    · exact .inr ⟨hname, found, (Dictionary.get?_insert_of_ne hid).trans hfound, hretains⟩
  refine ⟨h.bindings.trans (.setRouter rfl rfl), fun x hx => ?_,
    fun s hs => (h.made s hs).mono (Nat.le_refl _), h.sources, fun s hs d hd => ?_,
    fun other found hfound m hm => ?_, ?_⟩
  · rcases List.mem_append.mp hx with hx | hx
    · exact h.due x hx
    · obtain ⟨r, hr, rfl⟩ := List.mem_map.mp hx
      obtain ⟨start, hstart, hinfo, hbatch⟩ := hbatch
      exact ⟨start, hstart, hinfo, hbatch r hr⟩
  · refine (hleaves _ _ (h.arrived s hs d hd)).resolve_left ?_
    exact fun hout => hstay _ (Sending.mem_arrivals hs hd) hout.2
  · rcases h.stays other found hfound m hm with hretains | ⟨x, hx, hsame⟩
    · refine (hleaves other m hretains).symm.imp_right ?_
      rintro ⟨rfl, hout⟩
      obtain ⟨r, hr, rfl⟩ := List.mem_map.mp hout
      exact ⟨_, List.mem_append_right _ (List.mem_map_of_mem hr), rfl, rfl⟩
    · exact .inr ⟨x, List.mem_append_left _ hx, hsame⟩
  · have hqueues := h.queues.trans (Router.exchanged_setQueue hq hexchanged)
    rwa [List.append_nil] at hqueues

/-- **A message is dropped** where there is no address for a copy. -/
theorem drop (h : b.Account dep removed settled sent b₁) (hx : dep.target x.queue = none) :
    b.Account dep removed (settled ++ [x]) sent b₁ where
  bindings := h.bindings
  due := h.due
  made := h.made
  sources := by
    have hdropped : dep.sendsOn x = false := by rw [Departure.sendsOn, hx]; rfl
    rw [List.filter_append, List.filter_singleton, hdropped, h.sources]
    simp
  arrived := h.arrived
  stays := h.stays
  queues := h.queues

/-- The copies that were sent of messages that have expired do not expire. -/
theorem lasting {now : Timestamp} (h : b.Account (.expired now) removed settled sent b₁)
    (hb : b.router.registry.Sound) : ∀ m ∈ Sending.arrivals sent, m.expiration = none := by
  intro m hm
  obtain ⟨s, hs, hm⟩ := List.mem_flatMap.mp hm
  obtain ⟨d, hd, rfl⟩ := List.mem_map.mp hm
  exact (h.made s hs).known hb (Departure.expired_marks now) d hd

/-- A queue holds a message no more often than it held it at the start, less the references that
were taken out and more what came. -/
theorem count_le (h : b.Account dep removed settled sent b₁) {q q' : Queue}
    (hq : b.router.queues.get? id = some q) (hq' : b₁.router.queues.get? id = some q')
    (m : Message) :
    ((Removal.at id removed).map Reference.message).count m + q'.heldMessages.count m ≤
      (Delivery.at id (sent.flatMap Sending.deliveries)).count m + q.heldMessages.count m := by
  obtain ⟨found, hfound, hexchanged⟩ := h.queues id q hq
  cases hfound.symm.trans hq'
  obtain ⟨replaced, -, hperm⟩ := hexchanged.conserved
  have hcount := hperm.count_eq m
  simp only [List.count_append] at hcount
  omega

end Account

/-- A copy is planned as it would have been at the start, under a later identifier. -/
theorem Extends.plan_eq (h : b.Extends b₁) (copy : Message) :
    b₁.ids.next = b.ids.id b₁.ids.used ∧
      b₁.router.plan b₁.ids.advance copy copy.address =
        b.router.plan { b.ids with used := b₁.ids.used + 1 } copy copy.address := by
  rw [IdSupply.next, IdSupply.advance, Router.plan, Router.plan, h.registry_eq, h.hops_eq,
    h.supply_eq]
  exact ⟨rfl, rfl⟩

/-- The state in which a copy of a message is stored and sent on. -/
def copied (b : Broker σ) (copy : Message) : Broker σ :=
  { b with ids := b.ids.advance }.planned copy

theorem lt_used_copied (b : Broker σ) (copy : Message) :
    b.ids.used < (b.copied copy).ids.used := by
  obtain ⟨-, -, -, -, hused, -⟩ :=
    b.router.registry.plan_explains b.router.maxDivertHops b.ids.advance copy
  exact hused

variable [MessageStore σ] {published : List Message}

/-- A plan delivers to queues that are deployed. -/
theorem Custody.deployed_of_mem_plan {R : Regime σ} (hb : b.Custody R published) {ids : IdSupply}
    {address : Address} {d : Delivery} (hd : d ∈ (b.router.plan ids m address).1.deliveries) :
    (∃ name, b.queueIds.get? name = some d.binding) ∧
      (b.router.queues.get? d.binding).isSome := by
  obtain ⟨-, item, -, -, -, ⟨bd, ⟨hbd, -⟩, hid, hkind⟩, -⟩ :=
    hb.router.bound.registry.exists_reaches_of_mem_plan hd
  obtain ⟨q, hq, -⟩ := hb.router.bound.queue_of_binding bd hbd _ hkind
  rw [hid] at hq
  obtain ⟨name, hname⟩ := hb.wired.exists_queue? hb.router.bound hq
  exact ⟨⟨name, (queue?_eq_some_iff.mp hname).1⟩, by rw [hq]; rfl⟩

/-- **A copy of a message is sent on**: it comes to the queues of its plan. -/
theorem Account.send (h : b.Account dep removed settled sent b₁)
    (hb₁ : b₁.Custody Regime.trivial published) (hx : x ∈ removed) {target : Address}
    (htarget : dep.target x.queue = some target) {copy : Message}
    (hcopy : copy = dep.copy x.queue x.reference.message b₁.ids.next target)
    (hextends : b₁.Extends b₂) (hused : b₁.ids.used < b₂.ids.used)
    (hqueues : b₂.router.queues = (b₁.router.deliverAll
      (b₁.router.plan b₁.ids.advance copy copy.address).1.deliveries).2.queues) :
    ∃ s, b.Account dep removed (settled ++ [x]) (sent ++ [s]) b₂ := by
  obtain ⟨hnext, hplan⟩ := h.bindings.plan_eq copy
  rw [hnext] at hcopy
  let s : Sending :=
    { binding := x.binding, queue := x.queue, message := x.reference.message, copy
      deliveries := (b₁.router.plan b₁.ids.advance copy copy.address).1.deliveries }
  have hmem : s ∈ sent ++ [s] := List.mem_append_right _ (.head _)
  have hsent : b.Sent dep b₂ s := by
    obtain ⟨start, hstart, hinfo, hbatch⟩ := h.due x hx
    exact ⟨⟨start, hstart, hinfo, List.mem_map_of_mem hbatch⟩, b₁.ids.used, target,
      h.bindings.used_le, hused, htarget, hcopy, congrArg (·.1.deliveries) hplan⟩
  have harrivals : ∀ d ∈ s.deliveries, d.message ∈ Sending.arrivals (sent ++ [s]) :=
    fun d hd => Sending.mem_arrivals hmem hd
  have hstays : ∀ other n, b₁.Retains (Sending.arrivals sent) other n →
      b₂.Retains (Sending.arrivals (sent ++ [s])) other n := by
    intro other n hretains
    have hall : b₁.router.Retains (Sending.arrivals (sent ++ [s])) other n := by
      refine hretains.2.mono fun n hn => ?_
      rw [Sending.arrivals_append]
      exact List.mem_append_left _ hn
    exact Retains.of_extends ⟨hretains.1, hall⟩ hextends fun hrouter =>
      (hrouter.deliverAll hb₁.router (fun _ _ => True.intro) harrivals).of_queues_eq hqueues
  refine ⟨s, h.bindings.trans hextends, h.due, fun s' hs' => ?_, ?_, fun s' hs' d hd => ?_,
    fun other found hfound n hn => (h.stays other found hfound n hn).imp_left (hstays other n), ?_⟩
  · rcases List.mem_append.mp hs' with hs' | hs'
    · exact (h.made s' hs').mono hextends.used_le
    · exact List.mem_singleton.mp hs' ▸ hsent
  · have hon : dep.sendsOn x = true := by rw [Departure.sendsOn, htarget]; rfl
    rw [List.filter_append, List.filter_singleton, hon, List.map_append, List.map_append, h.sources]
    rfl
  · rcases List.mem_append.mp hs' with hs' | hs'
    · exact hstays _ _ (h.arrived s' hs' d hd)
    · obtain rfl := List.mem_singleton.mp hs'
      have hdelivered := hb₁.router.retains_deliverAll (fun _ _ => True.intro) harrivals
        (fun d hd => (hb₁.deployed_of_mem_plan hd).2) d hd
      exact ⟨hextends.queueIds_eq ▸ (hb₁.deployed_of_mem_plan hd).1,
        hdelivered.of_queues_eq hqueues⟩
  · have hdelivered : b₁.router.Exchanged [] s.deliveries (b₁.router.deliverAll s.deliveries).2 :=
      hb₁.router.exchanged_deliverAll fun _ _ => True.intro
    have hall := h.queues.trans (hdelivered.of_queues_eq hqueues)
    rw [List.append_nil] at hall
    rw [List.flatMap_append, List.flatMap_singleton]
    exact hall

/-! ### Letting go of references -/

theorem letGo_steady (dep : Departure) (x : Removal) : (dep.letGo x : BrokerM σ Unit).Steady := by
  rw [Departure.letGo]
  split
  · exact newId_steady.bind fun id => (publish_steady _).discard.bind fun _ => release_steady _ _
  · exact release_steady _ _

theorem letGo_custody (dep : Departure) (x : Removal) :
    (dep.letGo x : BrokerM σ Unit).Keeps (Custody Regime.trivial published) := by
  rw [Departure.letGo]
  split
  · next target _ =>
      exact forward_keeps _ _ (fun id => dep.copy_id _ _ id target) fun _ => True.intro
  · exact release_keeps _ _

/-- The copy of a message is refused, or it is sent on. -/
theorem letGo_refused_or_sent (dep : Departure) (b : Broker σ) {target : Address}
    (htarget : dep.target x.queue = some target) {copy : Message}
    (hcopy : copy = dep.copy x.queue x.reference.message b.ids.next target) :
    ∃ result router counts store,
      b.perform (dep.letGo x) =
        (result, { b.copied copy with router, durableCounts := counts, store }) ∧
      ((router = b.router ∧ ∃ e, result = .error e) ∨
        router = (b.router.commit (b.router.plan b.ids.advance copy copy.address).1).2) := by
  obtain ⟨sent, router, counts, store, hpublish, -, hrouter⟩ :=
    @publish_refused_or_committed σ _ Regime.trivial (fun _ => True)
      { b with ids := b.ids.advance } copy fun _ _ => ⟨True.intro, True.intro⟩
  rw [Departure.letGo, htarget]
  dsimp only
  rw [perform_bind_ok _ (perform_newId b), ← hcopy, perform_bind, perform_discard, hpublish]
  rcases sent with e | references
  · exact ⟨.error e, router, counts, store, rfl, hrouter.imp_left fun h => ⟨h.1, e, rfl⟩⟩
  · obtain ⟨result, counts', store', hrelease⟩ :=
      exists_perform_release { b.copied copy with router, durableCounts := counts, store }
        x.queue x.reference.message
    refine ⟨result, router, counts', store', hrelease, .inr (hrouter.resolve_left ?_)⟩
    rintro ⟨-, e, herror⟩
    cases herror

namespace Account

/-- **What became of one reference**: it was let go of, or the store refused the copy of its
message. The request may fail in both cases. -/
theorem letGo (h : b.Account dep removed settled sent b₁)
    (hb₁ : b₁.Custody Regime.trivial published) (hx : x ∈ removed)
    {result : Except BrokerError Unit} (hperform : b₁.perform (dep.letGo x) = (result, b₂)) :
    (∃ sent', b.Account dep removed (settled ++ [x]) sent' b₂) ∨
      (∃ e, result = .error e) ∧ dep.sendsOn x ∧ b.Account dep removed settled sent b₂ := by
  have hsteady := letGo_steady dep x b₁
  rw [hperform] at hsteady
  rcases htarget : dep.target x.queue with _ | target
  · obtain ⟨released, counts, store, hrelease⟩ :=
      exists_perform_release b₁ x.queue x.reference.message
    rw [Departure.letGo, htarget] at hperform
    cases hrelease.symm.trans hperform
    exact .inl ⟨sent, (h.drop htarget).of_queues_eq hsteady rfl⟩
  · obtain ⟨out, router, counts, store, hletGo, hrouter⟩ :=
      letGo_refused_or_sent dep b₁ (x := x) htarget rfl
    cases hletGo.symm.trans hperform
    rcases hrouter with ⟨rfl, herror⟩ | rfl
    · have hon : dep.sendsOn x := by rw [Departure.sendsOn, htarget]; rfl
      exact .inr ⟨herror, hon, h.of_queues_eq hsteady rfl⟩
    · obtain ⟨counters, hcommit⟩ := commit_router b₁.router _
      obtain ⟨s, hsent⟩ := h.send hb₁ hx htarget rfl hsteady (lt_used_copied b₁ _)
        (congrArg (·.2.queues) hcommit)
      exact .inl ⟨_, hsent⟩

/-- **What became of a batch**: all of it was let go of, or the request failed at one of its
references, with those before it let go of. -/
theorem letGo_forM {batch : List Removal} (h : b.Account dep removed settled sent b₁)
    (hb₁ : b₁.Custody Regime.trivial published) (hbatch : ∀ x ∈ batch, x ∈ removed)
    {result : Except BrokerError Unit}
    (hperform : b₁.perform (batch.forM dep.letGo) = (result, b₂)) :
    (result = .ok ⟨⟩ ∧ ∃ sent', b.Account dep removed (settled ++ batch) sent' b₂) ∨
      ∃ e done x left sent' b₃, result = .error e ∧ batch = done ++ x :: left ∧
        b.Account dep removed (settled ++ done) sent' b₃ ∧
        b₃.Custody Regime.trivial published ∧ b₃.perform (dep.letGo x) = (.error e, b₂) := by
  induction batch generalizing settled sent b₁ with
  | nil =>
      cases hperform
      rw [List.append_nil]
      exact .inl ⟨rfl, sent, h⟩
  | cons x batch ih =>
      have hcustody := letGo_custody dep x b₁ hb₁
      rw [List.forM_eq_forM, List.forM_cons, perform_bind] at hperform
      rcases hfirst : b₁.perform (dep.letGo x) with ⟨first, b₃⟩
      rw [hfirst] at hperform hcustody
      rcases first with e | ⟨⟩
      · cases hperform
        refine .inr ⟨e, [], x, batch, sent, b₁, rfl, rfl, ?_, hb₁, hfirst⟩
        rwa [List.append_nil]
      · obtain ⟨sent', hsent⟩ := (h.letGo hb₁ (hbatch x (.head _)) hfirst).resolve_right
          fun ⟨⟨e, he⟩, _⟩ => nomatch he
        have hrest := ih hsent hcustody (fun y hy => hbatch y (.tail _ hy)) hperform
        simp only [List.append_assoc, List.singleton_append] at hrest
        refine hrest.imp_right ?_
        rintro ⟨e, done, y, left, sent'', b₄, rfl, rfl, haccount, hb₄, hfail⟩
        exact ⟨e, x :: done, y, left, sent'', b₄, rfl, rfl, haccount, hb₄, hfail⟩

end Account

end Broker

end Courier
