import Courier.Proofs.Broker.Departures
import Courier.Proofs.Broker.Rollback

/-!
# Requests That Fail to Send Messages On

A message that is given up or has expired leaves its queue before a copy of it is sent to the
address that the queue names. The store may refuse the copy. The request fails then and has got
stuck: it took a batch of references out of a queue, let go of some of them, and could not let go of
the next one. The rest of the batch is in no queue any more either, and nothing is sent of it.

What became of the messages that queues held before such a request is accounted for here. The
queue holds the message, or a copy that took its place because it has the same value; or the
message was dropped because its queue names no address for a copy; or its copy was sent to all
queues that take it, which have it; or the request has it in hand where it got stuck. The store may
be any store, and may fail at any call.

## Main definitions

* `Progress`: how far a request came that failed.
* `Broker.Stuck`: a request failed to let go of a reference.
* `Broker.Fate`: what became of a message that a queue held.

## Main results

* `Broker.Account.stuck`: a request that fails to let go of a reference got stuck.
* `Broker.cancelDelivery_stuck`, `Broker.Account.expireQueue`: how requests get stuck.
* `Broker.forwarding_accounted`: **a request that fails to send a message on accounts for all
  messages**, and loses those that it has in hand.
* `Broker.forwarding_loses`: a message may be lost although a queue would take its copy.
-/

namespace Courier

namespace Router

variable {r r' r'' : Router} {id : BindingId} {now : Timestamp}

/-- What is to be taken out of the queues as expired was to be taken out of them before. -/
def DueFrom (now : Timestamp) (r r' : Router) : Prop :=
  ∀ id q', r'.queues.get? id = some q' → ∃ q, r.queues.get? id = some q ∧
    q'.toQueueInfo = q.toQueueInfo ∧ ∀ x ∈ (q'.expire now).1, x ∈ (q.expire now).1

theorem DueFrom.refl (now : Timestamp) (r : Router) : r.DueFrom now r :=
  fun _ q hq => ⟨q, hq, rfl, fun _ hx => hx⟩

theorem DueFrom.trans (h : r.DueFrom now r') (h' : r'.DueFrom now r'') : r.DueFrom now r'' := by
  intro id q'' hq''
  obtain ⟨q', hq', hinfo', hdue'⟩ := h' id q'' hq''
  obtain ⟨q, hq, hinfo, hdue⟩ := h id q' hq'
  exact ⟨q, hq, hinfo'.trans hinfo, fun x hx => hdue x (hdue' x hx)⟩

/-- Another queue is in the place of one. -/
theorem DueFrom.setQueue {q q' : Queue} (hq : r.queues.get? id = some q)
    (hinfo : q'.toQueueInfo = q.toQueueInfo)
    (hdue : ∀ x ∈ (q'.expire now).1, x ∈ (q.expire now).1) :
    r.DueFrom now { r with queues := r.queues.insert id q' } := by
  intro other found hfound
  rw [Dictionary.get?_insert] at hfound
  split at hfound
  · next hid =>
      cases hfound
      exact ⟨q, hid ▸ hq, hinfo, hdue⟩
  · exact ⟨found, hfound, rfl, fun _ hx => hx⟩

/-- Messages that do not expire come to the queues. -/
theorem DueFrom.deliverAll (h : r.DueFrom now r') {deliveries : List Delivery}
    (hlasting : ∀ d ∈ deliveries, d.message.expiration = none) :
    r.DueFrom now (r'.deliverAll deliveries).2 := by
  induction deliveries generalizing r' with
  | nil => exact h
  | cons d deliveries ih =>
      have hfirst : r'.DueFrom now (r'.deliver d).2 := by
        intro id found hfound
        rw [get?_deliver, Option.map_eq_some_iff] at hfound
        obtain ⟨q, hq, rfl⟩ := hfound
        refine ⟨q, hq, ?_⟩
        split
        · exact ⟨q.info_add d.message, fun x => Queue.mem_expire_of_add (hlasting d (.head _))⟩
        · exact ⟨rfl, fun _ hx => hx⟩
      exact ih (h.trans hfirst) fun d hd => hlasting d (.tail _ hd)

end Router

/-- What a request takes out of the queues of a broker. -/
def BrokerRequest.departure? {σ : Type} (r : BrokerRequest) (b : Broker σ) : Option Departure :=
  match r with
  | cancelDelivery name message => (b.queueIds.get? name).map fun id => .cancelled id message
  | expireMessages now => some (.expired now)
  | _ => none

/-! ### Getting stuck -/

/-- How far a request came that failed. -/
structure Progress where
  /-- What it took out of other queues before, all of which it let go of. -/
  before : List Removal
  /-- What it let go of in the batch of one queue. -/
  done : List Removal
  /-- The reference at which it failed. -/
  current : Removal
  /-- What was left of the batch. -/
  left : List Removal
  /-- The copies that it sent. -/
  sent : List Sending
  /-- Whether the store refused the copy of the message at which it failed. If it did not, then the
  request let go of this message as well, and failed afterwards. -/
  refused : Bool

namespace Progress

/-- The batch of the queue at which the request failed. -/
def batch (p : Progress) : List Removal :=
  p.done ++ p.current :: p.left

/-- All that the request took out of queues. -/
def removed (p : Progress) : List Removal :=
  p.before ++ p.batch

/-- All that the request let go of. -/
def settled (p : Progress) : List Removal :=
  p.before ++ p.done ++ if p.refused then [] else [p.current]

/-- What the request took out of a queue and did not let go of. -/
def inHand (p : Progress) : List Removal :=
  if p.refused then p.current :: p.left else p.left

theorem removed_eq (p : Progress) : p.removed = p.settled ++ p.inHand := by
  rw [removed, batch, settled, inHand]
  cases p.refused <;> simp

end Progress

namespace Broker

open BrokerM

variable {σ : Type}

/-- A request failed at a reference in the batch of a queue. The batch is what was to be taken out
of the queue when the request came to it, and by then the request had let go of all that it had
taken out of other queues. Of the batch it let go of what is in front of the reference, and could
not let go of the reference itself. The account after this tells what became of everything. -/
structure Stuck [MessageStore σ] (dep : Departure) (b : Broker σ) (p : Progress) (e : BrokerError)
    (b' : Broker σ) : Prop where
  batch : ∃ sent b₁ q, b.Account dep p.before p.before sent b₁ ∧
    b₁.router.queues.get? p.current.binding = some q ∧
    p.batch = Removal.ofBatch p.current.binding q.toQueueInfo (dep.batch p.current.binding q)
  stopped : ∃ sent b₁, b.Account dep p.removed (p.before ++ p.done) sent b₁ ∧
    b₁.perform (dep.letGo p.current) = (.error e, b')
  account : b.Account dep p.removed p.settled p.sent b'
  refused : p.refused → dep.sendsOn p.current

/-- What became of a message that the queue of a binding held when a request came that failed. -/
inductive Fate (dep : Departure) (p : Progress) (b' : Broker σ) (id : BindingId) (m : Message) :
    Prop
  /-- The queue holds it, or a copy that was sent and took its place. -/
  | retained (retains : b'.Retains (Sending.arrivals p.sent) id m)
  /-- It was let go of, and its queue names no address for a copy. -/
  | dropped (x : Removal) (settled : x ∈ p.settled) (from_queue : x.binding = id)
      (message_eq : x.reference.message = m) (target_eq : dep.target x.queue = none)
  /-- A copy of it was sent, and the queues that take the copy have it. -/
  | sentOn (s : Sending) (sent : s ∈ p.sent) (from_queue : s.binding = id)
      (message_eq : s.message = m)
      (arrived : ∀ d ∈ s.deliveries, b'.Retains (Sending.arrivals p.sent) d.binding d.message)
  /-- It was taken out of its queue and not let go of. -/
  | inHand (x : Removal) (inHand : x ∈ p.inHand) (from_queue : x.binding = id)
      (message_eq : x.reference.message = m)

/-- A request has let go of all that it took out of queues, or got stuck. -/
def Settles [MessageStore σ] {α : Type} (dep : Departure) (b : Broker σ)
    (result : Except BrokerError α) (b' : Broker σ) : Prop :=
  match result with
  | .ok _ => ∃ removed sent, b.Account dep removed removed sent b'
  | .error e => ∃ p, b.Stuck dep p e b'

variable [MessageStore σ] {dep : Departure} {b b₁ b₂ : Broker σ} {published : List Message}
  {removed before done left : List Removal} {sent : List Sending} {id : BindingId} {x : Removal}
  {p : Progress} {e : BrokerError} {now : Timestamp}

namespace Stuck

/-- The account tells what became of every message. -/
theorem fate (h : b.Stuck dep p e b₂) {q : Queue} (hq : b.router.queues.get? id = some q)
    {m : Message} (hm : m ∈ q.heldMessages) : b₂.Fate dep p id m := by
  rcases h.account.stays id q hq m hm with hretains | ⟨x, hx, hid, hmessage⟩
  · exact .retained hretains
  rw [p.removed_eq] at hx
  rcases List.mem_append.mp hx with hx | hx
  · rcases htarget : dep.target x.queue with _ | target
    · exact .dropped x hx hid hmessage htarget
    · -- There is one copy for each reference that left a queue which names an address.
      have hon : dep.sendsOn x := by rw [Departure.sendsOn, htarget]; rfl
      have hsource : x.source ∈ p.sent.map Sending.source := by
        rw [h.account.sources]
        exact List.mem_map_of_mem (List.mem_filter.mpr ⟨hx, hon⟩)
      obtain ⟨s, hs, hsame⟩ := List.mem_map.mp hsource
      rw [Sending.source, Removal.source, Prod.mk.injEq, Prod.mk.injEq] at hsame
      exact .sentOn s hs (hsame.1.trans hid) (hsame.2.2.trans hmessage) (h.account.arrived s hs)
  · exact .inHand x hx hid hmessage

/-- **What the request has in hand is lost**: a queue that held the message once does not hold it
any more, unless it came there again. -/
theorem not_mem_of_inHand (h : b.Stuck dep p e b₂) (hx : x ∈ p.inHand) {q q' : Queue}
    (hq : b.router.queues.get? x.binding = some q)
    (hq' : b₂.router.queues.get? x.binding = some q')
    (honce : q.heldMessages.count x.reference.message ≤ 1)
    (harrivals : x.reference.message ∉ Sending.arrivals p.sent) :
    x.reference.message ∉ q'.heldMessages := by
  have hcount := h.account.count_le hq hq' x.reference.message
  have hremoved : x.reference.message ∈
      (Removal.at x.binding p.removed).map Reference.message := by
    rw [p.removed_eq, Removal.at]
    refine List.mem_map_of_mem (List.mem_map_of_mem (List.mem_filter.mpr ⟨?_, ?_⟩))
    · exact List.mem_append_right _ hx
    · exact decide_eq_true rfl
  have hcame : x.reference.message ∉
      Delivery.at x.binding (p.sent.flatMap Sending.deliveries) := by
    intro hcame
    obtain ⟨d, hd, heq⟩ := List.mem_map.mp hcame
    obtain ⟨s, hs, hd⟩ := List.mem_flatMap.mp (List.mem_filter.mp hd).1
    exact harrivals (heq ▸ Sending.mem_arrivals hs hd)
  have hpos := List.count_pos_iff.mpr hremoved
  rw [List.count_eq_zero_of_not_mem hcame] at hcount
  exact List.count_eq_zero.mp (by omega)

end Stuck

/-- **A request that fails to let go of a reference got stuck.** -/
theorem Account.stuck
    (h : b.Account dep (before ++ (done ++ x :: left)) (before ++ done) sent b₁)
    (hb₁ : b₁.Custody Regime.trivial published)
    (hbatch : ∃ sent b₁ q, b.Account dep before before sent b₁ ∧
      b₁.router.queues.get? x.binding = some q ∧
      done ++ x :: left = Removal.ofBatch x.binding q.toQueueInfo (dep.batch x.binding q))
    (hfail : b₁.perform (dep.letGo x) = (.error e, b₂)) : ∃ p, b.Stuck dep p e b₂ := by
  have hx : x ∈ before ++ (done ++ x :: left) :=
    List.mem_append_right _ (List.mem_append_right _ (.head _))
  rcases h.letGo hb₁ hx hfail with ⟨sent', haccount⟩ | ⟨-, hon, haccount⟩
  · exact ⟨⟨before, done, x, left, sent', false⟩, hbatch, ⟨sent, b₁, h, hfail⟩, haccount,
      fun hrefused => nomatch hrefused⟩
  · refine ⟨⟨before, done, x, left, sent, true⟩, hbatch, ⟨sent, b₁, h, hfail⟩, ?_, fun _ => hon⟩
    rw [Progress.settled, if_pos rfl, List.append_nil]
    exact haccount

/-! ### A delivery is cancelled -/

/-- A reference that is given up leaves its queue. -/
theorem perform_cancelDelivery {name : String} {message : MessageId} {q q' : Queue}
    {outcome : CancelOutcome} (hid : b.queueIds.get? name = some id)
    (hq : b.router.queues.get? id = some q) (hcancel : q.cancel message = .ok (outcome, q')) :
    b.perform (cancelDelivery name message) =
      ({ b with router := { b.router with queues := b.router.queues.insert id q' } } :
        Broker σ).perform
        (match outcome with
        | .redelivered _ => pure outcome
        | .deadLetter r _ => do
          count fun c => { c with deadLettered := c.deadLettered + 1 }
          (Departure.cancelled id message).letGo ⟨id, q.toQueueInfo, r⟩
          return outcome) := by
  have hinfo : q'.toQueueInfo = q.toQueueInfo ∧
      ∀ r target, outcome = .deadLetter r target → target = q.settings.deadLetterAddress := by
    rw [Queue.cancel] at hcancel
    split at hcancel
    · cases hcancel
    · dsimp only at hcancel
      split at hcancel
      all_goals
        cases hcancel
        refine ⟨rfl, fun r target h => ?_⟩
        cases h
      rfl
  rw [cancelDelivery, perform_bind, perform_requireQueue, queue?_eq_some_iff.mpr ⟨hid, hq⟩]
  dsimp only [Option.elim_some]
  rw [hcancel]
  dsimp only
  rw [perform_bind_ok _ (perform_setQueue ..)]
  rcases outcome with n | ⟨r, target⟩
  · rfl
  · obtain rfl := hinfo.2 r target rfl
    rw [hinfo.1]
    dsimp only [Departure.letGo, Departure.cancelled]
    rcases q.settings.deadLetterAddress with _ | target
    · rfl
    · simp only [bind_assoc]

/-- A reference that is given up is all that leaves its queue. -/
theorem Custody.exchanged_cancel (hb : b.Custody Regime.trivial published) {message : MessageId}
    {q q' : Queue} {r : Reference} {target : Option Address}
    (hq : b.router.queues.get? id = some q)
    (hcancel : q.cancel message = .ok (.deadLetter r target, q')) :
    q.Yields ([r].map Reference.message) [] q' ∧
      q.Exchanged ([r].map Reference.message) [] q' := by
  have hyields : q.Yields ([r].map Reference.message) [] q' :=
    (hb.router.keyed id q hq).cancel hcancel
  refine ⟨hyields, hyields.exchanged ?_ ?_⟩
  all_goals
    rw [Queue.cancel] at hcancel
    split at hcancel
    · cases hcancel
    · dsimp only at hcancel
      split at hcancel <;> cases hcancel
      rfl

/-- **A delivery cannot be cancelled**: nothing happened, or the message is given up and the
request got stuck with it. -/
theorem cancelDelivery_stuck (hb : b.Custody Regime.trivial published) {name : String}
    {message : MessageId}
    (hfail : b.perform (cancelDelivery name message) = (.error e, b₂)) :
    b₂ = b ∨ ∃ id, b.queueIds.get? name = some id ∧
      ∃ p, b.Stuck (.cancelled id message) p e b₂ := by
  rcases perform_requireQueue_bind b name _ with hperform | ⟨id, q, hid, hq, hperform⟩
  · cases hperform.symm.trans hfail
    exact .inl rfl
  · rcases hcancel : q.cancel message with e' | ⟨outcome, q'⟩
    · replace hfail := hperform.symm.trans hfail
      dsimp only at hfail
      rw [hcancel] at hfail
      cases hfail
      exact .inl rfl
    · rw [perform_cancelDelivery hid hq hcancel] at hfail
      rcases outcome with n | ⟨r, target⟩
      · cases hfail
      · obtain ⟨hyields, hexchanged⟩ := hb.exchanged_cancel hq hcancel
        have hbatch : (Departure.cancelled id message).batch id q = [r] := by
          simp [Departure.cancelled, hcancel]
        have hstart := Account.start hb (.cancelled id message)
        have htaken := hstart.take hq hyields hexchanged
          ⟨q, hq, rfl, fun r hr => hbatch ▸ hr⟩ fun m hm => absurd hm List.not_mem_nil
        have hset := hb.setQueue (hb.router.setQueue_of_yields hq hyields).1
        dsimp only at hfail
        rw [perform_bind_ok _ (perform_count ..), perform_bind] at hfail
        split at hfail
        · cases hfail
        · next e' b₃ hletGo =>
            cases hfail
            let change : BrokerCounters → BrokerCounters :=
              fun c => { c with deadLettered := c.deadLettered + 1 }
            have hcounted : b.Account (.cancelled id message)
                ([] ++ ([] ++ ⟨id, q.toQueueInfo, r⟩ :: [])) ([] ++ []) [] _ :=
              htaken.of_queues_eq (count_steady change _) rfl
            refine .inr ⟨id, hid, hcounted.stuck (count_keeps change _ hset)
              ⟨[], b, q, hstart, hq, ?_⟩ hletGo⟩
            rw [hbatch]
            rfl

/-! ### Messages expire -/

/-- The invariant of taking out what has expired: what is to be taken out was to be taken out of
the queues of a router, which are those at the start. -/
structure Expiring (published : List Message) (now : Timestamp) (r : Router) (b : Broker σ) :
    Prop where
  custody : b.Custody Regime.trivial published
  due : r.DueFrom now b.router

theorem letGo_expiring (now : Timestamp) (r : Router) (x : Removal) :
    ((Departure.expired now).letGo x : BrokerM σ Unit).Keeps (Expiring published now r) := by
  intro b h
  refine ⟨letGo_custody _ x b h.custody, ?_⟩
  rcases htarget : (Departure.expired now).target x.queue with _ | target
  · obtain ⟨released, counts, store, hrelease⟩ :=
      exists_perform_release b x.queue x.reference.message
    rw [Departure.letGo, htarget]
    dsimp only
    rw [hrelease]
    exact h.due
  · obtain ⟨result, router, counts, store, hletGo, hrouter⟩ :=
      letGo_refused_or_sent _ b (x := x) htarget rfl
    rw [hletGo]
    rcases hrouter with ⟨rfl, -⟩ | rfl
    · exact h.due
    · obtain ⟨counters, hcommit⟩ := commit_router b.router _
      rw [hcommit]
      have hmarks := Departure.expired_marks now
      exact h.due.deliverAll fun d hd =>
        h.custody.router.bound.registry.of_mem_plan hd hmarks.forwarded (hmarks.copy ..)

theorem forM_dismiss (id : BindingId) (q : QueueInfo) (now : Timestamp)
    (references : List Reference) :
    (references.forM (dismiss q now) : BrokerM σ PUnit) =
      (Removal.ofBatch id q references).forM (Departure.expired now).letGo := by
  rw [List.forM_eq_forM, List.forM_eq_forM, Removal.ofBatch, List.forM_map]
  rfl

theorem expireQueue_expiring (now : Timestamp) (r : Router) (id : BindingId) :
    (expireQueue now id : BrokerM σ Nat).Keeps (Expiring published now r) := by
  intro b h
  rw [expireQueue, perform_bind_ok _ (perform_get b)]
  cases hq : b.router.queues.get? id with
  | none => exact h
  | some q =>
      have hyields := (h.custody.router.keyed id q hq).expire now
      have hset := h.custody.setQueue (h.custody.router.setQueue_of_yields hq hyields).1
      have hdue := h.due.trans (.setQueue hq hyields.info_eq fun _ => Queue.mem_expire_of_expire)
      dsimp only
      rw [perform_bind_ok _ (perform_setQueue ..), forM_dismiss id]
      refine Keeps.bind (.forM_mem fun x _ => ?_) (fun _ => .pure _) _ ⟨hset, hdue⟩
      exact letGo_expiring now r x

/-- **What has expired is taken out of a queue.** -/
theorem Account.takeExpired (h : b.Account (.expired now) removed removed sent b₁)
    (hb₁ : b₁.Expiring published now b.router) {q : Queue}
    (hq : b₁.router.queues.get? id = some q) :
    b.Account (.expired now) (removed ++ Removal.ofBatch id q.toQueueInfo (q.expire now).1) removed
      sent
      { b₁ with
        router := { b₁.router with queues := b₁.router.queues.insert id (q.expire now).2 } } := by
  obtain ⟨start, hstart, hinfo, hdue⟩ := hb₁.due id q hq
  have hkeyed := hb₁.custody.router.keyed id q hq
  have hyields := hkeyed.expire now
  have hsound := h.bindings.registry_eq ▸ hb₁.custody.router.bound.registry
  refine h.take hq hyields (hyields.exchanged rfl rfl) ⟨start, hstart, hinfo.symm, hdue⟩ ?_
  -- Copies that came do not expire, so that none of them is taken out.
  intro m hm hout
  obtain ⟨r, hr, rfl⟩ := List.mem_map.mp hout
  have hexpires := hkeyed.expires_of_expire hr
  rw [h.lasting hsound r.message hm] at hexpires
  cases hexpires

/-- **What became of the messages of one queue** of which some have expired. -/
theorem Account.expireQueue (h : b.Account (.expired now) removed removed sent b₁)
    (hb₁ : b₁.Expiring published now b.router) {result : Except BrokerError Nat}
    (hperform : b₁.perform (expireQueue now id) = (result, b₂)) :
    b.Settles (.expired now) result b₂ := by
  rw [Broker.expireQueue, perform_bind_ok _ (perform_get b₁)] at hperform
  cases hq : b₁.router.queues.get? id with
  | none =>
      rw [hq] at hperform
      cases hperform
      exact ⟨removed, sent, h⟩
  | some q =>
      rw [hq] at hperform
      dsimp only at hperform
      have hyields := (hb₁.custody.router.keyed id q hq).expire now
      have hset := hb₁.custody.setQueue (hb₁.custody.router.setQueue_of_yields hq hyields).1
      rw [perform_bind_ok _ (perform_setQueue ..), forM_dismiss id, hyields.info_eq,
        perform_bind] at hperform
      rcases hforM : Broker.perform _ (List.forM _ _) with ⟨settled, b₃⟩
      rw [hforM] at hperform
      rcases (h.takeExpired hb₁ hq).letGo_forM hset (fun x hx => List.mem_append_right _ hx)
        hforM with ⟨rfl, sent', haccount⟩ |
          ⟨e, done, x, left, sent', b₄, rfl, hbatch, haccount, hb₄, hfail⟩
      · cases hperform
        exact ⟨_, sent', haccount⟩
      · cases hperform
        have hx : x ∈ Removal.ofBatch id q.toQueueInfo (q.expire now).1 :=
          hbatch ▸ List.mem_append_right _ (.head _)
        obtain ⟨r, -, rfl⟩ := List.mem_map.mp hx
        rw [hbatch] at haccount
        exact haccount.stuck hb₄ ⟨sent, b₁, q, h, hq, hbatch.symm⟩ hfail

/-- Some queues are gone through, in whatever order, and the request gets stuck at one of them. -/
theorem Account.expireQueues {others : List BindingId}
    (h : b.Account (.expired now) removed removed sent b₁)
    (hb₁ : b₁.Expiring published now b.router)
    (hfail : b₁.perform (others.mapM (Broker.expireQueue now)) = (.error e, b₂)) :
    ∃ p, b.Stuck (.expired now) p e b₂ := by
  induction others generalizing removed sent b₁ with
  | nil => cases hfail
  | cons id others ih =>
      rw [List.mapM_cons, perform_bind] at hfail
      have hnext := expireQueue_expiring now b.router id b₁ hb₁
      rcases hqueue : b₁.perform (Broker.expireQueue now id) with ⟨result, b₃⟩
      rw [hqueue] at hfail hnext
      have hsettles := h.expireQueue hb₁ hqueue
      rcases result with e' | n
      · cases hfail
        exact hsettles
      · obtain ⟨removed', sent', haccount⟩ := hsettles
        dsimp only at hfail
        rw [perform_bind] at hfail
        split at hfail
        · cases hfail
        · next hrest =>
            cases hfail
            exact ih haccount hnext hrest

/-- **What has expired cannot be removed**: the request got stuck. -/
theorem expireMessages_stuck (hb : b.Custody Regime.trivial published)
    (hfail : b.perform (expireMessages now) = (.error e, b₂)) :
    ∃ p, b.Stuck (.expired now) p e b₂ := by
  rw [expireMessages, perform_bind_ok _ (perform_get b), perform_bind] at hfail
  split at hfail
  · cases hfail
  · next hqueues =>
      cases hfail
      exact (Account.start hb _).expireQueues ⟨hb, .refl now b.router⟩ hqueues

/-! ### Requests that fail -/

/-- **A request that fails to send a message on accounts for all messages.** In any state that a
broker comes to, over any store, and in whatever order it goes over queues and stores messages: if a
delivery cannot be cancelled or what has expired cannot be removed, then nothing happened, or the
request got stuck in the batch that it took out of one queue. It is known then what became of every
message that a queue held. What the request has in hand is the rest of the batch, with the message
at which it failed if the store refused its copy, and this is lost: a queue that held such a message
once does not hold it any more. -/
theorem forwarding_accounted (hb : Reachable (fun _ => True) (fun _ _ => True) published b)
    {r : BrokerRequest} (hr : r.forwards) (hfail : b.perform r.act = (.error e, b₂)) :
    b₂ = b ∨ ∃ dep p, r.departure? b = some dep ∧ b.Stuck dep p e b₂ ∧
      (∀ id q, b.router.queues.get? id = some q → ∀ m ∈ q.heldMessages, b₂.Fate dep p id m) ∧
      ∀ x ∈ p.inHand, ∀ q q', b.router.queues.get? x.binding = some q →
        b₂.router.queues.get? x.binding = some q' →
        q.heldMessages.count x.reference.message ≤ 1 →
        x.reference.message ∉ Sending.arrivals p.sent →
        x.reference.message ∉ q'.heldMessages := by
  have hcustody : b.Custody Regime.trivial published :=
    hb.custody (fun _ _ _ => True.intro) (fun _ _ _ _ _ => True.intro) fun _ _ => True.intro
  have hstuck : b₂ = b ∨ ∃ dep p, r.departure? b = some dep ∧ b.Stuck dep p e b₂ := by
    cases r with
    | cancelDelivery name message =>
        rcases hcancel : b.perform (cancelDelivery name message) with ⟨e' | outcome, b'⟩
        all_goals
          rw [BrokerRequest.act, perform_discard, hcancel] at hfail
          cases hfail
        refine (cancelDelivery_stuck hcustody hcancel).imp_right ?_
        rintro ⟨id, hid, p, hstuck⟩
        exact ⟨_, p, congrArg (Option.map _) hid, hstuck⟩
    | expireMessages now =>
        rcases hexpire : b.perform (expireMessages now) with ⟨e' | number, b'⟩
        all_goals
          rw [BrokerRequest.act, perform_discard, hexpire] at hfail
          cases hfail
        obtain ⟨p, hstuck⟩ := expireMessages_stuck hcustody hexpire
        exact .inr ⟨_, p, rfl, hstuck⟩
    | _ => cases hr
  refine hstuck.imp_right ?_
  rintro ⟨dep, p, hdep, hstuck⟩
  exact ⟨dep, p, hdep, hstuck, fun id q hq m hm => hstuck.fate hq hm,
    fun x hx q q' hq hq' => hstuck.not_mem_of_inHand hx hq hq'⟩

/-! ### Copies that are refused -/

/-- A queue for all orders, one for those that are kept, and one for what is kept of those that
have expired. -/
def perishing : Config where
  delivery := { expiryAddress := some "expired" }
  queues :=
    [{ name := "all", address := "orders" },
      { name := "kept", address := "orders", filter := some "keep" },
      { name := "late", address := "expired", filter := some "keep" }]

/-- A message that expires after a millisecond. -/
def perishable (number : Nat) (properties : Properties) : Message :=
  { order number with
    body := [UInt8.ofNat number]
    expiration := some (.atMillis 1 (by decide))
    properties }

/-- Three messages are published, and the second one is handed out from one of its queues. -/
def perishes : List BrokerRequest :=
  [.publish (perishable 1 {}),
    .publish (perishable 2 (({} : Properties).put "keep" (.boolean true))),
    .publish (perishable 3 {}), .receive "kept" .epoch]

/-- When the messages have expired, no queue takes the copy of the first one, the store refuses that
of the second one, and the third one is left. Afterwards the second one is in delivery from the
other queue, and the third one is in no queue. -/
theorem forwarding_accounted_refused :
    ∃ (b b' : Broker GuardedLog) (now : Timestamp) (e : BrokerError),
      b.perform (BrokerRequest.expireMessages now).act = (.error e, b') ∧
      (∃ p, b.Stuck (.expired now) p e b') ∧
      b'.counters.published = b.counters.published + 2 ∧
      (b.queue? "all").map (fun found => found.2.heldMessages.map Message.body) =
        some [[1], [2], [3]] ∧
      b'.router.queues.values.flatMap (fun q => q.heldMessages.map Message.body) = [[2]] := by
  have hcheck : (deploy LogLevel.isSound {} perishing (GuardedLog.refusing 3)
      (consecutive 100)).toOption.any fun b₀ =>
        let b := (b₀.serve perishes).2
        let (result, b') := b.perform (BrokerRequest.expireMessages (.atMillis 2 (by decide))).act
        !result.toOption.isSome &&
        decide (b'.counters.published = b.counters.published + 2) &&
        decide ((b.queue? "all").map (fun found => found.2.heldMessages.map Message.body) =
          some [[1], [2], [3]]) &&
        decide (b'.router.queues.values.flatMap (fun q => q.heldMessages.map Message.body) =
          [[2]]) := by
    decide +kernel
  obtain ⟨b₀, hb₀, hcheck⟩ := exists_ok_of_any hcheck
  have hdeployed : Reachable (fun _ => True) (fun _ _ => True) [] b₀ := .deployed True.intro hb₀
  obtain ⟨published, hreached⟩ := hdeployed.serve perishes
  generalize (b₀.serve perishes).2 = b at hcheck hreached
  dsimp only at hcheck
  rcases hfail : b.perform (BrokerRequest.expireMessages (.atMillis 2 (by decide))).act with
    ⟨e | _, b'⟩
  all_goals
    rw [hfail] at hcheck
    simp only [Bool.and_eq_true, decide_eq_true_iff] at hcheck
    obtain ⟨⟨⟨hresult, hcount⟩, hbefore⟩, hafter⟩ := hcheck
  · refine ⟨b, b', _, e, hfail, ?_, hcount, hbefore, hafter⟩
    rcases forwarding_accounted hreached rfl hfail with rfl | ⟨dep, p, hdep, hstuck, -⟩
    · omega
    · cases hdep
      exact ⟨p, hstuck⟩
  · cases hresult

/-- A queue from which a message is handed out once, and a queue for what is given up. -/
def lastChance : Config where
  delivery := { maxDeliveryAttempts := 1, deadLetterAddress := some "dead" }
  queues := [{ name := "first", address := "orders" }, { name := "dead", address := "dead" }]

/-- A message is published and handed out. -/
def handsOut : List BrokerRequest :=
  [.publish (order 1), .receive "first" .epoch]

/-- **A message may be lost** although its queue names an address for a copy and a queue would take
the copy: the store refuses the copy of a message that is given up, and no queue holds anything any
more. -/
theorem forwarding_loses :
    ¬∀ (published : List Message) (b b' : Broker GuardedLog) (r : BrokerRequest)
        (dep : Departure) (e : BrokerError),
      Reachable (fun s => s.log = {}) (fun _ _ => False) published b →
      r.departure? b = some dep → b.perform r.act = (.error e, b') →
      ∀ id q, b.router.queues.get? id = some q → ∀ m ∈ q.heldMessages, ∀ target copy,
        dep.target q.toQueueInfo = some target →
        copy = dep.copy q.toQueueInfo m b.ids.next target →
        (b.router.plan b.ids.advance copy target).1.deliveries ≠ [] →
        ∃ id' q', b'.router.queues.get? id' = some q' ∧ ∃ n ∈ q'.heldMessages,
          n = m ∨ ∃ copyId, n = dep.copy q.toQueueInfo m copyId target := by
  intro hall
  have hcheck : (deploy LogLevel.isSound {} lastChance (GuardedLog.refusing 1)
      (consecutive 100)).toOption.any fun b₀ =>
        let b := (b₀.serve handsOut).2
        let (result, b') := b.perform (BrokerRequest.cancelDelivery "first" (order 1).id).act
        !result.toOption.isSome &&
        b'.router.queues.values.all (fun q => q.heldMessages.isEmpty) &&
        (b.queue? "first").any fun found =>
          found.2.heldMessages.contains (order 1) &&
          found.2.settings.deadLetterAddress.any fun target =>
            !(b.router.plan b.ids.advance
              ((order 1).forwardedFrom found.2.toQueueInfo b.ids.next target)
              target).1.deliveries.isEmpty := by
    decide +kernel
  obtain ⟨b₀, hb₀, hcheck⟩ := exists_ok_of_any hcheck
  have hdeployed : Reachable (fun s : GuardedLog => s.log = {}) (fun _ _ => False) [] b₀ :=
    .deployed rfl hb₀
  obtain ⟨published, hreached⟩ := hdeployed.serve handsOut
  generalize (b₀.serve handsOut).2 = b at hcheck hreached
  dsimp only at hcheck
  rcases hfail : b.perform (BrokerRequest.cancelDelivery "first" (order 1).id).act with ⟨e | _, b'⟩
  all_goals
    rw [hfail] at hcheck
    simp only [Bool.and_eq_true, List.all_eq_true, Option.any_eq_true,
      List.contains_iff_mem] at hcheck
    obtain ⟨⟨hresult, hgone⟩, ⟨id, q⟩, hfound, hheld, target, htarget, htaken⟩ := hcheck
  · obtain ⟨hid, hq⟩ := queue?_eq_some_iff.mp hfound
    have hdep : (BrokerRequest.cancelDelivery "first" (order 1).id).departure? b =
        some (.cancelled id (order 1).id) := by
      rw [BrokerRequest.departure?, hid]
      rfl
    have hnonempty : (b.router.plan b.ids.advance
        ((order 1).forwardedFrom q.toQueueInfo b.ids.next target) target).1.deliveries ≠ [] := by
      simpa using htaken
    obtain ⟨id', q', hq', n, hn, -⟩ := hall published b b' _ _ e hreached hdep hfail id q hq
      (order 1) hheld target _ htarget rfl hnonempty
    have hempty := hgone q' (Dictionary.mem_values_iff.mpr ⟨id', hq'⟩)
    rw [List.isEmpty_iff.mp hempty] at hn
    cases hn
  · cases hresult

end Broker

end Courier
