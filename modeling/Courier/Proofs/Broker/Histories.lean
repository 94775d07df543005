import Courier.Proofs.Broker.Lifetime
import Courier.Proofs.Queue.History

/-!
# The Histories of a Broker's Queues

Whatever happens to a broker, each of its queues has got there by requests to a queue: it came
empty, and messages were added to it, handed out, acknowledged, cancelled and taken out. What is
true of a queue after any history is therefore true of the queues of a broker. A queue that the
broker lost at a restart or that was withdrawn begins anew when it comes again.

## Main definitions

* `Queue.HasHistory`: a queue came about by requests.
* `Router.HaveHistories`: all queues of a router did.

## Main results

* `Broker.act_keeps_histories`: a request to a broker makes requests to its queues.
* `Broker.Reachable.histories`: every queue of a broker came about by requests, in every state that
  the broker comes to.
-/

namespace Courier

namespace Queue

/-- A queue came about by requests to an empty one. -/
def HasHistory (q : Queue) : Prop :=
  ∃ requests, q = (Queue.serveAll Queue.serve (.empty q.toQueueInfo) requests).2

theorem hasHistory_empty (info : QueueInfo) : (empty info).HasHistory := ⟨[], rfl⟩

variable {q q' : Queue}

theorem HasHistory.laidOut (h : q.HasHistory) : q.LaidOut q.order := by
  obtain ⟨requests, hq⟩ := h
  rw [hq]
  exact (laidOut_empty q.toQueueInfo).serveAll requests

/-- One more request is part of the history. -/
theorem HasHistory.serve (h : q.HasHistory) (request : Request) :
    (q.serve request).2.HasHistory := by
  have hinfo := h.laidOut.info_serve request
  obtain ⟨requests, hq⟩ := h
  refine ⟨requests ++ [request], ?_⟩
  rw [hinfo, serveAll_concat, ← hq]

theorem HasHistory.acknowledge (h : q.HasHistory) {id : MessageId} {r : Reference}
    (hq' : q.acknowledge id = .ok (r, q')) : q'.HasHistory := by
  have hserve := h.serve (.acknowledge id)
  rwa [Queue.serve, hq'] at hserve

theorem HasHistory.cancel (h : q.HasHistory) {id : MessageId} {outcome : CancelOutcome}
    (hq' : q.cancel id = .ok (outcome, q')) : q'.HasHistory := by
  have hserve := h.serve (.cancel id)
  rwa [Queue.serve, hq'] at hserve

end Queue

/-! ### Routers -/

namespace Router

/-- All queues came about by requests. -/
def HaveHistories (r : Router) : Prop :=
  ∀ id q, r.queues.get? id = some q → q.HasHistory

variable {r r' : Router}

theorem HaveHistories.of_queues_eq (h : r.HaveHistories) (hqueues : r'.queues = r.queues) :
    r'.HaveHistories := fun id q hq => h id q (hqueues ▸ hq)

/-- Another queue is in the place of one, or a new one comes. -/
theorem HaveHistories.setQueue (h : r.HaveHistories) (id : BindingId) {q : Queue}
    (hq : q.HasHistory) : HaveHistories { r with queues := r.queues.insert id q } := by
  intro other found hfound
  rw [Dictionary.get?_insert] at hfound
  split at hfound
  · cases hfound
    exact hq
  · exact h other found hfound

theorem HaveHistories.deliverAll (h : r.HaveHistories) (deliveries : List Delivery) :
    (r.deliverAll deliveries).2.HaveHistories := by
  induction deliveries generalizing r with
  | nil => exact h
  | cons d deliveries ih =>
      refine ih (r := (r.deliver d).2) fun id found hfound => ?_
      rw [get?_deliver, Option.map_eq_some_iff] at hfound
      obtain ⟨q, hq, rfl⟩ := hfound
      split
      · exact (h id q hq).serve (.add d.message)
      · exact h id q hq

theorem HaveHistories.commit (h : r.HaveHistories) (plan : RoutePlan) :
    (r.commit plan).2.HaveHistories := by
  obtain ⟨counters, hcommit⟩ := Broker.commit_router r plan
  rw [hcommit]
  exact (h.deliverAll plan.deliveries).of_queues_eq rfl

theorem queues_unbind (r : Router) (name : String) : (r.unbind name).queues = r.queues := by
  rw [unbind, unbind?]
  cases r.registry.remove? name <;> rfl

theorem HaveHistories.bindQueue? (h : r.HaveHistories) {info : QueueInfo}
    {filter : Option Selector} {b : Binding} (hbind : r.bindQueue? info filter = some (b, r')) :
    r'.HaveHistories := by
  obtain ⟨⟨b', registry⟩, -, heq⟩ := Option.map_eq_some_iff.mp hbind
  cases heq
  exact (h.setQueue b.id (Queue.hasHistory_empty info)).of_queues_eq rfl

theorem queues_bindDivert? {divert : Divert} {filter : Option Selector} {b : Binding}
    (hbind : r.bindDivert? divert filter = some (b, r')) : r'.queues = r.queues := by
  obtain ⟨⟨b', registry⟩, -, heq⟩ := Option.map_eq_some_iff.mp hbind
  cases heq
  rfl

end Router

/-! ### Brokers -/

namespace Broker

open BrokerM

variable {σ : Type}

/-- The queues of a broker came about by requests. -/
def HaveHistories (b : Broker σ) : Prop := b.router.HaveHistories

theorem histories_of_deploy {levels : String → Bool} {walks : WalkOrders} {c : Config} {store : σ}
    {ids : IdSupply} {b : Broker σ} (hb : deploy levels walks c store ids = .ok b) :
    b.HaveHistories := by
  intro id q hq
  rw [(fresh_of_deploy hb).queues_new id q hq]
  exact Queue.hasHistory_empty _

/-- A request to a queue keeps what every continuation keeps that has a queue with a history. -/
theorem requireQueue_keeps_histories {α : Type} {name : String}
    {next : BindingId × Queue → BrokerM σ α}
    (hnext : ∀ b : Broker σ, b.HaveHistories → ∀ id q, q.HasHistory →
      (b.perform (next (id, q))).2.HaveHistories) :
    (requireQueue name >>= next).Keeps HaveHistories := by
  intro b h
  rcases perform_requireQueue_bind b name next with hperform | ⟨id, q, -, hq, hperform⟩
  · rw [hperform]
    exact h
  · rw [hperform]
    exact hnext b h id q (h id q hq)

theorem receive_keeps_histories (name : String) (now : Timestamp) :
    (receive name now : BrokerM σ (Option Reference)).Keeps HaveHistories :=
  requireQueue_keeps_histories fun _ h id _ hq => h.setQueue id (hq.serve (.poll now))

variable [MessageStore σ]

theorem release_keeps_histories (q : QueueInfo) (m : Message) :
    (release q m : BrokerM σ Unit).Keeps HaveHistories := by
  intro b h
  obtain ⟨result, counts, store, hperform⟩ := exists_perform_release b q m
  rw [hperform]
  exact h

theorem commit_keeps_histories (plan : RoutePlan) :
    (commit plan : BrokerM σ (List RoutedReference)).Keeps HaveHistories := by
  intro b h
  obtain ⟨result, router, counts, store, hperform, -, hrouter⟩ :=
    @commit_refused_or_committed σ _ Regime.trivial (fun _ => True) b plan
      fun _ _ _ => ⟨True.intro, True.intro⟩
  rw [hperform]
  rcases hrouter with ⟨rfl, -⟩ | rfl
  · exact h
  · exact Router.HaveHistories.commit h plan

theorem publish_keeps_histories (m : Message) :
    (publish m : BrokerM σ (List RoutedReference)).Keeps HaveHistories := by
  intro b h
  rw [perform_publish]
  exact commit_keeps_histories _ (b.planned m) h

/-- A copy is published, and the message is let go of. -/
theorem forward_keeps_histories (q : QueueInfo) (m : Message) (copy : MessageId → Message) :
    (newId >>= fun id => discard (publish (copy id)) >>= fun _ => release q m :
      BrokerM σ Unit).Keeps HaveHistories := by
  have hnew : (newId : BrokerM σ MessageId).Keeps HaveHistories := fun _ h => h
  refine hnew.bind fun id => ?_
  exact (publish_keeps_histories (copy id)).discard.bind fun _ => release_keeps_histories q m

/-! ### Requests -/

theorem acknowledge_keeps_histories (name : String) (message : MessageId) :
    (acknowledge name message : BrokerM σ Unit).Keeps HaveHistories := by
  refine requireQueue_keeps_histories fun b h id q hq => ?_
  dsimp only
  split
  · exact h
  · next r q' hacknowledge =>
      have hcount : (count fun c => { c with acknowledged := c.acknowledged + 1 } :
          BrokerM σ Unit).Keeps HaveHistories := fun _ h => h
      rw [perform_bind_ok _ (perform_setQueue ..)]
      exact (hcount.bind fun _ => release_keeps_histories _ _) _
        (h.setQueue id (hq.acknowledge hacknowledge))

theorem cancelDelivery_keeps_histories (name : String) (message : MessageId) :
    (cancelDelivery name message : BrokerM σ CancelOutcome).Keeps HaveHistories := by
  refine requireQueue_keeps_histories fun b h id q hq => ?_
  dsimp only
  split
  · exact h
  · next outcome q' hcancel =>
      have hset := h.setQueue id (hq.cancel hcancel)
      rw [perform_bind_ok _ (perform_setQueue ..)]
      cases outcome with
      | redelivered n => exact hset
      | deadLetter r target =>
          have hcount : (count fun c => { c with deadLettered := c.deadLettered + 1 } :
              BrokerM σ Unit).Keeps HaveHistories := fun _ h => h
          refine (hcount.bind fun _ => ?_) _ hset
          cases target with
          | none => exact (release_keeps_histories _ _).bind fun _ => .pure _
          | some target =>
              have hforward : (newId >>= fun id => discard (publish
                  (r.message.forwardedFrom q'.toQueueInfo id target)) >>= fun _ =>
                    release q'.toQueueInfo r.message : BrokerM σ Unit).Keeps HaveHistories :=
                forward_keeps_histories _ _ _
              have hboth := hforward.bind fun _ => .pure (CancelOutcome.deadLetter r (some target))
              simp only [bind_assoc] at hboth
              exact hboth

theorem dismiss_keeps_histories (q : QueueInfo) (now : Timestamp) (r : Reference) :
    (dismiss q now r : BrokerM σ Unit).Keeps HaveHistories := by
  rw [dismiss]
  split
  · exact forward_keeps_histories q r.message _
  · exact release_keeps_histories q r.message

theorem expireQueue_keeps_histories (now : Timestamp) (id : BindingId) :
    (expireQueue now id : BrokerM σ Nat).Keeps HaveHistories := by
  intro b h
  rw [expireQueue, perform_bind_ok _ (perform_get b)]
  cases hq : b.router.queues.get? id with
  | none => exact h
  | some q =>
      dsimp only
      rw [perform_bind_ok _ (perform_setQueue ..)]
      exact (Keeps.forM (dismiss_keeps_histories _ now) _).bind (fun _ => .pure _) _
        (h.setQueue id ((h id q hq).serve (.expire now)))

theorem expireMessages_keeps_histories (now : Timestamp) :
    (expireMessages now : BrokerM σ Nat).Keeps HaveHistories := by
  intro b h
  have hcount : ∀ total, (count fun c => { c with expired := c.expired + total } :
      BrokerM σ Unit).Keeps HaveHistories := fun _ _ h => h
  rw [expireMessages, perform_bind_ok _ (perform_get b)]
  exact (Keeps.mapM_mem fun id _ => expireQueue_keeps_histories now id).bind
    (fun _ => (hcount _).bind fun _ => .pure _) b h

/-- **A request to a broker makes requests to its queues.** -/
theorem act_keeps_histories (r : BrokerRequest) :
    (r.act : BrokerM σ Unit).Keeps HaveHistories := by
  cases r with
  | createQueue c =>
      refine Keeps.discard fun b h => ?_
      rcases perform_createQueue b c with
        ⟨e, hperform⟩ | ⟨info, filter, bd, router, -, -, hbind, hperform⟩
      · rw [hperform]
        exact h
      · rw [hperform]
        exact Router.HaveHistories.bindQueue? h hbind
  | deleteQueue name =>
      intro b h
      rcases perform_deleteQueue b name with hperform | ⟨id, q, -, hperform⟩
      · rw [BrokerRequest.act, hperform]
        exact h
      · have hwithdrawn : (b.withdrawn name id).HaveHistories := by
          intro other found hfound
          rw [Broker.withdrawn, Router.queues_unbind, Dictionary.get?_erase] at hfound
          split at hfound
          · cases hfound
          · exact h other found hfound
        rw [BrokerRequest.act, hperform]
        exact Keeps.forM (fun r : Reference => release_keeps_histories _ r.message) _ _ hwithdrawn
  | createDivert c =>
      refine Keeps.discard fun b h => ?_
      rcases perform_createDivert b c with
        ⟨e, hperform⟩ | ⟨divert, filter, bd, router, -, hbind, hperform⟩
      · rw [hperform]
        exact h
      · rw [hperform]
        exact Router.HaveHistories.of_queues_eq h (Router.queues_bindDivert? hbind)
  | destroyDivert name =>
      intro b h
      rcases perform_destroyDivert b name with ⟨e, hperform⟩ | ⟨-, hperform⟩
      · rw [BrokerRequest.act, hperform]
        exact h
      · rw [BrokerRequest.act, hperform]
        exact Router.HaveHistories.of_queues_eq h (Router.queues_unbind ..)
  | publish m => exact (publish_keeps_histories m).discard
  | receive name now => exact (receive_keeps_histories name now).discard
  | acknowledge name message => exact acknowledge_keeps_histories name message
  | cancelDelivery name message => exact (cancelDelivery_keeps_histories name message).discard
  | expireMessages now => exact (expireMessages_keeps_histories now).discard

theorem recover_keeps_histories : (recover : BrokerM σ Nat).Keeps HaveHistories := by
  have hmessage : ∀ m, (recoverMessage m : BrokerM σ Bool).Keeps HaveHistories := by
    intro m b h
    have hremove : (callStore (MessageStore.remove · m.id) : BrokerM σ Unit).Keeps
        HaveHistories := by
      intro b h
      have hstore : StoreOnly Regime.trivial (fun _ => True)
          (callStore (MessageStore.remove · m.id) : BrokerM σ Unit) := callRemove_storeOnly m.id
      obtain ⟨result, counts, store, hperform, -⟩ := hstore b
      rw [hperform]
      exact h
    rw [recoverMessage, perform_bind_ok _ (perform_get b)]
    dsimp only
    split
    · exact hremove.bind (fun _ => .pure _) b h
    · exact (commit_keeps_histories _).discard.bind (fun _ => .pure _) b h
  intro b h
  rw [recover, perform_bind_ok _ (perform_get b)]
  cases MessageStore.load b.store with
  | error reason => exact h
  | ok messages =>
      exact (Keeps.mapM_mem fun m _ => hmessage m).bind (fun _ => .pure _) b h

/-! ### The whole life -/

variable {first : σ → Prop} {alters : σ → σ → Prop} {published : List Message} {b : Broker σ}

/-- **Every queue of a broker came about by requests to a queue**, in every state that the broker
comes to. -/
theorem Reachable.histories (h : Reachable first alters published b) :
    ∀ id q, b.router.queues.get? id = some q → q.HasHistory := by
  induction h with
  | deployed _ deployed => exact histories_of_deploy deployed
  | served r _ ih => exact act_keeps_histories r _ ih
  | recovered _ ih => exact recover_keeps_histories _ ih
  | furnished entry _ ih =>
      rw [addSettings, perform_bind_ok _ (perform_get _)]
      split <;> exact ih
  | altered _ _ ih => exact ih
  | restarted _ deployed _ => exact histories_of_deploy deployed

end Broker

end Courier
