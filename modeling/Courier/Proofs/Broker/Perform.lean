import Courier.Broker.Delivery
import Courier.Proofs.Router

/-!
# What a Broker's Actions Leave Alone

The parts of an action are performed one after another, each in the state that the one before
left, up to the first failure. Deliveries of all kinds leave the bindings of a broker alone, and
the supply of identifiers only moves forward.

## Main results

* `Broker.perform_bind` and its siblings: how actions are performed.
* `Broker.Extends`: the bindings are the same, and the supply has moved forward.
* `BrokerM.Steady`: an action that leaves every broker with the same bindings, with the closure
  of such actions under `bind`, `forM` and `mapM`.
* `Broker.publish_steady` and its siblings: the requests that deliver are steady.
-/

namespace Courier

namespace Broker

variable {σ α β : Type}

/-! ### Performing actions -/

@[simp] theorem perform_pure (b : Broker σ) (a : α) : b.perform (pure a) = (.ok a, b) := rfl

@[simp] theorem perform_throw (b : Broker σ) (e : BrokerError) :
    b.perform (throw e : BrokerM σ α) = (.error e, b) := rfl

@[simp] theorem perform_get (b : Broker σ) : b.perform get = (.ok b, b) := rfl

@[simp] theorem perform_set (b b' : Broker σ) :
    b.perform (set b' : BrokerM σ PUnit) = (.ok ⟨⟩, b') := rfl

/-- The second action is performed in the state that the first one left, unless that failed. -/
theorem perform_bind (b : Broker σ) (act : BrokerM σ α) (next : α → BrokerM σ β) :
    b.perform (act >>= next) =
      match b.perform act with
      | (.ok a, b') => b'.perform (next a)
      | (.error e, b') => (.error e, b') := by
  change (ExceptT.bindCont next (act.run.run b).1).run (act.run.run b).2 = _
  rw [perform]
  rcases act.run.run b with ⟨_ | a, b'⟩ <;> rfl

theorem perform_bind_ok {b b' : Broker σ} {act : BrokerM σ α} {a : α} (next : α → BrokerM σ β)
    (h : b.perform act = (.ok a, b')) : b.perform (act >>= next) = b'.perform (next a) := by
  rw [perform_bind, h]

theorem perform_bind_error {b b' : Broker σ} {act : BrokerM σ α} {e : BrokerError}
    (next : α → BrokerM σ β) (h : b.perform act = (.error e, b')) :
    b.perform (act >>= next) = (.error e, b') := by
  rw [perform_bind, h]

/-- Both actions succeeded if they did in turn. -/
theorem exists_of_perform_bind {b b' : Broker σ} {act : BrokerM σ α} {next : α → BrokerM σ β}
    {result : β} (h : b.perform (act >>= next) = (.ok result, b')) :
    ∃ a b₁, b.perform act = (.ok a, b₁) ∧ b₁.perform (next a) = (.ok result, b') := by
  rw [perform_bind] at h
  split at h
  · next a b₁ hact => exact ⟨a, b₁, hact, h⟩
  · cases h

/-- The action succeeded for the first item and then for the others if it did for all. -/
theorem exists_of_perform_mapM_cons {b b' : Broker σ} {act : α → BrokerM σ β} {a : α}
    {items : List α} {results : List β}
    (h : b.perform ((a :: items).mapM act) = (.ok results, b')) :
    ∃ first rest b₁, results = first :: rest ∧ b.perform (act a) = (.ok first, b₁) ∧
      b₁.perform (items.mapM act) = (.ok rest, b') := by
  rw [List.mapM_cons] at h
  obtain ⟨first, b₁, hfirst, h⟩ := exists_of_perform_bind h
  obtain ⟨rest, b₂, hrest, h⟩ := exists_of_perform_bind h
  cases h
  exact ⟨first, rest, b₁, rfl, hfirst, hrest⟩

theorem perform_discard (b : Broker σ) (act : BrokerM σ α) :
    b.perform (discard act) = ((b.perform act).1.map fun _ => (), (b.perform act).2) := by
  change b.perform (act >>= fun _ => pure ()) = _
  rw [perform_bind]
  rcases b.perform act with ⟨_ | a, b'⟩ <;> rfl

@[simp] theorem perform_newId (b : Broker σ) :
    b.perform newId = (.ok b.ids.next, { b with ids := b.ids.advance }) := rfl

@[simp] theorem perform_count (b : Broker σ) (change : BrokerCounters → BrokerCounters) :
    b.perform (count change) = (.ok (), { b with counters := change b.counters }) := rfl

@[simp] theorem perform_plan (b : Broker σ) (m : Message) :
    b.perform (plan m) =
      (.ok (b.router.plan b.ids m m.address).1,
        { b with ids := (b.router.plan b.ids m m.address).2 }) := rfl

@[simp] theorem perform_setQueue (b : Broker σ) (id : BindingId) (q : Queue) :
    b.perform (setQueue id q) =
      (.ok (), { b with router := { b.router with queues := b.router.queues.insert id q } }) := rfl

theorem perform_tryStore (b : Broker σ) (call : σ → Except String α × σ) :
    b.perform (tryStore call) = (.ok (call b.store).1, { b with store := (call b.store).2 }) := rfl

/-- A queue that is required is there, or the request fails without an effect. -/
theorem perform_requireQueue (b : Broker σ) (name : String) :
    b.perform (requireQueue name) =
      ((b.queue? name).elim (.error (.queueNotFound name)) .ok, b) := by
  rw [requireQueue, perform_bind, perform_get]
  dsimp only
  cases b.queue? name <;> rfl

theorem queue?_eq_some_iff {b : Broker σ} {name : String} {id : BindingId} {q : Queue} :
    b.queue? name = some (id, q) ↔
      b.queueIds.get? name = some id ∧ b.router.queues.get? id = some q := by
  simp [queue?, Option.bind_eq_some_iff]

/-- A request to a queue fails without an effect, or goes on with the queue. -/
theorem perform_requireQueue_bind (b : Broker σ) (name : String)
    (next : BindingId × Queue → BrokerM σ α) :
    b.perform (requireQueue name >>= next) = (.error (.queueNotFound name), b) ∨
      ∃ id q, b.queueIds.get? name = some id ∧ b.router.queues.get? id = some q ∧
        b.perform (requireQueue name >>= next) = b.perform (next (id, q)) := by
  rw [perform_bind, perform_requireQueue]
  cases hfound : b.queue? name with
  | none => exact .inl rfl
  | some found =>
      obtain ⟨hid, hq⟩ := queue?_eq_some_iff.mp hfound
      exact .inr ⟨found.1, found.2, hid, hq, rfl⟩

/-! ### The bindings stay -/

/-- The bindings of two states are the same, and the supply has moved forward. -/
structure Extends (b b' : Broker σ) : Prop where
  registry_eq : b'.router.registry = b.router.registry
  hops_eq : b'.router.maxDivertHops = b.router.maxDivertHops
  queueIds_eq : b'.queueIds = b.queueIds
  diverts_eq : b'.diverts = b.diverts
  supply_eq : b'.ids.id = b.ids.id
  used_le : b.ids.used ≤ b'.ids.used

theorem Extends.refl (b : Broker σ) : Extends b b := ⟨rfl, rfl, rfl, rfl, rfl, Nat.le_refl _⟩

theorem Extends.trans {b b' b'' : Broker σ} (h : Extends b b') (h' : Extends b' b'') :
    Extends b b'' :=
  ⟨h'.registry_eq.trans h.registry_eq, h'.hops_eq.trans h.hops_eq,
    h'.queueIds_eq.trans h.queueIds_eq, h'.diverts_eq.trans h.diverts_eq,
    h'.supply_eq.trans h.supply_eq, Nat.le_trans h.used_le h'.used_le⟩

end Broker

/-! ### Steady actions -/

namespace BrokerM

open Broker

variable {σ α β : Type}

/-- The action leaves every broker with the same bindings. -/
def Steady (act : BrokerM σ α) : Prop :=
  ∀ b : Broker σ, b.Extends (b.perform act).2

theorem Steady.pure (a : α) : (Pure.pure a : BrokerM σ α).Steady := fun b => .refl b

theorem Steady.throw (e : BrokerError) : (MonadExcept.throw e : BrokerM σ α).Steady :=
  fun b => .refl b

theorem Steady.bind {act : BrokerM σ α} {next : α → BrokerM σ β} (h : act.Steady)
    (hnext : ∀ a, (next a).Steady) : (act >>= next).Steady := by
  intro b
  have hact := h b
  rw [perform_bind]
  generalize b.perform act = result at hact ⊢
  obtain ⟨e | a, b'⟩ := result
  · exact hact
  · exact hact.trans (hnext a b')

/-- An action that first asks for the state. -/
theorem Steady.get_bind {next : Broker σ → BrokerM σ β}
    (h : ∀ b : Broker σ, b.Extends (b.perform (next b)).2) :
    ((get : BrokerM σ (Broker σ)) >>= next).Steady := h

theorem Steady.discard {act : BrokerM σ α} (h : act.Steady) :
    (Functor.discard act : BrokerM σ PUnit).Steady := by
  intro b
  rw [perform_discard]
  exact h b

theorem Steady.forM {act : α → BrokerM σ PUnit} (h : ∀ a, (act a).Steady) (items : List α) :
    (items.forM act).Steady := by
  induction items with
  | nil => exact .pure _
  | cons a items ih => exact (h a).bind fun _ => ih

theorem Steady.mapM {act : α → BrokerM σ β} (h : ∀ a, (act a).Steady) (items : List α) :
    (items.mapM act).Steady := by
  induction items with
  | nil => exact .pure _
  | cons a items ih =>
      rw [List.mapM_cons]
      exact (h a).bind fun _ => ih.bind fun _ => .pure _

end BrokerM

namespace Broker

open BrokerM

variable {σ : Type}

theorem Extends.setRouter {b : Broker σ} {router : Router}
    (hregistry : router.registry = b.router.registry)
    (hhops : router.maxDivertHops = b.router.maxDivertHops) : b.Extends { b with router } :=
  ⟨hregistry, hhops, rfl, rfl, rfl, Nat.le_refl _⟩

theorem requireQueue_steady (name : String) :
    (requireQueue name : BrokerM σ (BindingId × Queue)).Steady := by
  intro b
  rw [perform_requireQueue]
  exact .refl b

theorem setQueue_steady (id : BindingId) (q : Queue) :
    (setQueue id q : BrokerM σ Unit).Steady :=
  fun _ => .setRouter rfl rfl

theorem count_steady (change : BrokerCounters → BrokerCounters) :
    (count change : BrokerM σ Unit).Steady :=
  fun _ => ⟨rfl, rfl, rfl, rfl, rfl, Nat.le_refl _⟩

theorem newId_steady : (newId : BrokerM σ MessageId).Steady :=
  fun _ => ⟨rfl, rfl, rfl, rfl, rfl, Nat.le_succ _⟩

theorem tryStore_steady (call : σ → Except String Unit × σ) :
    (tryStore call : BrokerM σ (Except String Unit)).Steady :=
  fun _ => ⟨rfl, rfl, rfl, rfl, rfl, Nat.le_refl _⟩

theorem callStore_steady (call : σ → Except String Unit × σ) :
    (callStore call : BrokerM σ Unit).Steady := by
  refine (tryStore_steady call).bind fun result => ?_
  cases result with
  | ok a => exact .pure a
  | error reason => exact .throw _

theorem plan_steady (m : Message) : (plan m : BrokerM σ RoutePlan).Steady := by
  intro b
  obtain ⟨-, -, -, hid, hused, -⟩ :=
    b.router.registry.plan_explains b.router.maxDivertHops b.ids m
  exact ⟨rfl, rfl, rfl, rfl, hid, hused⟩

theorem receive_steady (name : String) (now : Timestamp) :
    (receive name now : BrokerM σ (Option Reference)).Steady := by
  refine (requireQueue_steady name).bind fun found => ?_
  exact (setQueue_steady _ _).bind fun _ => .pure _

variable [MessageStore σ]

theorem releaseId_steady (id : MessageId) : (releaseId id : BrokerM σ Unit).Steady := by
  refine Steady.get_bind fun b => ?_
  split
  · exact .refl b
  · split
    · exact ⟨rfl, rfl, rfl, rfl, rfl, Nat.le_refl _⟩
    · have hset : b.Extends { b with durableCounts := b.durableCounts.erase id } :=
        ⟨rfl, rfl, rfl, rfl, rfl, Nat.le_refl _⟩
      rw [perform_bind_ok _ (perform_set ..)]
      exact hset.trans (callStore_steady _ _)

theorem release_steady (q : QueueInfo) (m : Message) :
    (release q m : BrokerM σ Unit).Steady := by
  rw [release]
  split
  · exact releaseId_steady m.id
  · exact .pure _

theorem persist_steady (written : List MessageId) (messages : List Message) :
    (persist written messages : BrokerM σ Unit).Steady := by
  induction messages generalizing written with
  | nil => exact .pure _
  | cons m messages ih =>
      rw [persist]
      refine (tryStore_steady _).bind fun result => ?_
      cases result with
      | ok a => exact ih _
      | error reason =>
          exact (Steady.forM (fun id => (tryStore_steady _).discard) written).bind
            fun _ => .throw _

/-- What was stored before is not stored again. -/
theorem persistPlan_of_replay {plan : RoutePlan} (h : plan.replay = true) :
    (persistPlan plan : BrokerM σ Unit) = pure () := by
  rw [persistPlan, h]
  rfl

/-- The messages of a new plan are stored in the order that the broker has for them. -/
theorem perform_persistPlan_of_new (b : Broker σ) {plan : RoutePlan} (h : plan.replay = false) :
    b.perform (persistPlan plan) = b.perform (persist [] (b.toPersist plan)) := by
  rw [persistPlan, h]
  rfl

theorem persistPlan_steady (plan : RoutePlan) : (persistPlan plan : BrokerM σ Unit).Steady := by
  intro b
  cases h : plan.replay with
  | true =>
      rw [persistPlan_of_replay h]
      exact .refl b
  | false =>
      rw [perform_persistPlan_of_new b h]
      exact persist_steady _ _ b

omit [MessageStore σ] in
/-- Each message that the store keeps for a plan is stored once. -/
theorem toPersist_perm (b : Broker σ) (plan : RoutePlan) :
    (b.toPersist plan).Perm (Message.distinct plan.kept) :=
  b.walks.messages.perm _ _

theorem deliverAll_frame (r : Router) (deliveries : List Delivery) :
    (r.deliverAll deliveries).2.registry = r.registry ∧
      (r.deliverAll deliveries).2.maxDivertHops = r.maxDivertHops := by
  induction deliveries generalizing r with
  | nil => exact ⟨rfl, rfl⟩
  | cons d deliveries ih =>
      have hfirst : (r.deliver d).2.registry = r.registry ∧
          (r.deliver d).2.maxDivertHops = r.maxDivertHops := by
        rw [Router.deliver]
        split <;> exact ⟨rfl, rfl⟩
      have hrest := ih (r.deliver d).2
      exact ⟨hrest.1.trans hfirst.1, hrest.2.trans hfirst.2⟩

/-- Carrying out a plan is delivering, apart from the counters. -/
theorem commit_router (r : Router) (plan : RoutePlan) :
    ∃ counters, r.commit plan =
      ((r.deliverAll plan.deliveries).1, { (r.deliverAll plan.deliveries).2 with counters }) := by
  rw [Router.commit]
  cases plan.replay <;> exact ⟨_, rfl⟩

/-- What queues replaced is let go of, one identifier after another. -/
theorem forM_replaced (references : List RoutedReference) :
    (references.forM fun r =>
        match r.outcome with
        | .replaced previous => if r.queue.durable then releaseId previous else pure ()
        | .added => pure () : BrokerM σ Unit) =
      (references.flatMap RoutedReference.releasedIds).forM releaseId := by
  induction references with
  | nil => rfl
  | cons r references ih =>
      simp only [List.forM_eq_forM, List.forM_cons] at ih ⊢
      rw [ih, List.flatMap_cons, List.forM_append, RoutedReference.releasedIds]
      congr 1
      cases hout : r.outcome <;> cases hdurable : r.queue.durable <;>
        simp [AddOutcome.replacedIds]

/-- A plan is stored unless it was stored before; then it is carried out, and what queues
replaced is let go of. -/
theorem commit_eq (plan : RoutePlan) :
    (commit plan : BrokerM σ (List RoutedReference)) =
      persistPlan plan >>= fun _ =>
        get >>= fun b =>
          set { b with
            router := (b.router.commit plan).2
            durableCounts := plan.kept.foldl addReference b.durableCounts } >>= fun _ =>
            ((b.router.commit plan).1.flatMap RoutedReference.releasedIds).forM releaseId
              >>= fun _ => pure (b.router.commit plan).1 := by
  simp only [← forM_replaced]
  rfl

theorem commit_steady (plan : RoutePlan) :
    (commit plan : BrokerM σ (List RoutedReference)).Steady := by
  rw [commit_eq]
  refine (persistPlan_steady plan).bind fun _ => Steady.get_bind fun b => ?_
  obtain ⟨counters, hcommit⟩ := commit_router b.router plan
  obtain ⟨hregistry, hhops⟩ := deliverAll_frame b.router plan.deliveries
  have hset : b.Extends { b with
      router := (b.router.commit plan).2
      durableCounts := plan.kept.foldl addReference b.durableCounts } := by
    rw [hcommit]
    exact ⟨hregistry, hhops, rfl, rfl, rfl, Nat.le_refl _⟩
  rw [perform_bind_ok _ (perform_set ..)]
  exact hset.trans ((Steady.forM releaseId_steady _).bind (fun _ => .pure _) _)

/-- The state in which the plan for a message is stored and carried out. -/
def planned (b : Broker σ) (m : Message) : Broker σ :=
  { b with
    counters := { b.counters with published := b.counters.published + 1 }
    ids := (b.router.plan b.ids m m.address).2 }

/-- A message is published by carrying out its plan. -/
theorem perform_publish (b : Broker σ) (m : Message) :
    b.perform (publish m) =
      (b.planned m).perform (commit (b.router.plan b.ids m m.address).1) := by
  rw [publish, perform_bind_ok _ (perform_count ..), perform_bind_ok _ (perform_plan ..)]
  rfl

theorem publish_steady (m : Message) :
    (publish m : BrokerM σ (List RoutedReference)).Steady :=
  (count_steady _).bind fun _ => (plan_steady m).bind fun plan => commit_steady plan

theorem acknowledge_steady (name : String) (message : MessageId) :
    (acknowledge name message : BrokerM σ Unit).Steady := by
  refine (requireQueue_steady name).bind fun (id, q) => ?_
  dsimp only
  split
  · exact .throw _
  · exact (setQueue_steady _ _).bind fun _ => (count_steady _).bind fun _ => release_steady _ _

theorem cancelDelivery_steady (name : String) (message : MessageId) :
    (cancelDelivery name message : BrokerM σ CancelOutcome).Steady := by
  refine (requireQueue_steady name).bind fun (id, q) => ?_
  dsimp only
  split
  · exact .throw _
  · refine (setQueue_steady _ _).bind fun _ => ?_
    split
    · exact .pure _
    · refine (count_steady _).bind fun _ => ?_
      split
      · refine newId_steady.bind fun id => (publish_steady _).discard.bind fun _ => ?_
        exact (release_steady _ _).bind fun _ => .pure _
      · exact (release_steady _ _).bind fun _ => .pure _

theorem dismiss_steady (q : QueueInfo) (now : Timestamp) (r : Reference) :
    (dismiss q now r : BrokerM σ Unit).Steady := by
  rw [dismiss]
  split
  · exact newId_steady.bind fun id => (publish_steady _).discard.bind fun _ => release_steady _ _
  · exact release_steady _ _

theorem expireQueue_steady (now : Timestamp) (id : BindingId) :
    (expireQueue now id : BrokerM σ Nat).Steady := by
  refine Steady.get_bind fun b => ?_
  split
  · exact .refl b
  · refine ((setQueue_steady _ _).bind fun _ => ?_) b
    exact (Steady.forM (fun r => dismiss_steady _ now r) _).bind fun _ => .pure _

theorem expireMessages_steady (now : Timestamp) :
    (expireMessages now : BrokerM σ Nat).Steady := by
  refine Steady.get_bind fun b => ?_
  refine ((Steady.mapM (expireQueue_steady now) _).bind fun numbers => ?_) b
  exact (count_steady _).bind fun _ => .pure _

end Broker

end Courier
