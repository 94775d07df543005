import Courier.Proofs.Broker.Books

/-!
# Actions That Settle the Books

An action may be handed messages that queues let go of, to be taken out of the books. It settles
them if the books are right again afterwards, and it fails only if the store does; after a
failure some messages may stay owed. Such actions can be performed one after another.

## Main definitions

* `Broker.Settled`: the books after an action.
* `BrokerM.SettlesAt`, `BrokerM.Settles`: an action that settles what it is handed, in one state
  or in all.
* `BrokerM.BalancesAt`: a request that leaves the books right, whatever its result.
* `BrokerM.MayOweAt`: a request that does so unless the store fails.

## Main results

* `BrokerM.Settles.bind`, `BrokerM.Settles.forM`, `BrokerM.Settles.mapM`.
* `Broker.receive_balancesAt` and its siblings: the requests that deliver leave the books right.
-/

namespace Courier

/-- The predicate on queues and messages holds of new messages that bindings accept. -/
def Broker.Approves (good : BindingId → Message → Prop) (pool : List Message)
    (b : Broker MessageLog) : Prop :=
  ∀ id m, b.router.registry.Accepts id m → m.id ∉ pool.map Message.id → good id m

/-- The books after an action: the pool has grown by what was published and by copies with the
next identifiers of the supply. -/
structure Broker.Settled (good : BindingId → Message → Prop) (turns : Nat) (prior : Leftovers)
    (news : List MessageId) (b : Broker MessageLog) (pool : List Message) (b' : Broker MessageLog)
    (pool' owed' : List Message) : Prop where
  books : ∃ appended, Books good turns prior pool' owed' appended b'
  subset : ∀ m ∈ pool, m ∈ pool'
  names : (pool'.map Message.id ++ b'.ids.handedOut turns).Perm
    (news ++ (pool.map Message.id ++ b.ids.handedOut turns))

theorem Broker.Approves.mono {good : BindingId → Message → Prop} {pool pool' : List Message}
    {b b' : Broker MessageLog} (h : b.Approves good pool) (hb : b.Extends b')
    (hpool : ∀ m ∈ pool, m ∈ pool') : b'.Approves good pool' := by
  intro id m haccepts hnew
  rw [hb.registry_eq] at haccepts
  refine h id m haccepts fun hmem => hnew ?_
  obtain ⟨m', hm', hid⟩ := List.mem_map.mp hmem
  exact hid ▸ List.mem_map_of_mem (hpool m' hm')

theorem Broker.Settled.trans {good : BindingId → Message → Prop} {turns : Nat} {prior : Leftovers}
    {news news' : List MessageId} {b b' b'' : Broker MessageLog}
    {pool pool' pool'' owed' owed'' : List Message}
    (h : b.Settled good turns prior news pool b' pool' owed')
    (h' : b'.Settled good turns prior news' pool' b'' pool'' owed'') :
    b.Settled good turns prior (news ++ news') pool b'' pool'' owed'' := by
  refine ⟨h'.books, fun m hm => h'.subset m (h.subset m hm), ?_⟩
  refine (h'.names.trans (h.names.append_left news')).trans ?_
  rw [List.append_assoc]
  exact List.perm_append_comm_assoc ..

namespace BrokerM

open Broker

variable {good : BindingId → Message → Prop} {turns : Nat} {prior : Leftovers}
  {known due : List Message} {α β : Type}

/-- An action that takes messages out of the books, which are owed before it. Some messages have
to be known, that is, to be in the pool. -/
def SettlesAt (good : BindingId → Message → Prop) (turns : Nat) (prior : Leftovers)
    (known due : List Message) (b : Broker MessageLog) (act : BrokerM MessageLog α) : Prop :=
  ∀ pool owed appended : List Message,
    Books good turns prior pool (due ++ owed) appended b → (∀ m ∈ known, m ∈ pool) →
    b.Approves good pool → (b.perform act).2.ids.used ≤ turns →
    ∃ pool' owed', b.Settled good turns prior [] pool (b.perform act).2 pool' owed' ∧
      (((∃ a, (b.perform act).1 = .ok a) ∧ owed' = owed) ∨
        ∃ reason, (b.perform act).1 = .error (.storage reason))

/-- A steady action that takes messages out of the books of every broker. -/
structure Settles (good : BindingId → Message → Prop) (turns : Nat) (prior : Leftovers)
    (known due : List Message) (act : BrokerM MessageLog α) : Prop where
  steady : act.Steady
  settlesAt : ∀ b : Broker MessageLog, SettlesAt good turns prior known due b act

/-- A request that leaves the books right, whatever its result. -/
def BalancesAt (good : BindingId → Message → Prop) (turns : Nat) (prior : Leftovers)
    (b : Broker MessageLog) (act : BrokerM MessageLog α) : Prop :=
  ∀ pool owed appended : List Message,
    Books good turns prior pool owed appended b → b.Approves good pool →
    (b.perform act).2.ids.used ≤ turns →
    ∃ pool', b.Settled good turns prior [] pool (b.perform act).2 pool' owed

/-- A request that leaves the books right unless the store fails, which may leave messages
owed. -/
def MayOweAt (good : BindingId → Message → Prop) (turns : Nat) (prior : Leftovers)
    (b : Broker MessageLog) (act : BrokerM MessageLog α) : Prop :=
  ∀ pool owed appended : List Message,
    Books good turns prior pool owed appended b → b.Approves good pool →
    (b.perform act).2.ids.used ≤ turns →
    ∃ pool' owed', b.Settled good turns prior [] pool (b.perform act).2 pool' owed' ∧
      (owed' = owed ∨ ∃ reason, (b.perform act).1 = .error (.storage reason))

theorem SettlesAt.mayOweAt {b : Broker MessageLog} {act : BrokerM MessageLog α}
    (h : SettlesAt good turns prior [] [] b act) : MayOweAt good turns prior b act := by
  intro pool owed appended hbooks hgood hturns
  obtain ⟨pool', owed', hsettled, hresult⟩ :=
    h pool owed appended hbooks (fun _ hm => absurd hm List.not_mem_nil) hgood hturns
  exact ⟨pool', owed', hsettled, hresult.imp_left And.right⟩

theorem MayOweAt.balancesAt {b : Broker MessageLog} {act : BrokerM MessageLog α}
    (h : MayOweAt good turns prior b act)
    (hstore : ∀ reason, (b.perform act).1 ≠ .error (.storage reason)) :
    BalancesAt good turns prior b act := by
  intro pool owed appended hbooks hgood hturns
  obtain ⟨pool', owed', hsettled, rfl | ⟨reason, hreason⟩⟩ :=
    h pool owed appended hbooks hgood hturns
  · exact ⟨pool', hsettled⟩
  · exact absurd hreason (hstore reason)

theorem BalancesAt.mayOweAt {b : Broker MessageLog} {act : BrokerM MessageLog α}
    (h : BalancesAt good turns prior b act) : MayOweAt good turns prior b act := by
  intro pool owed appended hbooks hgood hturns
  obtain ⟨pool', hsettled⟩ := h pool owed appended hbooks hgood hturns
  exact ⟨pool', owed, hsettled, .inl rfl⟩

theorem BalancesAt.discard {b : Broker MessageLog} {act : BrokerM MessageLog α}
    (h : BalancesAt good turns prior b act) :
    BalancesAt good turns prior b (Functor.discard act : BrokerM MessageLog PUnit) := by
  rw [BalancesAt, perform_discard]
  exact h

theorem MayOweAt.discard {b : Broker MessageLog} {act : BrokerM MessageLog α}
    (h : MayOweAt good turns prior b act) :
    MayOweAt good turns prior b (Functor.discard act : BrokerM MessageLog PUnit) := by
  rw [MayOweAt, perform_discard]
  intro pool owed appended hbooks hgood hturns
  obtain ⟨pool', owed', hsettled, hresult⟩ := h pool owed appended hbooks hgood hturns
  refine ⟨pool', owed', hsettled, hresult.imp_right ?_⟩
  rintro ⟨reason, hreason⟩
  exact ⟨reason, by rw [hreason]; rfl⟩

/-! ### One action after another -/

theorem Settles.pure (a : α) : Settles good turns prior known [] (Pure.pure a) :=
  ⟨.pure a, fun _ pool owed appended hbooks _ _ _ =>
    ⟨pool, owed, ⟨⟨appended, hbooks⟩, fun _ hm => hm, .refl _⟩, .inl ⟨⟨a, rfl⟩, rfl⟩⟩⟩

theorem Settles.bind {due' : List Message} {act : BrokerM MessageLog α}
    {next : α → BrokerM MessageLog β} (h : Settles good turns prior known due act)
    (h' : ∀ a, Settles good turns prior known due' (next a)) :
    Settles good turns prior known (due ++ due') (act >>= next) := by
  refine ⟨h.steady.bind fun a => (h' a).steady, ?_⟩
  intro b pool owed appended hbooks hknown hgood hturns
  rw [List.append_assoc] at hbooks
  have hfirst := h.settlesAt b pool (due' ++ owed) appended hbooks hknown hgood
  have hextends := h.steady b
  rw [perform_bind] at hturns ⊢
  generalize b.perform act = result at hfirst hextends hturns ⊢
  obtain ⟨e | a, b'⟩ := result
  · obtain ⟨pool', owed', hsettled, ⟨⟨a, ha⟩, -⟩ | ⟨reason, hreason⟩⟩ := hfirst hturns
    · cases ha
    · cases hreason
      exact ⟨pool', owed', hsettled, .inr ⟨reason, rfl⟩⟩
  · have hmore := ((h' a).steady b').used_le
    obtain ⟨pool', owed', hsettled, ⟨-, rfl⟩ | ⟨reason, hreason⟩⟩ :=
      hfirst (Nat.le_trans hmore hturns)
    · obtain ⟨appended', hbooks'⟩ := hsettled.books
      obtain ⟨pool'', owed'', hsettled', hresult⟩ := (h' a).settlesAt b' pool' owed appended'
        hbooks' (fun m hm => hsettled.subset m (hknown m hm))
        (hgood.mono hextends hsettled.subset) hturns
      exact ⟨pool'', owed'', hsettled.trans hsettled', hresult⟩
    · cases hreason

/-- An action with a result of its own. -/
theorem Settles.bind_pure {act : BrokerM MessageLog α} (h : Settles good turns prior known due act)
    (f : α → β) : Settles good turns prior known due (act >>= fun a => Pure.pure (f a)) := by
  have hboth := h.bind fun a => .pure (f a)
  rwa [List.append_nil] at hboth

/-- Items are treated one after another, each with its own share of what is owed. -/
theorem Settles.forM {share : α → List Message} {act : α → BrokerM MessageLog PUnit}
    (items : List α) (h : ∀ a ∈ items, Settles good turns prior known (share a) (act a)) :
    Settles good turns prior known (items.flatMap share) (items.forM act) := by
  induction items with
  | nil => exact .pure _
  | cons a items ih => exact (h a (.head _)).bind fun _ => ih fun a ha => h a (.tail _ ha)

theorem Settles.mapM {act : α → BrokerM MessageLog β} (items : List α)
    (h : ∀ a, Settles good turns prior known [] (act a)) :
    Settles good turns prior known [] (items.mapM act) := by
  induction items with
  | nil => exact .pure _
  | cons a items ih =>
      rw [List.mapM_cons]
      exact (h a).bind fun b => ih.bind_pure (b :: ·)

end BrokerM

namespace Broker

open BrokerM

variable {good : BindingId → Message → Prop} {turns : Nat} {prior : Leftovers}
  {known : List Message}

/-! ### Releasing and publishing copies -/

/-- The part of some messages that the store keeps for a queue. -/
abbrev keptShare (q : QueueInfo) (messages : List Message) : List Message :=
  messages.filter q.keeps

theorem flatMap_keptShare (q : QueueInfo) (references : List Reference) :
    references.flatMap (fun r => keptShare q [r.message]) =
      keptShare q (references.map Reference.message) := by
  induction references with
  | nil => rfl
  | cons r references ih =>
      rw [List.flatMap_cons, ih, ← List.filter_append]
      rfl

theorem release_settles (q : QueueInfo) (m : Message) :
    Settles good turns prior known (keptShare q [m]) (release q m) := by
  refine ⟨release_steady q m, ?_⟩
  intro b pool owed appended hbooks _ _ _
  rw [release]
  split
  · next hkeeps =>
      rw [keptShare, List.filter_cons_of_pos hkeeps, List.filter_nil] at hbooks
      obtain ⟨counts, store, hperform, hafter⟩ := hbooks.releaseId
      rw [hperform]
      exact ⟨pool, owed, ⟨⟨appended, hafter⟩, fun _ hm => hm, .refl _⟩, .inl ⟨⟨_, rfl⟩, rfl⟩⟩
  · next hkeeps =>
      rw [keptShare, List.filter_cons_of_neg hkeeps, List.filter_nil] at hbooks
      exact ⟨pool, owed, ⟨⟨appended, hbooks⟩, fun _ hm => hm, .refl _⟩, .inl ⟨⟨_, rfl⟩, rfl⟩⟩

/-- A copy of a known message is published under the next identifier. -/
theorem publishCopy_settles {copy : MessageId → Message} (hid : ∀ id, (copy id).id = id)
    (hreadable : (∀ m ∈ known, m.Readable) → ∀ id, (copy id).Readable) :
    Settles good turns prior known [] (newId >>= fun id => discard (publish (copy id))) := by
  refine ⟨newId_steady.bind fun id => (publish_steady _).discard, ?_⟩
  intro b pool owed appended hbooks hknown hgood hturns
  rw [perform_bind_ok _ (perform_newId b), perform_discard] at hturns ⊢
  have hsteady := publish_steady (copy b.ids.next) { b with ids := b.ids.advance }
  have hless : b.ids.used + 1 ≤ turns := Nat.le_trans hsteady.used_le hturns
  have hnames : ((copy b.ids.next).id ::
      (pool.map Message.id ++ b.ids.advance.handedOut turns)).Perm
        (pool.map Message.id ++ b.ids.handedOut turns) := by
    -- the identifier moves from the supply to the copy
    rw [hid, IdSupply.handedOut_eq_cons hless]
    exact List.perm_middle.symm
  have hfresh := hbooks.fresh.perm hnames
  have hadvanced := hbooks.withPool b.counters (fun _ hm => hm) hbooks.readable
    (hfresh.sublist (List.sublist_cons_self ..))
  obtain ⟨pool', appended', hafter, hsubset, hperm, hresult⟩ := hadvanced.publish
    (hreadable (fun m hm => hbooks.readable m (hknown m hm)) _) hfresh hgood hturns
  refine ⟨pool', owed, ⟨⟨appended', hafter⟩, hsubset, hperm.trans hnames⟩, ?_⟩
  rcases hresult with ⟨references, hresult⟩ | ⟨reason, hresult⟩
  · exact .inl ⟨⟨_, by rw [hresult]; rfl⟩, rfl⟩
  · exact .inr ⟨reason, by rw [hresult]; rfl⟩

theorem readable_forwardedFrom {m : Message} (h : m.Readable) (q : QueueInfo) (id : MessageId)
    (target : Address) : (m.forwardedFrom q id target).Readable :=
  (h.forwarded id target).withHeader ..

theorem readable_expiredFrom {m : Message} (h : m.Readable) (q : QueueInfo) (now : Timestamp)
    (id : MessageId) (target : Address) : (m.expiredFrom q now id target).Readable := by
  have hheader := (readable_forwardedFrom h q id target).withHeader .actualExpiry
    (.long (Int64.ofInt now.millis))
  exact ⟨hheader.priority_le, hheader.properties_made⟩

/-! ### Queues that change -/

theorem count_settles (change : BrokerCounters → BrokerCounters) :
    Settles good turns prior known [] (count change) := by
  refine ⟨count_steady change, ?_⟩
  intro b pool owed appended hbooks _ _ _
  have hafter := hbooks.withPool (change b.counters) (fun _ hm => hm) hbooks.readable hbooks.fresh
  exact ⟨pool, owed, ⟨⟨appended, hafter⟩, fun _ hm => hm, .refl _⟩, .inl ⟨⟨(), rfl⟩, rfl⟩⟩

/-- A queue changes, and then the messages that left it are settled. -/
theorem setQueue_settlesAt {α : Type} {b : Broker MessageLog} {id : BindingId} {q q' : Queue}
    {out : List Message} {rest : BrokerM MessageLog α} (hq : b.router.queues.get? id = some q)
    (hq' : q.Becomes out [] q'.order q')
    (hrest : Settles good turns prior out (keptShare q.toQueueInfo out) rest) :
    SettlesAt good turns prior [] [] b (setQueue id q' >>= fun _ => rest) := by
  intro pool owed appended hbooks _ hgood hturns
  obtain ⟨hout, hafter⟩ := hbooks.setQueue hq hq'
  rw [perform_bind_ok _ (perform_setQueue ..)] at hturns ⊢
  obtain ⟨pool', owed', hsettled, hresult⟩ :=
    hrest.settlesAt _ pool owed appended hafter hout hgood hturns
  exact ⟨pool', owed', ⟨hsettled.books, hsettled.subset, hsettled.names⟩, hresult⟩

theorem balancesAt_of_error {α : Type} {b : Broker MessageLog} {act : BrokerM MessageLog α}
    {e : BrokerError} (h : b.perform act = (.error e, b)) : BalancesAt good turns prior b act := by
  intro pool owed appended hbooks _ _
  rw [h]
  exact ⟨pool, ⟨appended, hbooks⟩, fun _ hm => hm, .refl _⟩

theorem requireQueue_balancesAt {α : Type} {b : Broker MessageLog} {name : String}
    {next : BindingId × Queue → BrokerM MessageLog α}
    (h : ∀ id q, b.router.queues.get? id = some q → BalancesAt good turns prior b (next (id, q))) :
    BalancesAt good turns prior b (requireQueue name >>= next) := by
  rcases perform_requireQueue_bind b name next with hperform | ⟨id, q, -, hq, hperform⟩
  · exact balancesAt_of_error hperform
  · rw [BalancesAt, hperform]
    exact h id q hq

theorem requireQueue_mayOweAt {α : Type} {b : Broker MessageLog} {name : String}
    {next : BindingId × Queue → BrokerM MessageLog α}
    (h : ∀ id q, b.router.queues.get? id = some q → MayOweAt good turns prior b (next (id, q))) :
    MayOweAt good turns prior b (requireQueue name >>= next) := by
  rcases perform_requireQueue_bind b name next with hperform | ⟨id, q, -, hq, hperform⟩
  · exact (balancesAt_of_error hperform).mayOweAt
  · rw [MayOweAt, hperform]
    exact h id q hq

/-! ### The requests that deliver -/

theorem receive_balancesAt {b : Broker MessageLog} {name : String} {now : Timestamp} :
    BalancesAt good turns prior b (receive name now) := by
  refine requireQueue_balancesAt fun id q hq pool owed appended hbooks _ _ => ?_
  have hafter := (hbooks.setQueue hq ((hbooks.router.queue_sound id q hq).poll now)).2
  exact ⟨pool, ⟨appended, hafter⟩, fun _ hm => hm, .refl _⟩

/-- A delivery is acknowledged, or it is not there and nothing changes. -/
theorem perform_acknowledge (b : Broker MessageLog) (name : String) (message : MessageId) :
    (∃ e, (∀ reason, e ≠ .storage reason) ∧
      b.perform (acknowledge name message) = (.error e, b)) ∨
    ∃ id q r q' counts store, b.queueIds.get? name = some id ∧
      b.router.queues.get? id = some q ∧ q.acknowledge message = .ok (r, q') ∧
      b.perform (acknowledge name message) =
        (.ok (), { b with
          router := { b.router with queues := b.router.queues.insert id q' }
          counters := { b.counters with acknowledged := b.counters.acknowledged + 1 }
          durableCounts := counts
          store }) := by
  rcases perform_requireQueue_bind b name _ with hperform | ⟨id, q, hid, hq, hperform⟩
  · exact .inl ⟨_, fun reason => BrokerError.noConfusion, hperform⟩
  · dsimp only at hperform
    cases hacknowledge : q.acknowledge message with
    | error e =>
        rw [hacknowledge] at hperform
        refine .inl ⟨e, fun reason heq => ?_, hperform⟩
        have hsame := Queue.acknowledge_eq_error hacknowledge
        rw [heq] at hsame
        cases hsame
    | ok result =>
        obtain ⟨r, q'⟩ := result
        rw [hacknowledge] at hperform
        obtain ⟨counts, store, hrelease⟩ := perform_release MessageLog.backed
          { b with
            router := { b.router with queues := b.router.queues.insert id q' }
            counters := { b.counters with acknowledged := b.counters.acknowledged + 1 } }
          q'.toQueueInfo r.message
        exact .inr ⟨id, q, r, q', counts, store, hid, hq, hacknowledge, hperform.trans hrelease⟩

theorem acknowledge_balancesAt {b : Broker MessageLog} {name : String} {message : MessageId} :
    BalancesAt good turns prior b (acknowledge name message) := by
  have hmay : MayOweAt good turns prior b (acknowledge name message) := by
    refine requireQueue_mayOweAt fun id q hq pool owed appended hbooks => ?_
    dsimp only
    split
    · exact (balancesAt_of_error (perform_throw b _)).mayOweAt pool owed appended hbooks
    · next r q' hacknowledge =>
        have hbecomes := ((hbooks.router.queue_sound id q hq).acknowledge hacknowledge).2
        refine (setQueue_settlesAt hq hbecomes ?_).mayOweAt pool owed appended hbooks
        rw [← hbecomes.info_eq]
        exact (count_settles _).bind fun _ => release_settles ..
  refine hmay.balancesAt fun reason hreason => ?_
  rcases perform_acknowledge b name message with
    ⟨e, he, hperform⟩ | ⟨id, q, r, q', counts, store, -, -, -, hperform⟩
  · rw [hperform] at hreason
    cases hreason
    exact he reason rfl
  · rw [hperform] at hreason
    cases hreason

/-- A known message is let go of, and a copy of it goes to another address. -/
theorem forward_settles (q : QueueInfo) {m : Message} (hm : m ∈ known)
    {copy : MessageId → Message} (hid : ∀ id, (copy id).id = id)
    (hreadable : m.Readable → ∀ id, (copy id).Readable) :
    Settles good turns prior known (keptShare q [m])
      (newId >>= fun id => discard (publish (copy id)) >>= fun _ => release q m) := by
  have hcopy : Settles good turns prior known []
      (newId >>= fun id => discard (publish (copy id))) :=
    publishCopy_settles hid fun hknown => hreadable (hknown m hm)
  have hboth := hcopy.bind fun _ => release_settles q m
  rwa [bind_assoc] at hboth

theorem cancelDelivery_mayOweAt {b : Broker MessageLog} {name : String} {message : MessageId} :
    MayOweAt good turns prior b (cancelDelivery name message) := by
  refine requireQueue_mayOweAt fun id q hq pool owed appended hbooks => ?_
  dsimp only
  split
  · exact (balancesAt_of_error (perform_throw b _)).mayOweAt pool owed appended hbooks
  · next outcome q' hcancel =>
      have hbecomes := (hbooks.router.queue_sound id q hq).cancel hcancel
      refine (setQueue_settlesAt hq hbecomes ?_).mayOweAt pool owed appended hbooks
      rw [← hbecomes.info_eq]
      cases outcome with
      | redelivered n => exact .pure _
      | deadLetter r target =>
          refine (count_settles _).bind fun _ => ?_
          cases target with
          | none => exact (release_settles ..).bind_pure _
          | some target =>
              have hforward : Settles good turns prior [r.message] _ _ :=
                forward_settles q'.toQueueInfo (.head _) (fun _ => rfl)
                  fun hread id => readable_forwardedFrom hread q'.toQueueInfo id target
              have hresult := hforward.bind_pure fun _ => CancelOutcome.deadLetter r (some target)
              simp only [bind_assoc] at hresult
              exact hresult

/-- A message that expired is let go of, and a copy of it may be published. -/
theorem dismiss_settles (q : QueueInfo) (now : Timestamp) {r : Reference}
    (hr : r.message ∈ known) :
    Settles good turns prior known (keptShare q [r.message]) (dismiss q now r) := by
  rw [dismiss]
  split
  · next target _ =>
      exact forward_settles q hr (fun _ => rfl) fun hread id =>
        readable_expiredFrom hread q now id target
  · exact release_settles q r.message

/-- The messages of a queue that expired are let go of one after another. -/
theorem expireQueue_settles (now : Timestamp) (id : BindingId) :
    Settles good turns prior [] [] (expireQueue now id) := by
  refine ⟨expireQueue_steady now id, ?_⟩
  intro b pool owed appended hbooks
  rw [expireQueue, perform_bind_ok _ (perform_get b)]
  cases hq : b.router.queues.get? id with
  | none => exact (Settles.pure 0).settlesAt b pool owed appended hbooks
  | some q =>
      have hbecomes := (hbooks.router.queue_sound id q hq).expire now
      refine setQueue_settlesAt hq hbecomes ?_ pool owed appended hbooks
      rw [← flatMap_keptShare, ← hbecomes.info_eq]
      refine Settles.bind_pure (.forM _ fun r hr => ?_) fun _ => (q.expire now).1.length
      exact dismiss_settles _ now (List.mem_map_of_mem hr)

theorem expireMessages_mayOweAt {b : Broker MessageLog} {now : Timestamp} :
    MayOweAt good turns prior b (expireMessages now) := by
  have hqueues : Settles good turns prior [] [] (b.toExpire.mapM (expireQueue now)) :=
    .mapM _ (expireQueue_settles now)
  have hall := hqueues.bind fun numbers =>
    (count_settles fun c => { c with expired := c.expired + numbers.foldl (· + ·) 0 }).bind_pure
      fun _ => numbers.foldl (· + ·) 0
  exact (hall.settlesAt b).mayOweAt

end Broker

end Courier
