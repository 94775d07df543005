import Courier.Proofs.Broker.Lifetime
import Courier.Proofs.Broker.Rollout

/-!
# The Names of Queues and Diverts

A broker keeps its queues by name, its diverts by name and the bindings of both, and changes all of
them in turn when it deploys or withdraws something. They never come apart: a name that is in use
belongs to one binding, and to the queue or the divert that this binding attaches. A name can be
given again as soon as it is free, and not before, and a request that fails changes nothing.

## Main definitions

* `Broker.Uses`: a name is in use.
* `Broker.Attached`: the diverts are those of the bindings.
* `Broker.NamesAgree`: what is kept by name agrees with the bindings.
* `Broker.NamesDecide`: the names in use decide what is deployed and withdrawn.

## Main results

* `BrokerRequest.attached`, `Broker.Reachable.attached`: the diverts stay those of the bindings.
* `Broker.Wired.perform_create_cases`: the three ways in which deploying something can end.
* `Broker.perform_deleteQueue_cases`: the two ways in which withdrawing a queue can end.
* `Broker.Wired.eq_of_perform_eq_error`: a request that fails changes nothing.
* `Broker.Reachable.serve_names_agree`: names agree, and decide, after every run of requests.
-/

namespace Courier

/-- The divert that is attached. -/
def Binding.divert? (b : Binding) : Option Divert :=
  match b.kind with
  | .divert d => some d
  | .queue _ => none

theorem Binding.divert?_eq_some_iff {b : Binding} {d : Divert} :
    b.divert? = some d ↔ b.kind = .divert d := by
  rw [divert?]
  cases b.kind <;> simp

/-- A binding is registered unless its name is taken. -/
theorem Registry.add?_eq_none_iff {r : Registry} {name : String} {address : Address}
    {filter : Option Selector} {kind : BindingKind} :
    r.add? name address filter kind = none ↔ r.byName.contains name := by
  rw [add?]
  split <;> simp_all

namespace Broker

open BrokerM

variable {σ : Type}

/-! ### The diverts of the bindings -/

/-- The diverts that are deployed are those of the bindings. -/
def Attached (b : Broker σ) : Prop :=
  ∀ name, b.diverts.get? name = (b.router.registry.byName.get? name).bind Binding.divert?

namespace Attached

variable {b b' : Broker σ}

theorem of_extends (h : b.Attached) (hb : b.Extends b') : b'.Attached := fun name => by
  rw [hb.diverts_eq, hb.registry_eq, h name]

theorem createQueue (h : b.Attached) (hr : b.router.Bound) (c : QueueConfig) :
    (b.perform (createQueue c)).2.Attached := by
  rcases perform_createQueue b c with
    ⟨e, hperform⟩ | ⟨info, filter, bd, router, hname, -, hbind, hperform⟩
  · rw [hperform]
    exact h
  · obtain ⟨-, hnone, hbyName, hkind, -⟩ := hr.bindQueue? hbind
    rw [hname] at hnone hbyName
    rw [hperform]
    intro name
    rw [hbyName, Dictionary.get?_insert, h name]
    split
    · next heq => simp [heq, hnone, Binding.divert?, hkind]
    · rfl

theorem createDivert (h : b.Attached) (hr : b.router.Bound) (c : DivertConfig) :
    (b.perform (createDivert c)).2.Attached := by
  rcases perform_createDivert b c with
    ⟨e, hperform⟩ | ⟨divert, filter, bd, router, hname, hbind, hperform⟩
  · rw [hperform]
    exact h
  · obtain ⟨-, -, hbyName, hkind, -⟩ := hr.bindDivert? hbind
    rw [hname] at hbyName
    rw [hperform]
    intro name
    rw [hbyName, Dictionary.get?_insert, Dictionary.get?_insert]
    split
    · rw [Option.bind_some, Binding.divert?, hkind]
    · exact h name

theorem destroyDivert (h : b.Attached) (hwired : b.Wired) (hr : b.router.Bound) (name : String) :
    (b.perform (destroyDivert name)).2.Attached := by
  rcases perform_destroyDivert b name with ⟨e, hperform⟩ | ⟨hname, hperform⟩
  · rw [hperform]
    exact h
  · obtain ⟨bd, hbd, -⟩ := hwired.binding_of_diverts hname
    obtain ⟨-, -, hbyName, -⟩ := hr.unbind hbd
    rw [hperform]
    intro other
    rw [hbyName, Dictionary.get?_erase, Dictionary.get?_erase]
    split
    · rfl
    · exact h other

theorem withdrawn (h : b.Attached) (hwired : b.Wired) (hr : b.router.Bound) {name : String}
    {id : BindingId} (hid : b.queueIds.get? name = some id) : (b.withdrawn name id).Attached := by
  obtain ⟨bd, hbd, hqueue, rfl⟩ := hwired.binding_of_queueIds hid
  obtain ⟨info, hkind⟩ := Binding.isQueue_eq.mp hqueue
  obtain ⟨-, -, hbyName, -⟩ := hr.unbind hbd
  intro other
  rw [Broker.withdrawn, hbyName, Dictionary.get?_erase, h other]
  split
  · next heq => simp [heq, hbd, Binding.divert?, hkind]
  · rfl

end Attached

end Broker

open Broker BrokerM

/-- The diverts are those of the bindings after every request. -/
theorem BrokerRequest.attached {σ : Type} [MessageStore σ] {b : Broker σ} (r : BrokerRequest)
    (h : b.Attached) (hwired : b.Wired) (hrouter : b.router.Bound) :
    (b.perform r.act).2.Attached := by
  cases r with
  | createQueue c =>
      rw [act, perform_discard]
      exact h.createQueue hrouter c
  | createDivert c =>
      rw [act, perform_discard]
      exact h.createDivert hrouter c
  | destroyDivert name => exact h.destroyDivert hwired hrouter name
  | deleteQueue name =>
      rcases perform_deleteQueue b name with hperform | ⟨id, q, hfound, hperform⟩
      · rw [act, hperform]
        exact h
      · rw [act, hperform]
        refine (h.withdrawn hwired hrouter (queue?_eq_some_iff.mp hfound).1).of_extends ?_
        exact Steady.forM (fun r => release_steady _ _) _ _
  | _ => exact h.of_extends (act_steady rfl b)

namespace Broker

section Life

variable {σ : Type}

theorem attached_of_deploy {levels : String → Bool} {walks : WalkOrders} {c : Config} {store : σ}
    {ids : IdSupply} {b : Broker σ} (h : deploy levels walks c store ids = .ok b) : b.Attached :=
  of_deploy (fun _ => rfl) (fun q _ hb h => h.createQueue hb.router.bound q)
    (fun d _ hb h => h.createDivert hb.router.bound d) h

theorem addSettings_steady (entry : SettingsEntry) :
    (addSettings entry : BrokerM σ Unit).Steady := by
  refine Steady.get_bind fun b => ?_
  split
  · exact ⟨rfl, rfl, rfl, rfl, rfl, Nat.le_refl _⟩
  · exact .refl b

variable [MessageStore σ]

theorem recover_steady : (recover : BrokerM σ Nat).Steady := by
  have hmessage : ∀ m, (recoverMessage m : BrokerM σ Bool).Steady := by
    intro m
    refine Steady.get_bind fun b => ?_
    dsimp only
    split
    · exact ((callStore_steady _).bind fun _ => .pure _) b
    · exact ((commit_steady _).discard.bind fun _ => .pure _) b
  refine Steady.get_bind fun b => ?_
  split
  · exact .refl b
  · exact ((Steady.mapM hmessage _).bind fun _ => .pure _) b

variable {b : Broker σ} {first : σ → Prop} {alters : σ → σ → Prop} {published : List Message}

theorem Reachable.wired_and_bound (h : Reachable first alters published b) :
    b.Wired ∧ b.router.Bound := by
  have hcustody : b.Custody Regime.trivial published :=
    h.custody (fun _ _ _ => True.intro) (fun _ _ _ _ _ => True.intro) fun _ _ => True.intro
  exact ⟨hcustody.wired, hcustody.router.bound⟩

/-- **The diverts are those of the bindings** in every state that a broker comes to. -/
theorem Reachable.attached (h : Reachable first alters published b) : b.Attached := by
  induction h with
  | deployed _ deployed => exact attached_of_deploy deployed
  | served r reached ih =>
      obtain ⟨hwired, hbound⟩ := reached.wired_and_bound
      exact r.attached ih hwired hbound
  | recovered _ ih => exact ih.of_extends (recover_steady _)
  | furnished entry _ ih => exact ih.of_extends (addSettings_steady entry _)
  | altered _ _ ih => exact ih
  | restarted _ deployed => exact attached_of_deploy deployed

end Life

/-! ### What is kept by name -/

section State

variable {σ : Type} {b : Broker σ}

/-- A queue or a divert has the name. -/
def Uses (b : Broker σ) (name : String) : Prop :=
  b.queueIds.contains name ∨ b.diverts.contains name

/-- What is kept by name agrees with the bindings. -/
structure NamesAgree (b : Broker σ) : Prop where
  /-- No queue and divert share a name. -/
  disjoint : ∀ name, ¬(b.queueIds.contains name ∧ b.diverts.contains name)
  /-- The names in use are those of the bindings, of which no two share one. -/
  uses_iff : ∀ name, b.Uses name ↔ name ∈ b.router.registry.bindings.map Binding.name
  names_nodup : (b.router.registry.bindings.map Binding.name).Nodup
  /-- There is a queue under every name of a queue. -/
  queue?_isSome : ∀ name, (b.queue? name).isSome = b.queueIds.contains name
  /-- A queue is the one that the binding of its name attaches. -/
  queue?_iff : ∀ name id q, b.queue? name = some (id, q) ↔
    ∃ bd, b.router.registry.get? name = some bd ∧ bd.name = name ∧ bd.id = id ∧
      bd.kind = .queue q.toQueueInfo ∧ b.router.queues.get? id = some q
  /-- A divert is the one that the binding of its name attaches. -/
  divert_iff : ∀ name d, b.diverts.get? name = some d ↔
    ∃ bd, b.router.registry.get? name = some bd ∧ bd.name = name ∧ bd.kind = .divert d
  /-- The bindings that are found by name are found by address, and no others. -/
  bindingsFor_iff : ∀ bd address, bd ∈ b.router.registry.bindingsFor address ↔
    b.router.registry.get? bd.name = some bd ∧
      b.router.registry.wildcards.matches bd.address.text address
  /-- Every binding is that of a queue or of a divert. -/
  count_eq : b.stats.bindings = b.stats.queues + b.stats.diverts

theorem Wired.uses_iff (h : b.Wired) (name : String) :
    b.Uses name ↔ b.router.registry.byName.contains name := by
  rw [Uses, h.diverts_eq, Dictionary.contains, h.queueIds_eq, Dictionary.contains]
  rcases b.router.registry.byName.get? name with _ | bd
  · simp
  · cases hqueue : bd.isQueue <;> simp [Binding.queueId?, hqueue]

/-- A name of a queue is bound to a queue that is there. -/
theorem Wired.queue?_isSome (h : b.Wired) (hr : b.router.Bound) (name : String) :
    (b.queue? name).isSome = b.queueIds.contains name := by
  rw [queue?, Dictionary.contains]
  cases hid : b.queueIds.get? name with
  | none => rfl
  | some id =>
      obtain ⟨bd, hbd, hqueue, rfl⟩ := h.binding_of_queueIds hid
      obtain ⟨info, hkind⟩ := Binding.isQueue_eq.mp hqueue
      obtain ⟨q, hq, -⟩ :=
        hr.queue_of_binding bd (Dictionary.mem_values_iff.mpr ⟨name, hbd⟩) info hkind
      simp [hq]

theorem Wired.queue?_iff (h : b.Wired) (hr : b.router.Bound) {name : String} {id : BindingId}
    {q : Queue} : b.queue? name = some (id, q) ↔
      ∃ bd, b.router.registry.get? name = some bd ∧ bd.name = name ∧ bd.id = id ∧
        bd.kind = .queue q.toQueueInfo ∧ b.router.queues.get? id = some q := by
  rw [queue?_eq_some_iff]
  constructor
  · rintro ⟨hid, hq⟩
    obtain ⟨bd, hbd, -, rfl⟩ := h.binding_of_queueIds hid
    obtain ⟨other, hother, hsame, hkind⟩ := hr.binding_of_queue _ q hq
    obtain rfl := hr.registry.eq_of_id_eq hother (Dictionary.mem_values_iff.mpr ⟨name, hbd⟩) hsame
    exact ⟨other, hbd, hr.registry.name_eq name other hbd, rfl, hkind, hq⟩
  · rintro ⟨bd, hbd, -, rfl, hkind, hq⟩
    refine ⟨?_, hq⟩
    rw [h.queueIds_eq, show b.router.registry.byName.get? name = some bd from hbd,
      Option.bind_some, Binding.queueId?, if_pos (Binding.isQueue_eq.mpr ⟨_, hkind⟩)]

theorem namesAgree (hwired : b.Wired) (hr : b.router.Bound) (hattached : b.Attached) :
    b.NamesAgree where
  disjoint name := by
    rintro ⟨hqueue, hdivert⟩
    obtain ⟨id, hid⟩ := Option.isSome_iff_exists.mp hqueue
    obtain ⟨bd, hbd, hisQueue, -⟩ := hwired.binding_of_queueIds hid
    obtain ⟨other, hother, hkind⟩ := hwired.binding_of_diverts hdivert
    obtain rfl := Option.some.inj (hbd.symm.trans hother)
    rw [Binding.isQueue_eq_false.mpr hkind] at hisQueue
    cases hisQueue
  uses_iff name := by
    rw [hwired.uses_iff, Dictionary.contains, Option.isSome_iff_exists, List.mem_map]
    refine exists_congr fun bd => ?_
    rw [Registry.mem_bindings_iff, ← hr.registry.get?_eq_some_iff]
    rfl
  names_nodup := (b.router.registry.bindings_perm.map Binding.name).nodup_iff.mpr
    hr.registry.names_nodup
  queue?_isSome := hwired.queue?_isSome hr
  queue?_iff _ _ _ := hwired.queue?_iff hr
  divert_iff name d := by
    rw [hattached name, Option.bind_eq_some_iff]
    constructor
    · rintro ⟨bd, hbd, hd⟩
      exact ⟨bd, hbd, hr.registry.name_eq name bd hbd, Binding.divert?_eq_some_iff.mp hd⟩
    · rintro ⟨bd, hbd, -, hkind⟩
      exact ⟨bd, hbd, Binding.divert?_eq_some_iff.mpr hkind⟩
  bindingsFor_iff bd address := by
    rw [hr.registry.mem_bindingsFor_iff, hr.registry.get?_eq_some_iff, and_iff_left rfl]
  count_eq := (hwired.stats_eq hr.registry).2.2

end State

/-! ### What the names decide -/

section Requests

variable {σ : Type} {b : Broker σ} {item : BindingConfig}

theorem perform_create_of_not_sound (b : Broker σ) (h : ¬item.Sound b.config.wildcards) :
    ∃ e, (∀ name, e ≠ .duplicateBinding name) ∧ b.perform item.create = (.error e, b) := by
  cases item with
  | queue c =>
      obtain ⟨e, hother, hperform⟩ := perform_createQueue_of_not_sound b h
      exact ⟨e, hother, by rw [BindingConfig.create, perform_discard, hperform]; rfl⟩
  | divert c =>
      obtain ⟨e, hother, hperform⟩ := perform_createDivert_of_not_sound b h
      exact ⟨e, hother, by rw [BindingConfig.create, perform_discard, hperform]; rfl⟩

/-- Something that obeys the rules is deployed unless its name is taken. -/
theorem perform_create_of_sound (b : Broker σ) (h : item.Sound b.config.wildcards) :
    (b.router.registry.byName.contains item.name ∧
      b.perform item.create = (.error (.duplicateBinding item.name), b)) ∨
    (¬b.router.registry.byName.contains item.name ∧
      ∃ b', b.perform item.create = (.ok ⟨⟩, b')) := by
  cases item with
  | queue c =>
      obtain ⟨⟨address, haddress⟩, ⟨filter, hfilter⟩⟩ := h
      have hperform := perform_createQueue_of_read b haddress hfilter
      dsimp only [Router.bindQueue?] at hperform
      rw [BindingConfig.create, perform_discard, hperform]
      cases hadd : b.router.registry.add? c.name address filter (.queue _) with
      | none => exact .inl ⟨Registry.add?_eq_none_iff.mp hadd, rfl⟩
      | some added =>
          refine .inr ⟨fun htaken => ?_, _, rfl⟩
          cases hadd.symm.trans (Registry.add?_eq_none_iff.mpr htaken)
  | divert c =>
      obtain ⟨address, target, filter, haddress, htarget, hfilter, hwildcard, hself⟩ :=
        DivertConfig.Sound.read h
      have hperform := perform_createDivert_of_read b haddress htarget hfilter hwildcard hself
      dsimp only [Router.bindDivert?] at hperform
      rw [BindingConfig.create, perform_discard, hperform]
      cases hadd : b.router.registry.add? c.name address filter (.divert _) with
      | none => exact .inl ⟨Registry.add?_eq_none_iff.mp hadd, rfl⟩
      | some added =>
          refine .inr ⟨fun htaken => ?_, _, rfl⟩
          cases hadd.symm.trans (Registry.add?_eq_none_iff.mpr htaken)

/-- **Deploying something** fails by a rule, fails because its name is taken, or succeeds. -/
theorem Wired.perform_create_cases (h : b.Wired) (item : BindingConfig) :
    (¬item.Sound b.config.wildcards ∧
      ∃ e, (∀ name, e ≠ .duplicateBinding name) ∧ b.perform item.create = (.error e, b)) ∨
    (item.Sound b.config.wildcards ∧ b.Uses item.name ∧
      b.perform item.create = (.error (.duplicateBinding item.name), b)) ∨
    (item.Sound b.config.wildcards ∧ ¬b.Uses item.name ∧
      ∃ b', b.perform item.create = (.ok ⟨⟩, b')) := by
  by_cases hsound : item.Sound b.config.wildcards
  · rw [h.uses_iff]
    rcases perform_create_of_sound b hsound with ⟨htaken, hperform⟩ | ⟨hfree, hperform⟩
    · exact .inr (.inl ⟨hsound, htaken, hperform⟩)
    · exact .inr (.inr ⟨hsound, hfree, hperform⟩)
  · exact .inl ⟨hsound, perform_create_of_not_sound b hsound⟩

theorem Wired.perform_create_eq_ok_iff (h : b.Wired) (item : BindingConfig) :
    (b.perform item.create).1 = .ok ⟨⟩ ↔ item.Sound b.config.wildcards ∧ ¬b.Uses item.name := by
  rcases h.perform_create_cases item with
    ⟨hsound, e, -, hperform⟩ | ⟨-, huses, hperform⟩ | ⟨hsound, huses, b', hperform⟩
  · simp [hperform, hsound]
  · simp [hperform, huses]
  · simp [hperform, hsound, huses]

theorem Wired.perform_create_eq_duplicate_iff (h : b.Wired) (item : BindingConfig)
    (name : String) :
    (b.perform item.create).1 = .error (.duplicateBinding name) ↔
      item.Sound b.config.wildcards ∧ b.Uses item.name ∧ item.name = name := by
  rcases h.perform_create_cases item with
    ⟨hsound, e, hother, hperform⟩ | ⟨hsound, huses, hperform⟩ | ⟨-, huses, b', hperform⟩
  · simp [hperform, hsound, hother]
  · simp [hperform, hsound, huses]
  · simp [hperform, huses]

/-- A divert is withdrawn if there is one of that name. -/
theorem perform_destroyDivert_eq_ok_iff (b : Broker σ) (name : String) :
    (b.perform (destroyDivert name)).1 = .ok () ↔ b.diverts.contains name := by
  rw [destroyDivert, perform_bind_ok _ (perform_get b)]
  cases b.diverts.contains name with
  | false => exact iff_of_false (fun h => by cases h) Bool.false_ne_true
  | true => exact iff_of_true rfl rfl

/-- **A queue is withdrawn** if there is one of that name, and otherwise nothing changes. The store
does not refuse to remove what the queue held. -/
theorem perform_deleteQueue_cases (b : Broker MessageLog) (name : String) :
    ((b.queue? name).isSome = false ∧
      b.perform (deleteQueue name) = (.error (.queueNotFound name), b)) ∨
    ((b.queue? name).isSome ∧ ∃ b', b.perform (deleteQueue name) = (.ok (), b')) := by
  cases hfound : b.queue? name with
  | none =>
      refine .inl ⟨rfl, ?_⟩
      rw [deleteQueue, perform_bind, perform_requireQueue, hfound]
      rfl
  | some found =>
      obtain ⟨id, q⟩ := found
      have hperform : b.perform (deleteQueue name) = (b.withdrawn name id).perform
          ((b.toDiscard id q).forM fun r => release q.toQueueInfo r.message) := by
        rw [deleteQueue, perform_bind, perform_requireQueue, hfound]
        rfl
      obtain ⟨counts, store, hrelease⟩ := perform_forM_release
        (fun b (r : Reference) => perform_release MessageLog.backed b q.toQueueInfo r.message)
        (b.withdrawn name id) (b.toDiscard id q)
      exact .inr ⟨rfl, _, hperform.trans hrelease⟩

/-- A request to deploy or to withdraw something changes nothing if it fails. -/
theorem Wired.eq_of_perform_eq_error {b : Broker MessageLog} (h : b.Wired) {r : BrokerRequest}
    (hr : r.delivers = false) {e : BrokerError} (hfail : (b.perform r.act).1 = .error e) :
    (b.perform r.act).2 = b := by
  have hcreate : ∀ item : BindingConfig, (b.perform item.create).1 = .error e →
      (b.perform item.create).2 = b := by
    intro item hfail
    rcases h.perform_create_cases item with
      ⟨-, _, -, hperform⟩ | ⟨-, -, hperform⟩ | ⟨-, -, b', hperform⟩
    · rw [hperform]
    · rw [hperform]
    · rw [hperform] at hfail
      cases hfail
  cases r with
  | createQueue c => exact hcreate (.queue c) hfail
  | createDivert c => exact hcreate (.divert c) hfail
  | deleteQueue name =>
      rw [BrokerRequest.act] at hfail ⊢
      rcases perform_deleteQueue_cases b name with ⟨-, hperform⟩ | ⟨-, b', hperform⟩
      · rw [hperform]
      · rw [hperform] at hfail
        cases hfail
  | destroyDivert name =>
      rw [BrokerRequest.act] at hfail ⊢
      rcases perform_destroyDivert b name with ⟨_, hperform⟩ | ⟨-, hperform⟩
      · rw [hperform]
      · rw [hperform] at hfail
        cases hfail
  | _ => cases hr

/-- The names in use decide what is deployed and withdrawn. -/
structure NamesDecide (b : Broker MessageLog) : Prop where
  /-- Something is deployed if it obeys the rules for it and its name is free. -/
  created_iff : ∀ item : BindingConfig, (b.perform item.create).1 = .ok ⟨⟩ ↔
    item.Sound b.config.wildcards ∧ ¬b.Uses item.name
  /-- What obeys the rules fails as a duplicate if a queue or a divert has its name. -/
  duplicate_iff : ∀ (item : BindingConfig) (name : String),
    (b.perform item.create).1 = .error (.duplicateBinding name) ↔
      item.Sound b.config.wildcards ∧ b.Uses item.name ∧ item.name = name
  /-- A queue is withdrawn by the name of a queue. -/
  deleted_iff : ∀ name, (b.perform (deleteQueue name)).1 = .ok () ↔ b.queueIds.contains name
  /-- A divert is withdrawn by the name of a divert. -/
  destroyed_iff : ∀ name, (b.perform (destroyDivert name)).1 = .ok () ↔ b.diverts.contains name
  /-- A request to deploy or to withdraw something changes nothing if it fails. -/
  unchanged : ∀ r : BrokerRequest, r.delivers = false → ∀ e, (b.perform r.act).1 = .error e →
    (b.perform r.act).2 = b

theorem namesDecide {b : Broker MessageLog} (h : b.Wired) (hr : b.router.Bound) :
    b.NamesDecide where
  created_iff := h.perform_create_eq_ok_iff
  duplicate_iff := h.perform_create_eq_duplicate_iff
  deleted_iff name := by
    rw [← h.queue?_isSome hr]
    rcases perform_deleteQueue_cases b name with ⟨hnone, hperform⟩ | ⟨hsome, b', hperform⟩
    · simp [hperform, hnone]
    · simp [hperform, hsome]
  destroyed_iff := perform_destroyDivert_eq_ok_iff b
  unchanged _ hr _ := h.eq_of_perform_eq_error hr

end Requests

/-! ### Runs -/

variable {first : MessageLog → Prop} {alters : MessageLog → MessageLog → Prop}
  {published : List Message} {b : Broker MessageLog}

/-- **Names agree, and decide, after every run of requests**, whatever the broker went through
before. -/
theorem Reachable.serve_names_agree (h : Reachable first alters published b)
    (requests : List BrokerRequest) :
    (b.serve requests).2.NamesAgree ∧ (b.serve requests).2.NamesDecide := by
  obtain ⟨published', hserved⟩ := h.serve requests
  obtain ⟨hwired, hbound⟩ := hserved.wired_and_bound
  exact ⟨namesAgree hwired hbound hserved.attached, namesDecide hwired hbound⟩

/-- A divert that would take the name of a queue, one that takes the name of a queue that was
withdrawn, and requests that mistake one for the other. -/
def handover : List BrokerRequest :=
  [.createDivert { name := "second", address := "orders", forwardingAddress := "dead" },
    .destroyDivert "second", .publish (order 1), .deleteQueue "second",
    .createDivert { name := "second", address := "orders", forwardingAddress := "dead" },
    .createQueue { name := "second", address := "orders" }, .deleteQueue "second",
    .receive "first" .epoch]

/-- The name belongs to a divert in the end, and all requests that mistook it have failed. -/
theorem Reachable.serve_names_agree_handover :
    ∃ b, deploy LogLevel.isSound {} twoQueues ({} : MessageLog) (consecutive 100) = .ok b ∧
      ((b.serve handover).2.NamesAgree ∧ (b.serve handover).2.NamesDecide) ∧
      (b.serve handover).1.map (·.result) =
        [.error (.duplicateBinding "second"), .error (.divertNotFound "second"), .ok (), .ok (),
          .ok (), .error (.duplicateBinding "second"), .error (.queueNotFound "second"), .ok ()] ∧
      (b.serve handover).2.router.registry.bindings.map Binding.name =
        ["first", "dead", "second"] := by
  have hcheck : (deploy LogLevel.isSound {} twoQueues ({} : MessageLog)
      (consecutive 100)).toOption.any fun b =>
      decide ((b.serve handover).1.map (·.result) =
        [.error (.duplicateBinding "second"), .error (.divertNotFound "second"), .ok (), .ok (),
          .ok (), .error (.duplicateBinding "second"), .error (.queueNotFound "second"), .ok ()]) &&
      decide ((b.serve handover).2.router.registry.bindings.map Binding.name =
        ["first", "dead", "second"]) := by
    decide +kernel
  obtain ⟨b, hdeploy, hcheck⟩ := exists_ok_of_any hcheck
  rw [Bool.and_eq_true, decide_eq_true_iff, decide_eq_true_iff] at hcheck
  have hreached : Reachable (· = {}) (fun _ _ => False) [] b := .deployed rfl hdeploy
  exact ⟨b, hdeploy, hreached.serve_names_agree handover, hcheck⟩

end Broker

end Courier
