import Courier.Proofs.Broker.Names

/-!
# What Is Known of the Bindings

A broker registers a binding when it deploys a queue or a divert, and withdraws it with the queue
or the divert. Nothing else touches the bindings. So whatever is known of them after deploying a
sound configuration, and stays true when bindings are registered and withdrawn, is known in every
state that a broker comes to. It may depend on the number of diverts that a message may pass
through, which the configuration sets and nothing changes.

## Main definitions

* `Registry.Lasting`: registering and withdrawing bindings keep what is known of them.
* `Binding.Labelled`: a binding has the name and the address of what it attaches.

## Main results

* `BrokerRequest.lasting`: a request keeps what is known of the bindings.
* `Broker.Reachable.lasting`: it is known in every state that a broker comes to.
* `Broker.Reachable.labelled`, `Broker.Reachable.hops_pos`: **bindings are labelled, and messages
  may pass through diverts**.
-/

namespace Courier

/-- A sound configuration lets messages pass through diverts. -/
theorem Config.hops_pos_of_check {levels : String → Bool} {c : Config}
    (h : c.check levels = .ok ()) :
    0 < c.routing.maxDivertHops.toNat := by
  have hnone : c.fieldFaults = [] := (Config.check_eq_ok_iff.mp h).1
  simp only [Config.fieldFaults, List.append_eq_nil_iff, List.map_eq_nil_iff, FieldFault.ofCount]
    at hnone
  obtain ⟨⟨⟨⟨⟨hcount, -⟩, -⟩, -⟩, -⟩, -⟩ := hnone
  split at hcount
  · next hrange =>
      rw [Bool.and_eq_true, decide_eq_true_iff] at hrange
      exact UInt32.le_iff_toNat_le.mp hrange.1
  · cases hcount

/-- The name of what is attached. -/
def BindingKind.name : BindingKind → String
  | .queue q => q.name
  | .divert d => d.name

/-- The address of what is attached. -/
def BindingKind.address : BindingKind → Address
  | .queue q => q.address
  | .divert d => d.address

/-- A binding has the name and the address of what it attaches. -/
def Binding.Labelled (b : Binding) : Prop :=
  b.name = b.kind.name ∧ b.address = b.kind.address

/-- Registering something under its name and at its address, and withdrawing a binding, keep what is
known of the bindings. -/
structure Registry.Lasting (P : Registry → Prop) : Prop where
  add? : ∀ {r filter b r'} (kind : BindingKind), r.Sound → P r →
    r.add? kind.name kind.address filter kind = some (b, r') → P r'
  remove? : ∀ {r name b r'}, r.Sound → P r → r.remove? name = some (b, r') → P r'

theorem Registry.lasting_labelled : Lasting fun r => ∀ b ∈ r.named, b.Labelled where
  add? _ hr h hadd := by
    obtain ⟨-, hperm, -, -, rfl, -⟩ := hr.add? hadd
    intro c hc
    rcases List.mem_cons.mp (hperm.mem_iff.mp hc) with rfl | hc
    · exact ⟨rfl, rfl⟩
    · exact h c hc
  remove? hr h hremove := by
    obtain ⟨-, -, -, hperm⟩ := hr.remove? hremove
    exact fun c hc => h c (hperm.mem_iff.mpr (.tail _ hc))

/-- The binding of a name is withdrawn, if there is one. -/
theorem Registry.Lasting.unbind {P : Registry → Prop} (hP : Lasting P) {r : Router}
    (hr : r.registry.Sound) (h : P r.registry) (name : String) :
    P (r.unbind name).registry ∧ (r.unbind name).maxDivertHops = r.maxDivertHops := by
  rw [Router.unbind, Router.unbind?]
  cases hremove : r.registry.remove? name with
  | none => exact ⟨h, rfl⟩
  | some removed => exact ⟨hP.remove? hr h hremove, rfl⟩

namespace Broker

open BrokerM

variable {σ : Type} {P : Nat → Registry → Prop} {b b' : Broker σ}

/-- What is known of the bindings of a broker and of its limit. -/
def Obeys (P : Nat → Registry → Prop) (b : Broker σ) : Prop :=
  P b.router.maxDivertHops b.router.registry

namespace Obeys

theorem of_extends (h : b.Obeys P) (hb : b.Extends b') : b'.Obeys P := by
  rw [Obeys, hb.hops_eq, hb.registry_eq]
  exact h

theorem createQueue (h : b.Obeys P) (hP : ∀ hops, Registry.Lasting (P hops))
    (hr : b.router.registry.Sound) (c : QueueConfig) : (b.perform (createQueue c)).2.Obeys P := by
  rcases perform_createQueue b c with
    ⟨e, hperform⟩ | ⟨info, filter, bd, router, -, -, hbind, hperform⟩
  · rw [hperform]
    exact h
  · obtain ⟨⟨bd', registry⟩, hadd, heq⟩ := Option.map_eq_some_iff.mp hbind
    cases heq
    rw [hperform]
    exact (hP _).add? (.queue info) hr h hadd

theorem createDivert (h : b.Obeys P) (hP : ∀ hops, Registry.Lasting (P hops))
    (hr : b.router.registry.Sound) (c : DivertConfig) :
    (b.perform (createDivert c)).2.Obeys P := by
  rcases perform_createDivert b c with
    ⟨e, hperform⟩ | ⟨divert, filter, bd, router, -, hbind, hperform⟩
  · rw [hperform]
    exact h
  · obtain ⟨⟨bd', registry⟩, hadd, heq⟩ := Option.map_eq_some_iff.mp hbind
    cases heq
    rw [hperform]
    exact (hP _).add? (.divert divert) hr h hadd

theorem destroyDivert (h : b.Obeys P) (hP : ∀ hops, Registry.Lasting (P hops))
    (hr : b.router.registry.Sound) (name : String) :
    (b.perform (destroyDivert name)).2.Obeys P := by
  rcases perform_destroyDivert b name with ⟨e, hperform⟩ | ⟨-, hperform⟩
  · rw [hperform]
    exact h
  · obtain ⟨hunbind, hhops⟩ := (hP _).unbind hr h name
    rw [hperform, Obeys, hhops]
    exact hunbind

theorem withdrawn (h : b.Obeys P) (hP : ∀ hops, Registry.Lasting (P hops))
    (hr : b.router.registry.Sound) (name : String) (id : BindingId) :
    (b.withdrawn name id).Obeys P := by
  obtain ⟨hunbind, hhops⟩ := (hP _).unbind hr h name
  rw [Broker.withdrawn, Obeys, hhops]
  exact hunbind

end Obeys

end Broker

open Broker BrokerM

/-- **A request keeps what is known of the bindings**, if registering and withdrawing bindings keep
it. -/
theorem BrokerRequest.lasting {σ : Type} [MessageStore σ] {P : Nat → Registry → Prop}
    {b : Broker σ} (r : BrokerRequest) (hP : ∀ hops, Registry.Lasting (P hops)) (h : b.Obeys P)
    (hr : b.router.registry.Sound) : (b.perform r.act).2.Obeys P := by
  cases r with
  | createQueue c =>
      rw [act, perform_discard]
      exact h.createQueue hP hr c
  | createDivert c =>
      rw [act, perform_discard]
      exact h.createDivert hP hr c
  | destroyDivert name => exact h.destroyDivert hP hr name
  | deleteQueue name =>
      rcases perform_deleteQueue b name with hperform | ⟨id, q, -, hperform⟩
      · rw [act, hperform]
        exact h
      · rw [act, hperform]
        refine (h.withdrawn hP hr name id).of_extends ?_
        exact Steady.forM (fun r => release_steady _ _) _ _
  | _ => exact h.of_extends (act_steady rfl b)

namespace Broker

variable {σ : Type} {P : Nat → Registry → Prop} {b : Broker σ} {levels : String → Bool}
  {walks : WalkOrders}

/-- What is known of an empty registry is known of the bindings that are deployed. -/
theorem obeys_of_deploy (hP : ∀ hops, Registry.Lasting (P hops)) {c : Config} {store : σ}
    {ids : IdSupply} (hstart : P c.routing.maxDivertHops.toNat (.empty c.wildcards))
    (h : deploy levels walks c store ids = .ok b) : b.Obeys P :=
  of_deploy hstart (fun q _ hb h => h.createQueue hP hb.router.registry q)
    (fun d _ hb h => h.createDivert hP hb.router.registry d) h

theorem check_of_deploy {c : Config} {store : σ} {ids : IdSupply}
    (h : deploy levels walks c store ids = .ok b) : c.check levels = .ok () := by
  rw [deploy] at h
  split at h
  · cases h
  · next hcheck => exact hcheck

variable [MessageStore σ] {first : σ → Prop} {alters : σ → σ → Prop} {published : List Message}

/-- **What is known of the bindings is known in every state that a broker comes to**, if it is known
before anything is deployed from a sound configuration, and registering and withdrawing bindings
keep it. -/
theorem Reachable.lasting (h : Reachable first alters published b)
    (hP : ∀ hops, Registry.Lasting (P hops))
    (hstart : ∀ (levels : String → Bool) (c : Config), c.check levels = .ok () →
      P c.routing.maxDivertHops.toNat (.empty c.wildcards)) : b.Obeys P := by
  induction h with
  | deployed _ deployed =>
      exact obeys_of_deploy hP (hstart _ _ (check_of_deploy deployed)) deployed
  | served r reached ih => exact r.lasting hP ih reached.wired_and_bound.2.registry
  | recovered _ ih => exact ih.of_extends (recover_steady _)
  | furnished entry _ ih => exact ih.of_extends (addSettings_steady entry _)
  | altered _ _ ih => exact ih
  | restarted _ deployed =>
      exact obeys_of_deploy hP (hstart _ _ (check_of_deploy deployed)) deployed

/-- **Every binding has the name and the address of what it attaches.** -/
theorem Reachable.labelled (h : Reachable first alters published b) :
    ∀ bd ∈ b.router.registry.named, bd.Labelled :=
  h.lasting (P := fun _ r => ∀ bd ∈ r.named, bd.Labelled) (fun _ => Registry.lasting_labelled)
    fun _ _ _ _ hbd => absurd hbd List.not_mem_nil

/-- **Messages may pass through diverts.** -/
theorem Reachable.hops_pos (h : Reachable first alters published b) :
    0 < b.router.maxDivertHops :=
  h.lasting (P := fun hops _ => 0 < hops) (fun _ => ⟨fun _ _ h _ => h, fun _ h _ => h⟩)
    fun _ _ hcheck => Config.hops_pos_of_check hcheck

end Broker

end Courier
