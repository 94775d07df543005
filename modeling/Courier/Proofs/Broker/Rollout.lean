import Courier.Proofs.Broker.Requests
import Courier.Proofs.Config.Check
import Courier.Proofs.Queue.Plain
import Courier.Proofs.Registry.History

/-!
# What a Configuration Deploys

The check of a configuration and the deployment of its queues and diverts have the same rules, each
in its own way: addresses and selectors can be read, names are taken once, and diverts forward to
some other address without wildcards. Whatever passes the check is deployed completely, in the
order of the configuration, and whatever is deployed completely passes the check of the bindings.

## Main definitions

* `BindingConfig`, `Config.bindings`: the queues and diverts of a configuration in order.
* `BindingConfig.Sound`: the rules for one of them.
* `BindingConfig.Gives`: the binding that one of them leads to.
* `Broker.Carries`: a broker in which some of them are deployed.
* `Broker.Deploys`: a broker has the bindings of a configuration, and its queues are empty.

## Main results

* `Config.checkBindings_eq_ok_iff`: what the check asks of the bindings.
* `Broker.Carries.perform_create`: deploying one thing succeeds by the same rules.
* `Broker.perform_deployBindings_iff`: the bindings are deployed if and only if they pass the check.
* `Broker.deploys_of_check`: a configuration that passes the check is deployed completely.
-/

namespace Courier

/-- A queue or a divert of a configuration. -/
inductive BindingConfig where
  /-- A queue. -/
  | queue (c : QueueConfig)
  /-- A divert. -/
  | divert (c : DivertConfig)

/-- The queues and then the diverts of a configuration. -/
def Config.bindings (c : Config) : List BindingConfig :=
  c.queues.map .queue ++ c.diverts.map .divert

/-! ### The rules -/

/-- The address and the selector of a queue can be read. -/
structure QueueConfig.Sound (c : QueueConfig) : Prop where
  address : ∃ address, Address.ofString c.address = .ok address
  filter : ∃ filter, Selector.parseOptional c.filter = .ok filter

/-- The addresses and the selector of a divert can be read, and it forwards to some other address
without wildcards. -/
structure DivertConfig.Sound (w : Wildcards) (c : DivertConfig) : Prop where
  address : ∃ address, Address.ofString c.address = .ok address
  target : ∃ target, Address.ofString c.forwardingAddress = .ok target
  not_wildcard : ¬w.isWildcard c.forwardingAddress
  not_self : c.forwardingAddress ≠ c.address
  filter : ∃ filter, Selector.parseOptional c.filter = .ok filter

/-- What the texts of such a divert stand for. -/
theorem DivertConfig.Sound.read {w : Wildcards} {c : DivertConfig} (h : c.Sound w) :
    ∃ address target filter, Address.ofString c.address = .ok address ∧
      Address.ofString c.forwardingAddress = .ok target ∧
      Selector.parseOptional c.filter = .ok filter ∧ ¬w.isWildcard target.text ∧
      target ≠ address := by
  obtain ⟨⟨address, haddress⟩, ⟨target, htarget⟩, hwildcard, hself, ⟨filter, hfilter⟩⟩ := h
  refine ⟨address, target, filter, haddress, htarget, hfilter, ?_, ?_⟩
  · rwa [Address.text_of_ofString htarget]
  · rintro rfl
    exact hself ((Address.text_of_ofString htarget).symm.trans (Address.text_of_ofString haddress))

/-- The binding that a queue leads to, with the settings of its address. -/
structure QueueConfig.Gives (settings : SettingsRepository) (c : QueueConfig) (bd : Binding) :
    Prop where
  name_eq : bd.name = c.name
  address_eq : Address.ofString c.address = .ok bd.address
  filter_eq : Selector.parseOptional c.filter = .ok bd.filter
  kind_eq : bd.kind = .queue
    { name := c.name
      address := bd.address
      durable := c.durable
      settings := settings.resolve c.address }

/-- The binding that a divert leads to. -/
structure DivertConfig.Gives (c : DivertConfig) (bd : Binding) : Prop where
  name_eq : bd.name = c.name
  address_eq : Address.ofString c.address = .ok bd.address
  filter_eq : Selector.parseOptional c.filter = .ok bd.filter
  kind_eq : ∃ target, Address.ofString c.forwardingAddress = .ok target ∧
    bd.kind = .divert
      { name := c.name
        address := bd.address
        forwardingAddress := target
        exclusive := c.exclusive }

namespace BindingConfig

/-- The name of a queue or a divert. -/
def name : BindingConfig → String
  | queue c => c.name
  | divert c => c.name

/-- Whether it is a queue. -/
def isQueue : BindingConfig → Bool
  | queue _ => true
  | divert _ => false

/-- The rules for a queue or a divert. -/
def Sound (w : Wildcards) : BindingConfig → Prop
  | queue c => c.Sound
  | divert c => c.Sound w

/-- The binding that a queue or a divert leads to. -/
def Gives (settings : SettingsRepository) : BindingConfig → Binding → Prop
  | queue c => c.Gives settings
  | divert c => c.Gives

/-- Deploys a queue or a divert. -/
def create {σ : Type} : BindingConfig → BrokerM σ PUnit
  | queue c => discard (Broker.createQueue c)
  | divert c => discard (Broker.createDivert c)

theorem Gives.name_eq {settings : SettingsRepository} {c : BindingConfig} {bd : Binding}
    (h : c.Gives settings bd) : bd.name = c.name := by
  cases c with
  | queue c => exact QueueConfig.Gives.name_eq h
  | divert c => exact DivertConfig.Gives.name_eq h

theorem Gives.isQueue_eq {settings : SettingsRepository} {c : BindingConfig} {bd : Binding}
    (h : c.Gives settings bd) : bd.isQueue = c.isQueue := by
  cases c with
  | queue c => rw [Binding.isQueue, QueueConfig.Gives.kind_eq h, isQueue]
  | divert c =>
      obtain ⟨target, -, hkind⟩ := DivertConfig.Gives.kind_eq h
      rw [Binding.isQueue, hkind, isQueue]

end BindingConfig

/-! ### The check -/

theorem checkBindingAddress_eq_ok_iff {name address : String} {a : Address} :
    checkBindingAddress name address = .ok a ↔ Address.ofString address = .ok a := by
  rw [checkBindingAddress]
  cases Address.ofString address <;> simp [Except.mapError]

theorem checkBindingFilter_eq_ok_iff {name : String} {filter : Option String} :
    checkBindingFilter name filter = .ok () ↔
      ∃ parsed, Selector.parseOptional filter = .ok parsed := by
  rw [checkBindingFilter]
  cases Selector.parseOptional filter <;> simp

theorem QueueConfig.check_eq_ok_iff {c : QueueConfig} : c.check = .ok () ↔ c.Sound := by
  simp only [check, bind_eq_ok_iff, checkBindingAddress_eq_ok_iff, checkBindingFilter_eq_ok_iff,
    exists_and_right]
  exact ⟨fun ⟨haddress, hfilter⟩ => ⟨haddress, hfilter⟩, fun ⟨haddress, hfilter⟩ =>
    ⟨haddress, hfilter⟩⟩

theorem DivertConfig.check_eq_ok_iff {c : DivertConfig} {w : Wildcards} :
    c.check w = .ok () ↔ c.Sound w := by
  simp only [check, bind_eq_ok_iff, ite_error_eq_ok_iff, checkBindingAddress_eq_ok_iff,
    checkBindingFilter_eq_ok_iff, exists_and_right]
  constructor
  · rintro ⟨haddress, htarget, hwildcard, hself, hfilter⟩
    exact ⟨haddress, htarget, hwildcard, hself, hfilter⟩
  · rintro ⟨haddress, htarget, hwildcard, hself, hfilter⟩
    exact ⟨haddress, htarget, hwildcard, hself, hfilter⟩

/-- Named things pass if each of them does and no name comes twice. -/
theorem checkNamed_eq_ok_iff {α : Type} {name : α → String} {check : α → Except ConfigError Unit}
    {items : List α} {taken result : List String} :
    checkNamed name check taken items = .ok result ↔
      (∀ a ∈ items, check a = .ok ()) ∧ (items.map name).Nodup ∧
        (∀ a ∈ items, name a ∉ taken) ∧ result = (items.map name).reverse ++ taken := by
  induction items generalizing taken with
  | nil => simp [checkNamed, eq_comm]
  | cons a items ih =>
      simp only [checkNamed, ite_error_eq_ok_iff, bind_eq_ok_iff, ih, List.contains_iff_mem]
      simp only [List.mem_cons, forall_eq_or_imp, List.map_cons, List.nodup_cons, List.mem_map,
        not_exists, not_and, not_or, forall_and, List.reverse_cons, List.append_assoc,
        List.cons_append, List.nil_append]
      constructor
      · rintro ⟨hfree, ⟨⟩, hcheck, hall, hnodup, ⟨hdistinct, hothers⟩, hresult⟩
        exact ⟨⟨hcheck, hall⟩, ⟨hdistinct, hnodup⟩, ⟨hfree, hothers⟩, hresult⟩
      · rintro ⟨⟨hcheck, hall⟩, ⟨hdistinct, hnodup⟩, ⟨hfree, hothers⟩, hresult⟩
        exact ⟨hfree, ⟨⟩, hcheck, hall, hnodup, ⟨hdistinct, hothers⟩, hresult⟩

theorem Config.map_name_bindings (c : Config) : c.bindings.map BindingConfig.name =
    c.queues.map QueueConfig.name ++ c.diverts.map DivertConfig.name := by
  simp [bindings, BindingConfig.name, Function.comp_def]

/-- The check of the bindings: all of them obey their rules, and no name comes twice. -/
theorem Config.checkBindings_eq_ok_iff {c : Config} : c.checkBindings = .ok () ↔
    (∀ item ∈ c.bindings, item.Sound c.wildcards) ∧ (c.bindings.map BindingConfig.name).Nodup := by
  have hsound : (∀ item ∈ c.bindings, item.Sound c.wildcards) ↔
      (∀ q ∈ c.queues, q.Sound) ∧ ∀ d ∈ c.diverts, d.Sound c.wildcards := by
    simp [bindings, BindingConfig.Sound, or_imp, forall_and]
  rw [c.map_name_bindings, hsound, List.nodup_append]
  simp only [checkBindings, bind_eq_ok_iff, checkNamed_eq_ok_iff, QueueConfig.check_eq_ok_iff,
    DivertConfig.check_eq_ok_iff, List.append_nil]
  constructor
  · rintro ⟨_, ⟨hqueues, hqueueNames, -, rfl⟩, _, ⟨hdiverts, hdivertNames, hfresh, -⟩, -⟩
    refine ⟨⟨hqueues, hdiverts⟩, hqueueNames, hdivertNames, ?_⟩
    rintro name hname _ hother rfl
    obtain ⟨d, hd, rfl⟩ := List.mem_map.mp hother
    exact hfresh d hd (List.mem_reverse.mpr hname)
  · rintro ⟨⟨hqueues, hdiverts⟩, hqueueNames, hdivertNames, hfresh⟩
    refine ⟨_, ⟨hqueues, hqueueNames, fun _ _ => List.not_mem_nil, rfl⟩, _,
      ⟨hdiverts, hdivertNames, fun d hd hname => ?_, rfl⟩, rfl⟩
    exact hfresh _ (List.mem_reverse.mp hname) _ (List.mem_map_of_mem hd) rfl

/-! ### The deployment -/

namespace Registry

/-- A list of bindings none of which was withdrawn. -/
def Roll.ofBindings (bindings : List Binding) : Roll :=
  { granted := bindings, listed := bindings }

theorem bindings_perm (r : Registry) : r.bindings.Perm r.named :=
  inOrder_perm _

variable {w : Wildcards} {r : Registry} {bindings : List Binding}

/-- A binding is registered under a name that is not taken. -/
theorem Follows.add?_eq_some (h : Follows w r (.ofBindings bindings)) {name : String}
    (hname : name ∉ bindings.map Binding.name) (address : Address) (filter : Option Selector)
    (kind : BindingKind) :
    ∃ bd r', r.add? name address filter kind = some (bd, r') ∧ bd.name = name ∧
      bd.address = address ∧ bd.filter = filter ∧ bd.kind = kind ∧
      Follows w r' (.ofBindings (bindings ++ [bd])) := by
  obtain ⟨hanswer, hnext⟩ := h.add name address filter kind
  let bd : Binding := { id := ⟨bindings.length + 1⟩, name, address, filter, kind }
  have hroll : (Roll.ofBindings bindings).serve (.add name address filter kind) =
      (some bd, .ofBindings (bindings ++ [bd])) := if_neg hname
  rw [hroll] at hanswer hnext
  rw [Registry.serve, serve?] at hanswer hnext
  cases hadd : r.add? name address filter kind with
  | none =>
      rw [hadd] at hanswer
      cases hanswer
  | some served =>
      obtain ⟨bd, r'⟩ := served
      rw [hadd] at hanswer hnext
      cases hanswer
      exact ⟨_, r', rfl, rfl, rfl, rfl, rfl, hnext⟩

theorem Follows.add?_eq_none (h : Follows w r (.ofBindings bindings)) {name : String}
    (hname : name ∈ bindings.map Binding.name) (address : Address) (filter : Option Selector)
    (kind : BindingKind) : r.add? name address filter kind = none := by
  rw [Registry.add?, if_pos (h.taken_iff.mp hname)]

end Registry

namespace Broker

open BrokerM

variable {σ : Type} {c : Config} {store : σ} {ids : IdSupply} {items : List BindingConfig}
  {bindings : List Binding} {b : Broker σ}

theorem perform_readAddress_bind {α : Type} (b : Broker σ) (text : String)
    (next : Address → BrokerM σ α) :
    b.perform (readAddress text >>= next) =
      match Address.ofString text with
      | .ok address => b.perform (next address)
      | .error e => (.error (.address e), b) := by
  rw [perform_bind, readAddress]
  cases Address.ofString text <;> rfl

theorem perform_readFilter_bind {α : Type} (b : Broker σ) (text : Option String)
    (next : Option Selector → BrokerM σ α) :
    b.perform (readFilter text >>= next) =
      match Selector.parseOptional text with
      | .ok filter => b.perform (next filter)
      | .error e => (.error (.selector e), b) := by
  rw [perform_bind, readFilter]
  cases Selector.parseOptional text <;> rfl

/-- A queue that breaks a rule is not deployed, and its name is not even looked up. -/
theorem perform_createQueue_of_not_sound (b : Broker σ) {q : QueueConfig} (hq : ¬q.Sound) :
    ∃ e, (∀ name, e ≠ .duplicateBinding name) ∧ b.perform (createQueue q) = (.error e, b) := by
  rw [createQueue, perform_readAddress_bind]
  cases haddress : Address.ofString q.address with
  | error e => exact ⟨_, by simp, rfl⟩
  | ok address =>
      dsimp only
      rw [perform_readFilter_bind]
      cases hfilter : Selector.parseOptional q.filter with
      | error e => exact ⟨_, by simp, rfl⟩
      | ok filter => exact absurd ⟨⟨address, haddress⟩, ⟨filter, hfilter⟩⟩ hq

/-- A queue that obeys the rules is deployed unless its name is taken. -/
theorem perform_createQueue_of_read (b : Broker σ) {q : QueueConfig} {address : Address}
    {filter : Option Selector} (haddress : Address.ofString q.address = .ok address)
    (hfilter : Selector.parseOptional q.filter = .ok filter) :
    let info : QueueInfo :=
      { name := q.name
        address
        durable := q.durable
        settings := b.settings.resolve address.text }
    b.perform (createQueue q) =
      match b.router.bindQueue? info filter with
      | some (bd, router) =>
        (.ok info, { b with router, queueIds := b.queueIds.insert q.name bd.id })
      | none => (.error (.duplicateBinding q.name), b) := by
  intro info
  rw [createQueue, perform_readAddress_bind, haddress]
  dsimp only
  rw [perform_readFilter_bind, hfilter]
  dsimp only
  rw [perform_bind_ok _ (perform_get b)]
  cases b.router.bindQueue? info filter <;> rfl

/-- A divert that breaks a rule is not deployed, and its name is not even looked up. -/
theorem perform_createDivert_of_not_sound (b : Broker σ) {d : DivertConfig}
    (hd : ¬d.Sound b.config.wildcards) :
    ∃ e, (∀ name, e ≠ .duplicateBinding name) ∧ b.perform (createDivert d) = (.error e, b) := by
  rw [createDivert, perform_readAddress_bind]
  cases haddress : Address.ofString d.address with
  | error e => exact ⟨_, by simp, rfl⟩
  | ok address =>
      dsimp only
      rw [perform_readAddress_bind]
      cases htarget : Address.ofString d.forwardingAddress with
      | error e => exact ⟨_, by simp, rfl⟩
      | ok target =>
          dsimp only
          rw [perform_bind_ok _ (perform_get b)]
          split
          · exact ⟨_, by simp, rfl⟩
          · next hwildcard =>
              split
              · exact ⟨_, by simp, rfl⟩
              · next hself =>
                  rw [perform_readFilter_bind]
                  cases hfilter : Selector.parseOptional d.filter with
                  | error e => exact ⟨_, by simp, rfl⟩
                  | ok filter =>
                      refine absurd ⟨⟨address, haddress⟩, ⟨target, htarget⟩, ?_, fun hsame => ?_,
                        ⟨filter, hfilter⟩⟩ hd
                      · rwa [← Address.text_of_ofString htarget]
                      · rw [hsame, haddress] at htarget
                        exact hself (Except.ok.inj htarget).symm

/-- A divert that obeys the rules is deployed unless its name is taken. -/
theorem perform_createDivert_of_read (b : Broker σ) {d : DivertConfig} {address target : Address}
    {filter : Option Selector} (haddress : Address.ofString d.address = .ok address)
    (htarget : Address.ofString d.forwardingAddress = .ok target)
    (hfilter : Selector.parseOptional d.filter = .ok filter)
    (hwildcard : ¬b.config.wildcards.isWildcard target.text) (hself : target ≠ address) :
    let divert : Divert :=
      { name := d.name, address, forwardingAddress := target, exclusive := d.exclusive }
    b.perform (createDivert d) =
      match b.router.bindDivert? divert filter with
      | some (_, router) =>
        (.ok divert, { b with router, diverts := b.diverts.insert d.name divert })
      | none => (.error (.duplicateBinding d.name), b) := by
  intro divert
  rw [createDivert, perform_readAddress_bind, haddress]
  dsimp only
  rw [perform_readAddress_bind, htarget]
  dsimp only
  rw [perform_bind_ok _ (perform_get b), if_neg hwildcard, if_neg hself, perform_readFilter_bind,
    hfilter]
  dsimp only
  rw [perform_bind_ok _ (perform_get b)]
  cases b.router.bindDivert? divert filter <;> rfl

/-- A broker in which some queues and diverts of a configuration are deployed. -/
structure Carries (c : Config) (store : σ) (ids : IdSupply) (items : List BindingConfig)
    (bindings : List Binding) (b : Broker σ) : Prop where
  fresh : b.Fresh store ids
  config_eq : b.config = c
  settings_eq : b.settings = .ofConfig c
  follows : Registry.Follows c.wildcards b.router.registry (.ofBindings bindings)
  gives : List.Forall₂ (·.Gives (.ofConfig c)) items bindings

theorem carries_ofConfig (walks : WalkOrders) (c : Config) (store : σ) (ids : IdSupply) :
    Carries c store ids [] [] (ofConfig walks c store ids) where
  fresh := fresh_ofConfig walks c store ids
  config_eq := rfl
  settings_eq := rfl
  follows := Registry.follows_empty c.wildcards
  gives := .nil

theorem Carries.map_name (h : Carries c store ids items bindings b) :
    bindings.map Binding.name = items.map BindingConfig.name := by
  have hgives := h.gives
  clear h
  induction hgives with
  | nil => rfl
  | cons hfirst _ ih => rw [List.map_cons, List.map_cons, hfirst.name_eq, ih]

/-- A queue is deployed behind what is there if it obeys the rules and its name is free. -/
theorem Carries.createQueue (h : Carries c store ids items bindings b) {q : QueueConfig}
    (hq : q.Sound) (hname : q.name ∉ items.map BindingConfig.name) :
    ∃ info bd b', b.perform (createQueue q) = (.ok info, b') ∧
      Carries c store ids (items ++ [.queue q]) (bindings ++ [bd]) b' := by
  obtain ⟨⟨address, haddress⟩, ⟨filter, hfilter⟩⟩ := hq
  have hperform := perform_createQueue_of_read b haddress hfilter
  have hfresh := createQueue_keeps_fresh q b h.fresh
  rw [← h.map_name] at hname
  obtain ⟨bd, registry, hadd, hbd, haddr, hfilt, hkind, hfollows⟩ :=
    h.follows.add?_eq_some hname address filter (.queue _)
  dsimp only [Router.bindQueue?] at hperform
  rw [hadd] at hperform
  rw [hperform] at hfresh
  refine ⟨_, bd, _, hperform, hfresh, h.config_eq, h.settings_eq, hfollows, ?_⟩
  refine List.rel_append h.gives (.cons ⟨hbd, haddr ▸ haddress, hfilt ▸ hfilter, ?_⟩ .nil)
  rw [hkind, haddr, h.settings_eq, Address.text_of_ofString haddress]

theorem Carries.createQueue_error (h : Carries c store ids items bindings b) {q : QueueConfig}
    (hq : ¬(q.Sound ∧ q.name ∉ items.map BindingConfig.name)) :
    ∃ e, b.perform (Broker.createQueue q) = (.error e, b) := by
  by_cases hsound : q.Sound
  · have hname : q.name ∈ bindings.map Binding.name := by
      rw [h.map_name]
      exact not_and_not_right.mp hq hsound
    obtain ⟨⟨address, haddress⟩, ⟨filter, hfilter⟩⟩ := hsound
    have hperform := perform_createQueue_of_read b haddress hfilter
    dsimp only [Router.bindQueue?] at hperform
    rw [h.follows.add?_eq_none hname] at hperform
    exact ⟨_, hperform⟩
  · obtain ⟨e, -, hperform⟩ := perform_createQueue_of_not_sound b hsound
    exact ⟨e, hperform⟩

/-- A divert is deployed behind what is there if it obeys the rules and its name is free. -/
theorem Carries.createDivert (h : Carries c store ids items bindings b) {d : DivertConfig}
    (hd : d.Sound c.wildcards) (hname : d.name ∉ items.map BindingConfig.name) :
    ∃ divert bd b', b.perform (createDivert d) = (.ok divert, b') ∧
      Carries c store ids (items ++ [.divert d]) (bindings ++ [bd]) b' := by
  rw [← h.config_eq] at hd
  obtain ⟨address, target, filter, haddress, htarget, hfilter, hwildcard, hself⟩ := hd.read
  have hperform := perform_createDivert_of_read b haddress htarget hfilter hwildcard hself
  have hfresh := createDivert_keeps_fresh d b h.fresh
  rw [← h.map_name] at hname
  obtain ⟨bd, registry, hadd, hbd, haddr, hfilt, hkind, hfollows⟩ :=
    h.follows.add?_eq_some hname address filter (.divert _)
  dsimp only [Router.bindDivert?] at hperform
  rw [hadd] at hperform
  rw [hperform] at hfresh
  refine ⟨_, bd, _, hperform, hfresh, h.config_eq, h.settings_eq, hfollows, ?_⟩
  refine List.rel_append h.gives (.cons ⟨hbd, haddr ▸ haddress, hfilt ▸ hfilter, ?_⟩ .nil)
  exact ⟨target, htarget, by rw [hkind, haddr]⟩

theorem Carries.createDivert_error (h : Carries c store ids items bindings b) {d : DivertConfig}
    (hd : ¬(d.Sound c.wildcards ∧ d.name ∉ items.map BindingConfig.name)) :
    ∃ e, b.perform (Broker.createDivert d) = (.error e, b) := by
  by_cases hsound : d.Sound b.config.wildcards
  · have hname : d.name ∈ bindings.map Binding.name := by
      rw [h.map_name]
      exact not_and_not_right.mp hd (h.config_eq ▸ hsound)
    obtain ⟨address, target, filter, haddress, htarget, hfilter, hwildcard, hself⟩ := hsound.read
    have hperform := perform_createDivert_of_read b haddress htarget hfilter hwildcard hself
    dsimp only [Router.bindDivert?] at hperform
    rw [h.follows.add?_eq_none hname] at hperform
    exact ⟨_, hperform⟩
  · obtain ⟨e, -, hperform⟩ := perform_createDivert_of_not_sound b hsound
    exact ⟨e, hperform⟩

/-- **One thing is deployed** behind what is there if it obeys the rules and its name is free, and
otherwise nothing changes. -/
theorem Carries.perform_create (h : Carries c store ids items bindings b) (item : BindingConfig) :
    ((item.Sound c.wildcards ∧ item.name ∉ items.map BindingConfig.name) ∧
      ∃ bd b', b.perform item.create = (.ok ⟨⟩, b') ∧
        Carries c store ids (items ++ [item]) (bindings ++ [bd]) b') ∨
    (¬(item.Sound c.wildcards ∧ item.name ∉ items.map BindingConfig.name) ∧
      ∃ e, b.perform item.create = (.error e, b)) := by
  by_cases hitem : item.Sound c.wildcards ∧ item.name ∉ items.map BindingConfig.name
  · refine .inl ⟨hitem, ?_⟩
    cases item with
    | queue q =>
        obtain ⟨info, bd, b', hperform, hnext⟩ := h.createQueue hitem.1 hitem.2
        exact ⟨bd, b', by rw [BindingConfig.create, perform_discard, hperform]; rfl, hnext⟩
    | divert d =>
        obtain ⟨divert, bd, b', hperform, hnext⟩ := h.createDivert hitem.1 hitem.2
        exact ⟨bd, b', by rw [BindingConfig.create, perform_discard, hperform]; rfl, hnext⟩
  · refine .inr ⟨hitem, ?_⟩
    cases item with
    | queue q =>
        obtain ⟨e, hperform⟩ := h.createQueue_error hitem
        exact ⟨e, by rw [BindingConfig.create, perform_discard, hperform]; rfl⟩
    | divert d =>
        obtain ⟨e, hperform⟩ := h.createDivert_error hitem
        exact ⟨e, by rw [BindingConfig.create, perform_discard, hperform]; rfl⟩

/-- Things that obey the rules and bring new names are deployed one after another. -/
theorem Carries.forM_create (h : Carries c store ids items bindings b)
    {further : List BindingConfig} (hsound : ∀ item ∈ further, item.Sound c.wildcards)
    (hnames : ((items ++ further).map BindingConfig.name).Nodup) :
    ∃ bindings' b', b.perform (further.forM BindingConfig.create) = (.ok ⟨⟩, b') ∧
      Carries c store ids (items ++ further) bindings' b' := by
  induction further generalizing items bindings b with
  | nil => exact ⟨bindings, b, rfl, by rwa [List.append_nil]⟩
  | cons item further ih =>
      have hfree : item.name ∉ items.map BindingConfig.name := by
        rw [List.map_append, List.nodup_append] at hnames
        exact fun hmem => hnames.2.2 _ hmem _ (.head _) rfl
      obtain ⟨-, bd, b₁, hfirst, hnext⟩ | ⟨hno, -⟩ := h.perform_create item
      · -- What is deployed now stands before the rest, whose names have to differ from its name.
        rw [List.append_cons] at hnames
        obtain ⟨bindings', b', hrest, hlast⟩ :=
          ih hnext (fun other hother => hsound other (.tail _ hother)) hnames
        refine ⟨bindings', b', ?_, by rwa [List.append_cons]⟩
        exact (perform_bind_ok _ hfirst).trans hrest
      · exact absurd ⟨hsound item (.head _), hfree⟩ hno

/-- Nothing else is deployed completely. -/
theorem Carries.of_forM_create (h : Carries c store ids items bindings b)
    (hnames : (items.map BindingConfig.name).Nodup) {further : List BindingConfig} {b' : Broker σ}
    (hperform : b.perform (further.forM BindingConfig.create) = (.ok ⟨⟩, b')) :
    (∀ item ∈ further, item.Sound c.wildcards) ∧
      ((items ++ further).map BindingConfig.name).Nodup := by
  induction further generalizing items bindings b with
  | nil => exact ⟨nofun, by rwa [List.append_nil]⟩
  | cons item further ih =>
      change b.perform (item.create >>= fun _ => further.forM BindingConfig.create) = _ at hperform
      obtain ⟨⟨hsound, hfree⟩, bd, b₁, hfirst, hnext⟩ | ⟨-, e, herror⟩ := h.perform_create item
      · rw [perform_bind_ok _ hfirst] at hperform
        have hlonger : ((items ++ [item]).map BindingConfig.name).Nodup := by
          rw [List.map_append, List.map_singleton, ← List.concat_eq_append]
          exact hnames.concat hfree
        obtain ⟨hothers, hall⟩ := ih hnext hlonger hperform
        exact ⟨List.forall_mem_cons.mpr ⟨hsound, hothers⟩, by rwa [List.append_cons]⟩
      · rw [perform_bind_error _ herror] at hperform
        cases hperform

theorem deployBindings_eq (c : Config) :
    (deployBindings c : BrokerM σ Unit) = c.bindings.forM BindingConfig.create := by
  rw [deployBindings, Config.bindings]
  simp only [List.forM_eq_forM, List.forM_append, List.forM_map]
  rfl

/-- **The bindings of a configuration are deployed if and only if they pass the check.** -/
theorem perform_deployBindings_iff (walks : WalkOrders) (c : Config) (store : σ)
    (ids : IdSupply) :
    (∃ b, (ofConfig walks c store ids).perform (deployBindings c) = (.ok (), b)) ↔
      c.checkBindings = .ok () := by
  have hstart := carries_ofConfig walks c store ids
  rw [Config.checkBindings_eq_ok_iff, deployBindings_eq]
  constructor
  · rintro ⟨b, hperform⟩
    exact hstart.of_forM_create .nil hperform
  · rintro ⟨hsound, hnames⟩
    obtain ⟨-, b, hperform, -⟩ := hstart.forM_create hsound hnames
    exact ⟨b, hperform⟩

/-! ### What is there afterwards -/

/-- What is kept by name for some of the bindings has their number. -/
theorem size_eq_countP {α : Type} {r : Registry} (hr : r.Sound) {d : Dictionary String α}
    {p : Binding → Bool} (h : ∀ name, (d.get? name).isSome = (r.byName.get? name).any p) :
    d.size = r.bindings.countP p := by
  have hnodup : (r.bindings.map Binding.name).Nodup :=
    (r.bindings_perm.map Binding.name).nodup_iff.mpr hr.names_nodup
  have hperm : d.keys.Perm ((r.bindings.filter p).map Binding.name) := by
    refine (List.perm_ext_iff_of_nodup d.nodup_keys
      (hnodup.sublist (List.filter_sublist.map _))).mpr fun name => ?_
    rw [Dictionary.mem_keys_iff, ← Option.isSome_iff_exists, h, Option.any_eq_true, List.mem_map]
    refine exists_congr fun bd => ?_
    rw [List.mem_filter, Registry.mem_bindings_iff, and_right_comm, ← hr.get?_eq_some_iff]
    rfl
  simpa [Dictionary.size, Dictionary.keys, List.countP_eq_length_filter] using hperm.length_eq

/-- The queues and the diverts are counted as their bindings are, of which there are no others. -/
theorem Wired.stats_eq (h : b.Wired) (hr : b.router.registry.Sound) :
    b.stats.queues = b.router.registry.bindings.countP Binding.isQueue ∧
      b.stats.bindings = b.router.registry.bindings.length ∧
      b.stats.bindings = b.stats.queues + b.stats.diverts := by
  have hnamed : ∀ name, (b.queueIds.get? name).isSome =
      (b.router.registry.byName.get? name).any Binding.isQueue := by
    intro name
    rw [h.queueIds_eq]
    rcases b.router.registry.byName.get? name with _ | bd
    · rfl
    · rw [Option.bind_some, Binding.queueId?, Option.any_some]
      cases bd.isQueue <;> rfl
  have hqueues : b.stats.queues = _ := size_eq_countP hr hnamed
  have hdiverts : b.stats.diverts = _ := size_eq_countP hr h.diverts_eq
  have hall : b.stats.bindings = b.router.registry.bindings.length := by
    rw [b.router.registry.bindings_perm.length_eq]
    simp [stats, Registry.size, Registry.named, Dictionary.values, Dictionary.size]
  have hsplit := List.length_eq_countP_add_countP Binding.isQueue
    (l := b.router.registry.bindings)
  simp only [Bool.not_eq_true, Bool.decide_eq_false] at hsplit
  exact ⟨hqueues, hall, by rw [hall, hqueues, hdiverts, hsplit]⟩

/-- A broker has the bindings of a configuration in order, and its queues are empty. -/
structure Deploys (c : Config) (b : Broker σ) : Prop where
  settings_eq : b.settings = .ofConfig c
  gives : List.Forall₂ (·.Gives b.settings) c.bindings b.router.registry.bindings
  numbers_eq : b.router.registry.bindings.map (·.id.number) = List.range' 1 c.bindings.length
  queues_eq : b.stats.queues = c.queues.length
  diverts_eq : b.stats.diverts = c.diverts.length
  bindings_eq : b.stats.bindings = b.stats.queues + b.stats.diverts
  queue_eq : ∀ bd ∈ b.router.registry.bindings, ∀ info, bd.kind = .queue info →
    b.queue? bd.name = some (bd.id, .empty info)
  held_eq : b.stats.held = 0

/-- The queues are those that the configuration begins with. -/
theorem Carries.countP_isQueue (h : Carries c store ids c.bindings bindings b) :
    bindings.countP Binding.isQueue = c.queues.length := by
  have hkinds : ∀ {items : List BindingConfig} {bindings : List Binding},
      List.Forall₂ (·.Gives (.ofConfig c)) items bindings →
        bindings.countP Binding.isQueue = items.countP BindingConfig.isQueue := by
    intro items bindings hgives
    induction hgives with
    | nil => rfl
    | cons hfirst _ ih => rw [List.countP_cons, List.countP_cons, hfirst.isQueue_eq, ih]
  rw [hkinds h.gives, Config.bindings, List.countP_append, List.countP_map, List.countP_map]
  simp [Function.comp_def, BindingConfig.isQueue]

/-- A queue that is bound is deployed under the name of its binding, and is empty. -/
theorem Fresh.queue?_eq (h : b.Fresh store ids) {bd : Binding}
    (hbd : bd ∈ b.router.registry.bindings) {info : QueueInfo} (hkind : bd.kind = .queue info) :
    b.queue? bd.name = some (bd.id, .empty info) := by
  have hmem := Registry.mem_bindings_iff.mp hbd
  have hname := h.router.registry.get?_eq_some_iff.mpr ⟨hmem, rfl⟩
  obtain ⟨q, hq, rfl⟩ := h.router.queue_of_binding bd hmem info hkind
  refine queue?_eq_some_iff.mpr ⟨?_, hq.trans (congrArg some (h.queues_new _ q hq))⟩
  rw [h.wired.queueIds_eq, show b.router.registry.byName.get? bd.name = some bd from hname,
    Option.bind_some, Binding.queueId?, if_pos (Binding.isQueue_eq.mpr ⟨_, hkind⟩)]

/-- A fresh broker holds nothing. -/
theorem Fresh.held_eq (h : b.Fresh store ids) : b.stats.held = 0 := by
  have hnone : ∀ q ∈ b.deployedQueues, q.messageCount = 0 := by
    intro q hq
    obtain ⟨id, -, hid⟩ := List.mem_filterMap.mp hq
    rw [h.queues_new id q hid]
    rfl
  have hsame : ∀ n : Nat, ∀ q ∈ b.deployedQueues, n + q.messageCount = n :=
    fun n q hq => by rw [hnone q hq, Nat.add_zero]
  rw [stats, List.foldl_map, List.foldl_ext _ (fun n _ => n) 0 hsame, List.foldl_fixed]

theorem Carries.deploys (h : Carries c store ids c.bindings bindings b) : b.Deploys c := by
  have hbindings : b.router.registry.bindings = bindings := h.follows.bindings_eq
  have hlength : bindings.length = c.queues.length + c.diverts.length := by
    rw [← h.gives.length_eq, Config.bindings, List.length_append, List.length_map, List.length_map]
  obtain ⟨hqueues, hall, hsum⟩ := h.fresh.wired.stats_eq h.follows.sound
  rw [hbindings, h.countP_isQueue] at hqueues
  rw [hbindings, hlength] at hall
  refine ⟨h.settings_eq, ?_, ?_, hqueues, by omega, hsum, fun bd hbd info hkind => ?_, ?_⟩
  · rw [h.settings_eq, hbindings]
    exact h.gives
  · rw [hbindings, h.gives.length_eq]
    exact h.follows.numbers_eq
  · exact h.fresh.queue?_eq hbd hkind
  · exact h.fresh.held_eq

/-- **A configuration that passes the check is deployed completely**: its queues and then its
diverts are bound in order, each as the configuration says, and the queues are empty. -/
theorem deploys_of_check {levels : String → Bool} {c : Config} (h : c.check levels = .ok ())
    (walks : WalkOrders) (store : σ) (ids : IdSupply) :
    ∃ b, deploy levels walks c store ids = .ok b ∧ b.Deploys c := by
  have hbindings : c.checkBindings = .ok () := by
    simp only [Config.check, bind_eq_ok_iff] at h
    obtain ⟨-, -, -, -, -, -, -, -, hbindings⟩ := h
    exact hbindings
  obtain ⟨hsound, hnames⟩ := Config.checkBindings_eq_ok_iff.mp hbindings
  obtain ⟨bindings, b, hperform, hcarries⟩ :=
    (carries_ofConfig walks c store ids).forM_create hsound hnames
  refine ⟨b, ?_, hcarries.deploys⟩
  rw [deploy, h]
  dsimp only
  rw [deployBindings_eq, hperform]

/-- Queues for the orders of one region and of all, with settings for both, and diverts that copy
all orders and take some of them away. -/
def orderDesk : Config where
  addressSettings :=
    [{ pattern := "orders.#", settings := { maxDeliveryAttempts := some 3 } },
      { pattern := "orders.eu.*", settings := { deadLetterAddress := some "dead" } }]
  queues :=
    [{ name := "eu", address := "orders.eu.*", filter := some "qty > 3" },
      { name := "all", address := "orders.#", durable := false },
      { name := "dead", address := "dead" }]
  diverts :=
    [{ name := "copies", address := "orders.#", forwardingAddress := "audit" },
      { name := "returns", address := "orders.*.returns", forwardingAddress := "dead",
        exclusive := true, filter := some "broken" }]

theorem deploys_of_check_orderDesk :
    orderDesk.check LogLevel.isSound = .ok () ∧
      ∃ b, deploy LogLevel.isSound {} orderDesk ({} : MessageLog) (consecutive 0) = .ok b ∧
        b.Deploys orderDesk := by
  have hcheck : orderDesk.check LogLevel.isSound = .ok () := by decide +kernel
  exact ⟨hcheck, deploys_of_check hcheck _ _ _⟩

end Broker

end Courier
