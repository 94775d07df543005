import Mathlib.Data.List.Shortlex
import Mathlib.Data.Set.Card
import Courier.Proofs.Routing.Handling

/-!
# Plans as Chains of Diverts

A message reaches its address, and its copies reach the addresses that diverts send them on to.
Each of them passed through a chain of different diverts, no longer than is permitted. A plan
delivers exactly these messages to the queues that take them, ordered by the lengths of the
chains, then by the numbers in the chains, then by the numbers of the queues.

The selectors of bindings may look at the identifier of the message that a copy was made of. Which
chains there are depends on the identifiers of copies, so these are given as a function of the
chain, the latest divert first.

Copies are planned in rounds, one for each length of chains. The proof follows the messages that
were treated, those that are left in a round, and the copies for the next round.

## Main definitions

* `InTransit.chain`, `InTransit.Before`: the chain of a message, and the order of messages.
* `Registry.Forwards`, `Registry.Refuses`: the diverts that a chain goes on with, and those that
  a limit stops.
* `Registry.Reaches`: the messages that a message leads to.
* `Planning.Traces`: a plan in the making.

## Main results

* `Planning.Traces.visit`, `Planning.Traces.run`: what is known after a message and after all.
* `Registry.plan_eq_routes`: what a plan delivers, and what it counts.
* `Registry.plan_eq_routes_circle`: a plan for two diverts in a circle.
-/

namespace Courier

/-! ### Chains -/

namespace InTransit

/-- The copy of a message that a divert sends on under an identifier. -/
def through (item : InTransit) (d : BindingId × Divert) (id : MessageId) : InTransit where
  message := d.2.transform item.message id
  address := d.2.forwardingAddress
  passed := d.1 :: item.passed

/-- The numbers of the diverts that a message passed through, the first one first. -/
def chain (item : InTransit) : List Nat :=
  (item.passed.map BindingId.number).reverse

/-- The order of messages: by the lengths of their chains, then by the numbers in them. -/
def Before (item other : InTransit) : Prop :=
  List.Shortlex (· < ·) item.chain other.chain

@[simp] theorem passed_through (item : InTransit) (d : BindingId × Divert) (id : MessageId) :
    (item.through d id).passed = d.1 :: item.passed := rfl

@[simp] theorem id_through (item : InTransit) (d : BindingId × Divert) (id : MessageId) :
    (item.through d id).message.id = id := rfl

theorem length_chain (item : InTransit) : item.chain.length = item.passed.length := by
  simp [chain]

theorem chain_through (item : InTransit) (d : BindingId × Divert) (id : MessageId) :
    (item.through d id).chain = item.chain ++ [d.1.number] := by
  simp [chain]

theorem before_of_length_lt {item other : InTransit}
    (h : item.passed.length < other.passed.length) : item.Before other := by
  refine List.Shortlex.of_length_lt ?_
  rwa [length_chain, length_chain]

/-- Messages that stand one before the other have different chains. -/
theorem Before.passed_ne {item other : InTransit} (h : item.Before other) :
    item.passed ≠ other.passed := by
  intro heq
  have hchain : item.chain = other.chain := by rw [chain, chain, heq]
  rw [Before, hchain] at h
  exact Std.Irrefl.irrefl _ h

theorem before_through_through {item : InTransit} {d e : BindingId × Divert}
    (h : d.1.Before e.1) (id id' : MessageId) :
    (item.through d id).Before (item.through e id') := by
  have hlt : d.1.number < e.1.number := h
  rw [Before, chain_through, chain_through]
  exact List.Shortlex.append_left ((List.shortlex_singleton_iff _ _).mpr hlt) _

/-- Lists of one length keep their lexicographic order when each gets one more item. -/
theorem lex_concat {s t : List Nat} (h : List.Lex (· < ·) s t) (hlength : s.length = t.length)
    (a b : Nat) : List.Lex (· < ·) (s ++ [a]) (t ++ [b]) := by
  induction h with
  | nil => cases hlength
  | cons _ ih => exact .cons (ih (Nat.succ.inj hlength))
  | rel hlt => exact .rel hlt

theorem Before.through {item other : InTransit} (h : item.Before other)
    (hlength : item.passed.length = other.passed.length) (d e : BindingId × Divert)
    (id id' : MessageId) : (item.through d id).Before (other.through e id') := by
  rw [← length_chain, ← length_chain] at hlength
  have hlex := (List.shortlex_iff_lex hlength).mp h
  rw [Before, chain_through, chain_through]
  exact List.Shortlex.of_lex (by simp [hlength]) (lex_concat hlex hlength _ _)

/-- The copies of a message that diverts send on, with identifiers in order. -/
def copies (item : InTransit) (ids : IdSupply) : List (BindingId × Divert) → List InTransit
  | [] => []
  | d :: rest => item.through d ids.next :: item.copies ids.advance rest

theorem mem_copies {item copy : InTransit} {ids : IdSupply} {diverts : List (BindingId × Divert)}
    (h : copy ∈ item.copies ids diverts) :
    ∃ d ∈ diverts, copy = item.through d copy.message.id := by
  induction diverts generalizing ids with
  | nil => cases h
  | cons d diverts ih =>
      rcases List.mem_cons.mp h with rfl | h
      · exact ⟨d, .head _, rfl⟩
      · obtain ⟨e, he, heq⟩ := ih h
        exact ⟨e, .tail _ he, heq⟩

theorem exists_mem_copies {item : InTransit} {ids : IdSupply}
    {diverts : List (BindingId × Divert)} {d : BindingId × Divert} (h : d ∈ diverts) :
    ∃ id, item.through d id ∈ item.copies ids diverts := by
  induction diverts generalizing ids with
  | nil => cases h
  | cons e diverts ih =>
      rcases List.mem_cons.mp h with rfl | h
      · exact ⟨ids.next, .head _⟩
      · have hrest : ∃ id, item.through d id ∈ item.copies ids.advance diverts := ih h
        obtain ⟨id, hid⟩ := hrest
        exact ⟨id, .tail _ hid⟩

@[simp] theorem length_copies (item : InTransit) (ids : IdSupply)
    (diverts : List (BindingId × Divert)) :
    (item.copies ids diverts).length = diverts.length := by
  induction diverts generalizing ids with
  | nil => rfl
  | cons d diverts ih => exact congrArg _ (ih ids.advance)

theorem ids_copies (item : InTransit) (ids : IdSupply) (diverts : List (BindingId × Divert)) :
    ((item.copies ids diverts).map fun copy => copy.message.id) =
      ids.handedOut (ids.used + diverts.length) := by
  induction diverts generalizing ids with
  | nil => exact ids.handedOut_self.symm
  | cons d diverts ih =>
      have husedAfter : ids.advance.used + diverts.length = ids.used + (diverts.length + 1) := by
        rw [IdSupply.advance, Nat.add_assoc, Nat.add_comm 1]
      rw [copies, List.map_cons, ih, List.length_cons, id_through, husedAfter]
      exact (IdSupply.handedOut_eq_cons (by omega)).symm

theorem pairwise_copies {item : InTransit} {ids : IdSupply} {diverts : List (BindingId × Divert)}
    (h : diverts.Pairwise fun d e => d.1.Before e.1) :
    (item.copies ids diverts).Pairwise Before := by
  induction diverts generalizing ids with
  | nil => exact .nil
  | cons d diverts ih =>
      obtain ⟨hfirst, hrest⟩ := List.pairwise_cons.mp h
      refine List.pairwise_cons.mpr ⟨fun copy hcopy => ?_, ih hrest⟩
      obtain ⟨e, he, heq⟩ := mem_copies hcopy
      rw [heq]
      exact before_through_through (hfirst e he) ..

end InTransit

/-! ### The messages that a message leads to -/

namespace Registry

/-- A chain goes on with a divert that sends a copy of the message on: the message did not pass
through it before, and it passed through fewer diverts than are permitted. -/
def Forwards (r : Registry) (maxDivertHops : Nat) (item : InTransit) (d : BindingId × Divert) :
    Prop :=
  r.Diverts item d ∧ d.1 ∉ item.passed ∧ item.passed.length < maxDivertHops

/-- A limit stops a divert that would send a copy of the message on: the message passed through
it before, or passed through as many diverts as are permitted. -/
def Refuses (r : Registry) (maxDivertHops : Nat) (item : InTransit) (d : BindingId × Divert) :
    Prop :=
  r.Diverts item d ∧ (d.1 ∈ item.passed ∨ item.passed.length = maxDivertHops)

/-- The messages that a message at an address leads to: the message itself, and the copies of
such messages that chains go on with. The identifier of a copy is given by its chain. -/
inductive Reaches (r : Registry) (maxDivertHops : Nat) (name : List BindingId → MessageId)
    (m : Message) (address : Address) : InTransit → Prop
  | start : Reaches r maxDivertHops name m address { message := m, address }
  | onward {item : InTransit} {d : BindingId × Divert}
      (reached : Reaches r maxDivertHops name m address item)
      (forwards : r.Forwards maxDivertHops item d) :
      Reaches r maxDivertHops name m address (item.through d (name (d.1 :: item.passed)))

/-- The diverts that a chain goes on with, in the order of their numbers. -/
def onward (r : Registry) (maxDivertHops : Nat) (item : InTransit) : List (BindingId × Divert) :=
  (r.handling item.message item.address).diverts.filter fun d =>
    item.passed.length < maxDivertHops && !item.passed.contains d.1

/-- The diverts that a limit stops, in the order of their numbers. -/
def refused (r : Registry) (maxDivertHops : Nat) (item : InTransit) : List (BindingId × Divert) :=
  (r.handling item.message item.address).diverts.filter fun d =>
    !(item.passed.length < maxDivertHops && !item.passed.contains d.1)

variable {r : Registry} {maxDivertHops : Nat} {item : InTransit}

theorem Sound.mem_onward_iff (h : r.Sound) {d : BindingId × Divert} :
    d ∈ r.onward maxDivertHops item ↔ r.Forwards maxDivertHops item d := by
  rw [onward, List.mem_filter, h.mem_diverts_handling_iff, Forwards]
  simp [and_comm]

theorem Sound.mem_refused_iff (h : r.Sound) (hle : item.passed.length ≤ maxDivertHops)
    {d : BindingId × Divert} :
    d ∈ r.refused maxDivertHops item ↔ r.Refuses maxDivertHops item d := by
  have hlimit : maxDivertHops ≤ item.passed.length ↔ item.passed.length = maxDivertHops := by omega
  rw [refused, List.mem_filter, h.mem_diverts_handling_iff, Refuses]
  simp [hlimit, or_comm]

theorem Sound.pairwise_onward (h : r.Sound) (maxDivertHops : Nat) (item : InTransit) :
    (r.onward maxDivertHops item).Pairwise fun d e => d.1.Before e.1 :=
  (h.pairwise_diverts_handling item).sublist List.filter_sublist

theorem Sound.nodup_refused (h : r.Sound) (maxDivertHops : Nat) (item : InTransit) :
    (r.refused maxDivertHops item).Nodup := by
  refine ((h.pairwise_diverts_handling item).sublist List.filter_sublist).imp fun hbefore heq => ?_
  rw [heq] at hbefore
  exact Nat.lt_irrefl _ hbefore

end Registry

/-! ### Rounds -/

namespace Planning

/-- Whether a divert may send a copy of a message on. -/
def sends (permitted : Bool) (item : InTransit) (d : BindingId × Divert) : Bool :=
  permitted && !item.passed.contains d.1

theorem forward_eq (permitted : Bool) (item : InTransit) (p : Planning) (d : BindingId × Divert) :
    forward permitted item p d =
      if sends permitted item d then
        { plan := { p.plan with diverted := p.plan.diverted + 1 }
          next := p.next ++ [item.through d p.ids.next]
          ids := p.ids.advance }
      else { p with plan := { p.plan with dropped := p.plan.dropped + 1 } } := rfl

/-- The copies that diverts send on, and what is counted. -/
theorem foldl_forward (permitted : Bool) (item : InTransit) (diverts : List (BindingId × Divert))
    (p : Planning) :
    diverts.foldl (forward permitted item) p =
      { plan :=
          { p.plan with
            diverted := p.plan.diverted + (diverts.filter (sends permitted item)).length
            dropped := p.plan.dropped + (diverts.filter fun d => !sends permitted item d).length }
        next := p.next ++ item.copies p.ids (diverts.filter (sends permitted item))
        ids :=
          { p.ids with used := p.ids.used + (diverts.filter (sends permitted item)).length } } := by
  induction diverts generalizing p with
  | nil => simp [InTransit.copies]
  | cons d diverts ih =>
      rw [List.foldl_cons, ih, forward_eq]
      cases hsent : sends permitted item d with
      | true =>
          simp [hsent, InTransit.copies, IdSupply.advance, Nat.add_assoc, Nat.add_comm 1]
      | false => simp [hsent, Nat.add_assoc, Nat.add_comm 1]

/-- What treating a message adds to a plan. -/
theorem visit_eq (r : Registry) (maxDivertHops : Nat) (p : Planning) (item : InTransit) :
    visit r (item.passed.length < maxDivertHops) p item =
      { plan :=
          { p.plan with
            deliveries := p.plan.deliveries ++ r.deliveriesTo item
            diverted := p.plan.diverted + (r.onward maxDivertHops item).length
            dropped := p.plan.dropped + (r.refused maxDivertHops item).length }
        next := p.next ++ item.copies p.ids (r.onward maxDivertHops item)
        ids := { p.ids with used := p.ids.used + (r.onward maxDivertHops item).length } } := by
  rw [visit, foldl_forward]
  rfl

/-- A plan in the making, with the messages that were treated and those that are left in this
round. The chains of the messages in a round have one length. -/
structure Traces (r : Registry) (maxDivertHops : Nat) (start : InTransit) (ids : IdSupply)
    (depth : Nat) (done todo : List InTransit) (p : Planning) : Prop where
  deliveries_eq : p.plan.deliveries = done.flatMap r.deliveriesTo
  diverted_eq : p.plan.diverted =
    (done ++ todo ++ p.next).countP fun item => !item.passed.isEmpty
  dropped_eq : p.plan.dropped = (done.map fun item => (r.refused maxDivertHops item).length).sum
  supply_eq : p.ids.id = ids.id
  used_le : ids.used ≤ p.ids.used
  ids_eq : ((done ++ todo ++ p.next).map fun item => item.message.id) =
    start.message.id :: ids.handedOut p.ids.used
  sorted : (done ++ todo ++ p.next).Pairwise InTransit.Before
  start_mem : start ∈ done ++ todo ++ p.next
  origin : ∀ item ∈ done ++ todo ++ p.next, item = start ∨
    ∃ before ∈ done, ∃ d, r.Forwards maxDivertHops before d ∧
      item = before.through d item.message.id
  onward : ∀ item ∈ done, ∀ d, r.Forwards maxDivertHops item d →
    ∃ id, item.through d id ∈ done ++ todo ++ p.next
  length_done : ∀ item ∈ done, item.passed.length ≤ depth
  length_todo : ∀ item ∈ todo, item.passed.length = depth
  length_next : ∀ item ∈ p.next, item.passed.length = depth + 1

variable {r : Registry} {maxDivertHops : Nat} {start : InTransit} {ids : IdSupply} {depth : Nat}
  {done todo : List InTransit} {p : Planning}

/-- A copy for the next round was made of an earlier message of this round. -/
theorem Traces.next_origin (h : Traces r maxDivertHops start ids depth done todo p)
    (hstart : start.passed = []) {item : InTransit} (hitem : item ∈ p.next) :
    ∃ before ∈ done, ∃ d, before.passed.length = depth ∧ before.passed.length < maxDivertHops ∧
      item = before.through d item.message.id := by
  have hlength := h.length_next item hitem
  rcases h.origin item (List.mem_append_right _ hitem) with rfl | ⟨before, hbefore, d, hd, heq⟩
  · rw [hstart] at hlength
    cases hlength
  · refine ⟨before, hbefore, d, ?_, hd.2.2, heq⟩
    rw [heq, InTransit.passed_through, List.length_cons] at hlength
    exact Nat.succ.inj hlength

/-- The copies of a message come behind all messages so far. -/
theorem Traces.before_copies {item : InTransit}
    (h : Traces r maxDivertHops start ids depth done (item :: todo) p)
    (hstart : start.passed = []) {other : InTransit}
    (hother : other ∈ done ++ item :: todo ++ p.next) (d : BindingId × Divert) (id : MessageId) :
    other.Before (item.through d id) := by
  have hdepth := h.length_todo item (.head _)
  rcases List.mem_append.mp hother with hother | hother
  · refine InTransit.before_of_length_lt ?_
    rw [InTransit.passed_through, List.length_cons, hdepth]
    rcases List.mem_append.mp hother with hother | hother
    · exact Nat.lt_succ_of_le (h.length_done other hother)
    · exact Nat.lt_succ_of_le (Nat.le_of_eq (h.length_todo other hother))
  · -- An earlier message of this round has earlier copies.
    obtain ⟨before, hbefore, e, hlength, -, heq⟩ := h.next_origin hstart hother
    have hearlier : before.Before item := by
      have hsorted := (List.pairwise_append.mp h.sorted).1
      exact (List.pairwise_append.mp hsorted).2.2 before hbefore item (.head _)
    rw [heq]
    exact hearlier.through (hlength.trans hdepth.symm) ..

/-- **A message is treated.** -/
theorem Traces.visit {item : InTransit} (hr : r.Sound)
    (h : Traces r maxDivertHops start ids depth done (item :: todo) p)
    (hstart : start.passed = []) :
    Traces r maxDivertHops start ids depth (done ++ [item]) todo
      (visit r (depth < maxDivertHops) p item) := by
  have hdepth := h.length_todo item (.head _)
  have hvisit := visit_eq r maxDivertHops p item
  simp only [hdepth] at hvisit
  rw [hvisit]
  generalize hcopies : item.copies p.ids (r.onward maxDivertHops item) = copies
  have hall : done ++ [item] ++ todo ++ (p.next ++ copies) =
      done ++ item :: todo ++ p.next ++ copies := by simp
  have hmade : ∀ copy ∈ copies, ∃ d, r.Forwards maxDivertHops item d ∧
      copy = item.through d copy.message.id := by
    intro copy hcopy
    subst hcopies
    obtain ⟨d, hd, heq⟩ := InTransit.mem_copies hcopy
    exact ⟨d, hr.mem_onward_iff.mp hd, heq⟩
  refine ⟨?_, ?_, ?_, h.supply_eq, Nat.le_add_right_of_le h.used_le, ?_, ?_, ?_, ?_, ?_, ?_, ?_, ?_⟩
  · rw [List.flatMap_append, ← h.deliveries_eq]
    simp
  · have hcount : copies.countP (fun copy => !copy.passed.isEmpty) = copies.length := by
      refine List.countP_eq_length.mpr fun copy hcopy => ?_
      obtain ⟨d, -, heq⟩ := hmade copy hcopy
      rw [heq]
      rfl
    rw [hall, List.countP_append, ← h.diverted_eq, hcount, ← hcopies, InTransit.length_copies]
  · simp [h.dropped_eq]
  · rw [hall, List.map_append, h.ids_eq, ← hcopies, InTransit.ids_copies, List.cons_append]
    exact congrArg _
      (IdSupply.handedOut_append h.supply_eq h.used_le (Nat.le_add_right ..)).symm
  · rw [hall]
    refine List.pairwise_append.mpr ⟨h.sorted, ?_, fun other hother copy hcopy => ?_⟩
    · rw [← hcopies]
      exact InTransit.pairwise_copies (hr.pairwise_onward maxDivertHops item)
    · obtain ⟨d, -, heq⟩ := hmade copy hcopy
      rw [heq]
      exact h.before_copies hstart hother ..
  · rw [hall]
    exact List.mem_append_left _ h.start_mem
  · intro other hother
    rw [hall] at hother
    rcases List.mem_append.mp hother with hother | hother
    · rcases h.origin other hother with heq | ⟨before, hbefore, hfrom⟩
      · exact .inl heq
      · exact .inr ⟨before, List.mem_append_left _ hbefore, hfrom⟩
    · obtain ⟨d, hd, heq⟩ := hmade other hother
      exact .inr ⟨item, List.mem_append_right _ (.head _), d, hd, heq⟩
  · intro other hother d hd
    rw [hall]
    rcases List.mem_append.mp hother with hother | hother
    · obtain ⟨id, hid⟩ := h.onward other hother d hd
      exact ⟨id, List.mem_append_left _ hid⟩
    · obtain rfl := List.mem_singleton.mp hother
      subst hcopies
      obtain ⟨id, hid⟩ := InTransit.exists_mem_copies (hr.mem_onward_iff.mpr hd)
      exact ⟨id, List.mem_append_right _ hid⟩
  · intro other hother
    rcases List.mem_append.mp hother with hother | hother
    · exact h.length_done other hother
    · obtain rfl := List.mem_singleton.mp hother
      exact Nat.le_of_eq hdepth
  · exact fun other hother => h.length_todo other (.tail _ hother)
  · intro other hother
    rcases List.mem_append.mp hother with hother | hother
    · exact h.length_next other hother
    · obtain ⟨d, -, heq⟩ := hmade other hother
      rw [heq, InTransit.passed_through, List.length_cons, hdepth]

/-- A whole round is treated. -/
theorem Traces.round (hr : r.Sound) (h : Traces r maxDivertHops start ids depth done todo p)
    (hstart : start.passed = []) :
    Traces r maxDivertHops start ids depth (done ++ todo) []
      (todo.foldl (Planning.visit r (depth < maxDivertHops)) p) := by
  induction todo generalizing done p with
  | nil => simpa using h
  | cons item todo ih =>
      have hrest := ih (h.visit hr hstart)
      rwa [List.append_assoc] at hrest

/-- The copies of one round are the messages of the next. -/
theorem Traces.nextRound (h : Traces r maxDivertHops start ids depth done [] p) :
    Traces r maxDivertHops start ids (depth + 1) done p.next { p with next := [] } := by
  have hall : done ++ p.next ++ [] = done ++ [] ++ p.next := by simp
  refine ⟨h.deliveries_eq, ?_, h.dropped_eq, h.supply_eq, h.used_le, ?_, ?_, ?_, ?_, ?_,
    fun item hitem => Nat.le_succ_of_le (h.length_done item hitem), h.length_next,
    fun _ hitem => absurd hitem List.not_mem_nil⟩
  all_goals rw [hall]
  · exact h.diverted_eq
  · exact h.ids_eq
  · exact h.sorted
  · exact h.start_mem
  · exact h.origin
  · exact h.onward

/-- **All rounds together** treat the message and all its copies. -/
theorem Traces.run (hr : r.Sound) (h : Traces r maxDivertHops start ids depth done todo p)
    (hstart : start.passed = []) (hnext : p.next = []) {left : Nat}
    (hleft : depth + left = maxDivertHops) :
    ∃ last items, last ≤ maxDivertHops ∧
      Traces r maxDivertHops start ids last items [] (Planning.run r left todo p) ∧
      (Planning.run r left todo p).next = [] := by
  induction left generalizing depth done todo p with
  | zero =>
      have hlast : depth ≤ maxDivertHops := Nat.le_of_eq hleft
      cases todo with
      | nil => exact ⟨depth, done, hlast, h, hnext⟩
      | cons item todo =>
          have hend : ¬depth < maxDivertHops := by omega
          have hround := h.round hr hstart
          rw [decide_eq_false hend] at hround
          exact ⟨depth, _, hlast, hround, (next_round ..).trans hnext⟩
  | succ left ih =>
      cases todo with
      | nil => exact ⟨depth, done, by omega, h, hnext⟩
      | cons item todo =>
          have hmore : depth < maxDivertHops := by omega
          have hround := h.round hr hstart
          rw [decide_eq_true hmore] at hround
          exact ih hround.nextRound rfl (by omega)

/-- The treated messages are those that the first message leads to. -/
theorem Traces.mem_iff_reaches {items : List InTransit} {m : Message} {address : Address}
    (h : Traces r maxDivertHops { message := m, address } ids depth items [] p)
    (hnext : p.next = []) {name : List BindingId → MessageId}
    (hname : ∀ item ∈ items, name item.passed = item.message.id) (item : InTransit) :
    item ∈ items ↔ r.Reaches maxDivertHops name m address item := by
  have hall : items ++ [] ++ p.next = items := by simp [hnext]
  constructor
  · intro hitem
    -- The message that a copy was made of has a shorter chain.
    induction hlength : item.passed.length using Nat.strongRecOn generalizing item with
    | ind length ih =>
        rcases h.origin item (by rwa [hall]) with rfl | ⟨before, hbefore, d, hd, heq⟩
        · exact .start
        · have hid := hname item hitem
          rw [heq, InTransit.passed_through, InTransit.id_through] at hid
          rw [heq, ← hid]
          refine .onward (ih before.passed.length ?_ before hbefore rfl) hd
          rw [← hlength, heq]
          exact Nat.lt_succ_self _
  · intro hreaches
    induction hreaches with
    | start =>
        have hmem := h.start_mem
        rwa [hall] at hmem
    | @onward before d _ hd ih =>
        obtain ⟨id, hid⟩ := h.onward before ih d hd
        rw [hall] at hid
        have hnamed := hname _ hid
        rw [InTransit.passed_through, InTransit.id_through] at hnamed
        rwa [hnamed]

end Planning

/-! ### Plans -/

namespace Registry

/-- Every plan is traced by the messages that were treated for it. -/
theorem Sound.exists_traces {r : Registry} (h : r.Sound) (maxDivertHops : Nat) (ids : IdSupply)
    (m : Message) (address : Address) :
    ∃ last items, last ≤ maxDivertHops ∧
      Planning.Traces r maxDivertHops { message := m, address } ids last items []
        (Planning.run r maxDivertHops [{ message := m, address }] { ids }) ∧
      (Planning.run r maxDivertHops [{ message := m, address }] { ids }).next = [] := by
  have hstart : Planning.Traces r maxDivertHops { message := m, address } ids 0 []
      [{ message := m, address }] { ids } :=
    ⟨rfl, rfl, rfl, rfl, Nat.le_refl _, by simp, List.pairwise_singleton .., .head _, by simp,
      fun _ hitem => absurd hitem List.not_mem_nil, fun _ hitem => absurd hitem List.not_mem_nil,
      by simp, fun _ hitem => absurd hitem List.not_mem_nil⟩
  exact hstart.run h rfl rfl (Nat.zero_add _)

/-- The message of each chain, in a list with different chains. -/
theorem exists_name {items : List InTransit} (h : items.Pairwise InTransit.Before) :
    ∃ name : List BindingId → MessageId, ∀ item ∈ items, name item.passed = item.message.id := by
  induction items with
  | nil => exact ⟨fun _ => ⟨0⟩, fun _ hitem => absurd hitem List.not_mem_nil⟩
  | cons item items ih =>
      obtain ⟨hfirst, hrest⟩ := List.pairwise_cons.mp h
      obtain ⟨name, hname⟩ := ih hrest
      refine ⟨Function.update name item.passed item.message.id, fun other hother => ?_⟩
      rcases List.mem_cons.mp hother with rfl | hother
      · exact Function.update_self ..
      · rw [Function.update_of_ne (hfirst other hother).passed_ne.symm]
        exact hname other hother

/-- What holds of a message and of the copies of every message of which it holds, holds of all
messages that the message leads to. -/
theorem Reaches.of_forwarded {r : Registry} {maxDivertHops : Nat}
    {name : List BindingId → MessageId} {m : Message} {address : Address} {item : InTransit}
    {P : Message → Prop} (h : r.Reaches maxDivertHops name m address item)
    (hforwarded : ∀ m id target, P m → P (m.forwarded id target)) (hm : P m) : P item.message := by
  induction h with
  | start => exact hm
  | onward _ _ ih => exact hforwarded _ _ _ ih

/-- A plan delivers messages that the message leads to, under its own identifier or one that the
supply hands out, to queues that take them. -/
theorem Sound.exists_reaches_of_mem_plan {r : Registry} (h : r.Sound) {maxDivertHops : Nat}
    {ids : IdSupply} {m : Message} {address : Address} {d : Delivery}
    (hd : d ∈ (r.plan maxDivertHops ids m address).1.deliveries) :
    ∃ name item, r.Reaches maxDivertHops name m address item ∧ item.message = d.message ∧
      d.message.id ∈ m.id :: ids.handedOut (r.plan maxDivertHops ids m address).2.used ∧
      r.Takes item (d.binding, d.queue) := by
  obtain ⟨last, items, -, htraces, hnext⟩ := h.exists_traces maxDivertHops ids m address
  have hall : items ++ [] ++ (Planning.run r maxDivertHops [{ message := m, address }]
      { ids }).next = items := by simp [hnext]
  obtain ⟨name, hname⟩ := exists_name (hall ▸ htraces.sorted)
  have hids := htraces.ids_eq
  rw [plan, htraces.deliveries_eq] at hd
  rw [hall] at hids
  obtain ⟨item, hitem, hd⟩ := List.mem_flatMap.mp hd
  obtain ⟨q, hq, rfl⟩ := List.mem_map.mp hd
  refine ⟨name, item, (htraces.mem_iff_reaches hnext hname item).mp hitem, rfl, ?_,
    h.mem_queues_handling_iff.mp hq⟩
  exact hids ▸ List.mem_map_of_mem (f := fun item => item.message.id) hitem

/-- What holds of a message and of the copies of every message of which it holds, holds of all
messages that a plan delivers. -/
theorem Sound.of_mem_plan {r : Registry} (h : r.Sound) {maxDivertHops : Nat} {ids : IdSupply}
    {m : Message} {address : Address} {d : Delivery} {P : Message → Prop}
    (hd : d ∈ (r.plan maxDivertHops ids m address).1.deliveries)
    (hforwarded : ∀ m id target, P m → P (m.forwarded id target)) (hm : P m) : P d.message := by
  obtain ⟨name, item, hreaches, hmessage, -⟩ := h.exists_reaches_of_mem_plan hd
  exact hmessage ▸ hreaches.of_forwarded hforwarded hm

/-! ### Routes and refusals -/

/-- The order of deliveries: by the messages, then by the numbers of the queues. -/
def RouteBefore (route other : InTransit × BindingId × QueueInfo) : Prop :=
  route.1.Before other.1 ∨ route.1 = other.1 ∧ route.2.1.Before other.2.1

/-- Messages with the queues that take them. -/
def routes (r : Registry) (items : List InTransit) : List (InTransit × BindingId × QueueInfo) :=
  items.flatMap fun item => (r.handling item.message item.address).queues.map fun q => (item, q)

/-- Messages with the diverts that a limit stops. -/
def refusals (r : Registry) (maxDivertHops : Nat) (items : List InTransit) :
    List (InTransit × BindingId × Divert) :=
  items.flatMap fun item => (r.refused maxDivertHops item).map fun d => (item, d)

variable {r : Registry} {maxDivertHops : Nat} {items : List InTransit}

theorem Sound.mem_routes_iff (h : r.Sound) {item : InTransit} {q : BindingId × QueueInfo} :
    (item, q) ∈ r.routes items ↔ item ∈ items ∧ r.Takes item q := by
  rw [← h.mem_queues_handling_iff]
  simp [routes]

theorem Sound.pairwise_routes (h : r.Sound) (hitems : items.Pairwise InTransit.Before) :
    (r.routes items).Pairwise RouteBefore := by
  refine List.pairwise_flatMap.mpr ⟨fun item _ => ?_, hitems.imp fun hbefore => ?_⟩
  · refine List.pairwise_map.mpr ((h.pairwise_queues_handling item).imp fun hbefore => ?_)
    exact .inr ⟨rfl, hbefore⟩
  · intro route hroute other hother
    obtain ⟨q, -, rfl⟩ := List.mem_map.mp hroute
    obtain ⟨q', -, rfl⟩ := List.mem_map.mp hother
    exact .inl hbefore

theorem flatMap_deliveriesTo (r : Registry) (items : List InTransit) :
    items.flatMap r.deliveriesTo = (r.routes items).map fun (item, id, q) =>
      { binding := id, queue := q, message := item.message } := by
  rw [routes, List.map_flatMap]
  refine List.flatMap_congr fun item _ => ?_
  rw [List.map_map]
  rfl

theorem Sound.mem_refusals_iff (h : r.Sound)
    (hlength : ∀ item ∈ items, item.passed.length ≤ maxDivertHops) {item : InTransit}
    {d : BindingId × Divert} :
    (item, d) ∈ r.refusals maxDivertHops items ↔
      item ∈ items ∧ r.Refuses maxDivertHops item d := by
  have hmem : (item, d) ∈ r.refusals maxDivertHops items ↔
      item ∈ items ∧ d ∈ r.refused maxDivertHops item := by simp [refusals]
  rw [hmem]
  exact and_congr_right fun hitem => h.mem_refused_iff (hlength item hitem)

theorem Sound.nodup_refusals (h : r.Sound) (maxDivertHops : Nat) (hitems : items.Nodup) :
    (r.refusals maxDivertHops items).Nodup := by
  refine List.nodup_flatMap.mpr ⟨fun item _ => ?_, hitems.imp fun hne => ?_⟩
  · exact (h.nodup_refused maxDivertHops item).map (Prod.mk_right_injective item)
  · intro refusal hrefusal hother
    obtain ⟨d, -, rfl⟩ := List.mem_map.mp hrefusal
    obtain ⟨d', -, heq⟩ := List.mem_map.mp hother
    exact hne (congrArg Prod.fst heq).symm

theorem length_refusals (r : Registry) (maxDivertHops : Nat) (items : List InTransit) :
    (r.refusals maxDivertHops items).length =
      (items.map fun item => (r.refused maxDivertHops item).length).sum := by
  simp [refusals, List.length_flatMap]

/-- The members of a list with no item twice are as many as its items. -/
theorem encard_eq_length {α : Type} {items : List α} {members : Set α} (h : items.Nodup)
    (hmembers : ∀ item, item ∈ items ↔ item ∈ members) :
    members.encard = (items.length : ℕ∞) := by
  classical
  have hset : members = (items.toFinset : Set α) := by
    ext item
    simp [hmembers]
  rw [hset, Set.encard_coe_eq_coe_finsetCard, List.toFinset_card_of_nodup h]

/-- **What a plan delivers and counts.** There are identifiers for the copies, handed out in the
order of the chains, such that

* a plan delivers each message that the message leads to, the message itself included, to the
  queues that take it, in the order of the chains and of the queues;
* it counts the copies, and the diverts that were stopped by a limit. -/
theorem plan_eq_routes {r : Registry} (h : r.Made) (maxDivertHops : Nat) (ids : IdSupply)
    (m : Message) (address : Address) :
    ∃ (name : List BindingId → MessageId) (items : List InTransit)
      (routes : List (InTransit × BindingId × QueueInfo)),
      (∀ item, item ∈ items ↔ r.Reaches maxDivertHops name m address item) ∧
      items.Pairwise InTransit.Before ∧
      (items.map fun item => item.message.id) =
        m.id :: ids.handedOut (r.plan maxDivertHops ids m address).2.used ∧
      (∀ item q, (item, q) ∈ routes ↔
        r.Reaches maxDivertHops name m address item ∧ r.Takes item q) ∧
      routes.Pairwise RouteBefore ∧
      (r.plan maxDivertHops ids m address).1.deliveries = (routes.map fun (item, id, q) =>
        { binding := id, queue := q, message := item.message }) ∧
      {item | r.Reaches maxDivertHops name m address item ∧ item.passed ≠ []}.encard =
        (r.plan maxDivertHops ids m address).1.diverted ∧
      {refusal : InTransit × BindingId × Divert |
          r.Reaches maxDivertHops name m address refusal.1 ∧
            r.Refuses maxDivertHops refusal.1 refusal.2}.encard =
        (r.plan maxDivertHops ids m address).1.dropped := by
  have hr := h.sound
  obtain ⟨last, items, hlast, htraces, hnext⟩ := hr.exists_traces maxDivertHops ids m address
  have hall : items ++ [] ++ (Planning.run r maxDivertHops [{ message := m, address }]
      { ids }).next = items := by simp [hnext]
  have hsorted : items.Pairwise InTransit.Before := hall ▸ htraces.sorted
  have hnodup : items.Nodup := hsorted.imp fun hbefore heq =>
    hbefore.passed_ne (congrArg InTransit.passed heq)
  obtain ⟨name, hname⟩ := exists_name hsorted
  have hmem := htraces.mem_iff_reaches hnext hname
  refine ⟨name, items, r.routes items, hmem, hsorted, hall ▸ htraces.ids_eq, fun item q => ?_,
    hr.pairwise_routes hsorted, htraces.deliveries_eq.trans (r.flatMap_deliveriesTo items), ?_, ?_⟩
  · rw [hr.mem_routes_iff, hmem]
  · have hcount := htraces.diverted_eq
    rw [hall, List.countP_eq_length_filter] at hcount
    refine (encard_eq_length (hnodup.filter _) fun item => ?_).trans
      (congrArg Nat.cast hcount.symm)
    rw [List.mem_filter, hmem]
    simp
  · have hlength : ∀ item ∈ items, item.passed.length ≤ maxDivertHops := fun item hitem =>
      Nat.le_trans (htraces.length_done item hitem) hlast
    have hcount := htraces.dropped_eq.trans (length_refusals r maxDivertHops items).symm
    refine (encard_eq_length (hr.nodup_refusals maxDivertHops hnodup) fun refusal => ?_).trans
      (congrArg Nat.cast hcount.symm)
    rw [hr.mem_refusals_iff hlength, hmem]
    rfl

/-- The registry with a binding for all messages, if its name is free. -/
def bound (r : Registry) (name : String) (address : Address) (kind : BindingKind) : Registry :=
  ((r.add? name address none kind).map Prod.snd).getD r

theorem Made.bound {r : Registry} (h : r.Made) (name : String) (address : Address)
    (kind : BindingKind) : (r.bound name address kind).Made := by
  rw [Registry.bound]
  cases hadd : r.add? name address none kind with
  | none => exact h
  | some added => exact .add h hadd

/-- The address of a queue. -/
def depot : Address := ⟨"depot", by decide⟩

/-- The address that a divert sends copies to. -/
def transit : Address := ⟨"transit", by decide⟩

/-- Two diverts in a circle, and a queue where the first of them takes messages from. -/
def circle : Registry :=
  (((empty {}).bound "depot" depot (.queue { name := "depot", address := depot })).bound
    "out" depot
      (.divert { name := "out", address := depot, forwardingAddress := transit })).bound
    "back" transit
      (.divert { name := "back", address := transit, forwardingAddress := depot })

/-- A message for the queue. -/
def parcel : Message where
  id := ⟨1⟩
  address := depot
  timestamp := .epoch

/-- Identifiers for copies. -/
def labels : IdSupply where
  id turn := ⟨BitVec.ofNat 128 (2 + turn)⟩

/-- A message goes around the circle once: two copies are made, the queue gets the message and the
second copy, and the first divert does not send that copy on again. -/
theorem plan_eq_routes_circle :
    circle.Made ∧
      ∃ (name : List BindingId → MessageId) (routes : List (InTransit × BindingId × QueueInfo)),
        routes.length = 2 ∧
        (∀ item q, (item, q) ∈ routes ↔
          circle.Reaches 10 name parcel depot item ∧ circle.Takes item q) ∧
        {item | circle.Reaches 10 name parcel depot item ∧ item.passed ≠ []}.encard = 2 ∧
        {refusal : InTransit × BindingId × Divert |
          circle.Reaches 10 name parcel depot refusal.1 ∧
            circle.Refuses 10 refusal.1 refusal.2}.encard = 1 := by
  have hmade : circle.Made := (((Made.empty {}).bound ..).bound ..).bound ..
  have hplan : (circle.plan 10 labels parcel depot).1.deliveries.length = 2 ∧
      (circle.plan 10 labels parcel depot).1.diverted = 2 ∧
      (circle.plan 10 labels parcel depot).1.dropped = 1 := by decide +kernel
  obtain ⟨hqueued, hcopies, hstopped⟩ := hplan
  obtain ⟨name, items, routes, -, -, -, hroutes, -, hdeliveries, hdiverted, hdropped⟩ :=
    plan_eq_routes hmade 10 labels parcel depot
  refine ⟨hmade, name, routes, ?_, hroutes, ?_, ?_⟩
  · rw [← hqueued, hdeliveries, List.length_map]
  · rw [hdiverted, hcopies]
    rfl
  · rw [hdropped, hstopped]
    rfl

end Registry

end Courier
