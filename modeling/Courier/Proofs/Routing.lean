import Courier.Routing
import Courier.Proofs.Queue
import Courier.Proofs.Record
import Courier.Proofs.Registry

/-!
# What a Plan Delivers

A message and the copies that diverts make of it are treated one after another, each at its own
address. A plan is explained by the list of these messages in the order in which they are
treated. Copies get their identifiers in the same order, so the identifiers in that list are the
one of the message and then those that the supply handed out.

## Main results

* `IdSupply.handedOut`: the identifiers between two states of a supply.
* `Registry.deliveriesTo`: the deliveries of one message at its address.
* `Planning.Explains`: a plan in the making, explained by the messages that were treated.
* `Registry.plan_explains`: every plan is explained.
* `Registry.Sound.pairs_nodup`: no queue gets two messages with one identifier.
-/

namespace Courier

/-! ### Identifiers -/

namespace IdSupply

/-- The identifiers whose turns are between two states of a supply. -/
def handedOut (ids : IdSupply) (used : Nat) : List MessageId :=
  (List.range' ids.used (used - ids.used)).map ids.id

@[simp] theorem handedOut_self (ids : IdSupply) : ids.handedOut ids.used = [] := by
  simp [handedOut]

/-- The identifiers of two stretches of turns, one after the other. -/
theorem handedOut_append {ids ids' : IdSupply} {used : Nat} (hid : ids'.id = ids.id)
    (hle : ids.used ≤ ids'.used) (hle' : ids'.used ≤ used) :
    ids.handedOut used = ids.handedOut ids'.used ++ ids'.handedOut used := by
  have hsplit : used - ids.used = (ids'.used - ids.used) + (used - ids'.used) := by omega
  have hstart : ids.used + 1 * (ids'.used - ids.used) = ids'.used := by omega
  rw [handedOut, hsplit, ← List.range'_append, hstart, List.map_append, handedOut, handedOut, hid]

/-- One more turn. -/
theorem handedOut_succ {ids ids' : IdSupply} (hid : ids'.id = ids.id)
    (hle : ids.used ≤ ids'.used) :
    ids.handedOut (ids'.used + 1) = ids.handedOut ids'.used ++ [ids'.next] := by
  rw [handedOut_append hid hle (Nat.le_succ _)]
  simp [handedOut, next]

/-- The next identifier is the first of those to come. -/
theorem handedOut_eq_cons {ids : IdSupply} {used : Nat} (h : ids.used + 1 ≤ used) :
    ids.handedOut used = ids.next :: ids.advance.handedOut used := by
  have hsplit : ids.handedOut used =
      ids.handedOut ids.advance.used ++ ids.advance.handedOut used :=
    handedOut_append rfl (Nat.le_succ _) h
  have hone : ids.handedOut ids.advance.used = [ids.next] := by
    simp [handedOut, advance, next]
  rw [hsplit, hone]
  rfl

end IdSupply

/-! ### Copies -/

theorem Message.Readable.withHeader {m : Message} (h : m.Readable) (header : Header)
    (value : PropertyValue) : (m.withHeader header value).Readable :=
  ⟨h.priority_le, h.properties_made.put header.key value⟩

theorem Message.Readable.forwarded {m : Message} (h : m.Readable) (id : MessageId)
    (target : Address) : (m.forwarded id target).Readable := by
  have hcopy : (m.copy id).Readable := ⟨h.priority_le, h.properties_made⟩
  have hheaders := (hcopy.withHeader .sourceAddress (.string m.address.text)).withHeader
    .sourceMessage (.string m.id.text)
  exact ⟨hheaders.priority_le, hheaders.properties_made⟩

/-! ### One message at its address -/

namespace Binding

theorem mem_queues {bindings : List Binding} {id : BindingId} {q : QueueInfo} :
    (id, q) ∈ queues bindings ↔ ∃ b ∈ bindings, b.id = id ∧ b.kind = .queue q := by
  rw [queues, List.mem_filterMap]
  refine exists_congr fun b => and_congr_right fun _ => ?_
  cases b.kind <;> simp

/-- The numbers of the queues among bindings are numbers of the bindings. -/
theorem ids_queues_sublist (bindings : List Binding) :
    ((queues bindings).map Prod.fst).Sublist (bindings.map Binding.id) := by
  induction bindings with
  | nil => exact .slnil
  | cons b bindings ih =>
      rw [queues, List.filterMap_cons]
      cases b.kind with
      | queue q => exact ih.cons_cons b.id
      | divert d => exact ih.cons b.id

end Binding

namespace Registry

/-- The deliveries of one message at its address. -/
def deliveriesTo (r : Registry) (item : InTransit) : List Delivery :=
  (r.handling item.message item.address).queues.map fun (id, q) =>
    { binding := id, queue := q, message := item.message }

/-- The queues that take a message are those whose bindings accept it, or none. -/
theorem queues_handling_sublist (r : Registry) (m : Message) (address : Address) :
    (r.handling m address).queues.Sublist
      (Binding.queues ((r.bindingsFor address.text).filter (·.accepts m))) := by
  simp only [handling]
  split
  · exact List.nil_sublist _
  · exact .refl _

theorem mem_deliveriesTo {r : Registry} {item : InTransit} {d : Delivery}
    (h : d ∈ r.deliveriesTo item) :
    d.message = item.message ∧ ∃ b ∈ r.bindingsFor item.address.text,
      b.accepts item.message ∧ b.id = d.binding ∧ b.kind = .queue d.queue := by
  obtain ⟨⟨id, q⟩, hq, rfl⟩ := List.mem_map.mp h
  have hmem := (queues_handling_sublist r item.message item.address).subset hq
  obtain ⟨b, hb, hid, hkind⟩ := Binding.mem_queues.mp hmem
  obtain ⟨hb, haccepts⟩ := List.mem_filter.mp hb
  exact ⟨rfl, b, hb, haccepts, hid, hkind⟩

theorem Sound.bindings_deliveriesTo_nodup {r : Registry} (h : r.Sound) (item : InTransit) :
    ((r.deliveriesTo item).map Delivery.binding).Nodup := by
  have hids := (h.ids_bindingsFor_nodup item.address.text).sublist
    ((List.filter_sublist (p := (·.accepts item.message))).map Binding.id)
  have hqueues := hids.sublist ((((queues_handling_sublist r item.message item.address).map
    Prod.fst)).trans (Binding.ids_queues_sublist _))
  simpa [deliveriesTo, Function.comp_def] using hqueues

/-- No queue gets two messages with one identifier. -/
theorem Sound.pairs_nodup {r : Registry} (h : r.Sound) {items : List InTransit}
    (hitems : (items.map fun item => item.message.id).Nodup) :
    ((items.flatMap r.deliveriesTo).map fun d => (d.binding, d.message.id)).Nodup := by
  induction items with
  | nil => exact .nil
  | cons item items ih =>
      obtain ⟨hitem, hrest⟩ := List.nodup_cons.mp hitems
      rw [List.flatMap_cons, List.map_append, List.nodup_append]
      refine ⟨?_, ih hrest, ?_⟩
      · refine List.Nodup.of_map Prod.fst ?_
        simpa [Function.comp_def] using h.bindings_deliveriesTo_nodup item
      · rintro ⟨id, m⟩ hfirst ⟨id', m'⟩ hlater heq
        cases heq
        obtain ⟨d, hd, heq⟩ := List.mem_map.mp hfirst
        obtain ⟨d', hd', heq'⟩ := List.mem_map.mp hlater
        cases heq
        obtain ⟨other, hother, hd'⟩ := List.mem_flatMap.mp hd'
        refine hitem (List.mem_map.mpr ⟨other, hother, ?_⟩)
        dsimp only
        rw [← (mem_deliveriesTo hd).1, ← (mem_deliveriesTo hd').1]
        exact (Prod.mk.inj heq').2

end Registry

/-! ### Rounds -/

namespace Planning

/-- A plan in the making, with the messages that were treated and those that are left in this
round. -/
structure Explains (r : Registry) (m : Message) (ids : IdSupply) (done todo : List InTransit)
    (p : Planning) : Prop where
  deliveries_eq : p.plan.deliveries = done.flatMap r.deliveriesTo
  replay_eq : p.plan.replay = false
  supply_eq : p.ids.id = ids.id
  used_le : ids.used ≤ p.ids.used
  ids_eq : ((done ++ todo ++ p.next).map fun item => item.message.id) =
    m.id :: ids.handedOut p.ids.used
  items : ∀ item ∈ done ++ todo ++ p.next,
    item.message.address = item.address ∧ (m.Readable → item.message.Readable)

variable {r : Registry} {m : Message} {ids : IdSupply} {done todo : List InTransit}
  {p : Planning}

/-- A copy is made with the identifier whose turn it is, or no copy is made. -/
theorem Explains.forward (h : Explains r m ids done todo p) {permitted : Bool} {item : InTransit}
    (hitem : m.Readable → item.message.Readable) (d : BindingId × Divert) :
    Explains r m ids done todo (forward permitted item p d) := by
  rw [Planning.forward]
  split
  · refine ⟨h.deliveries_eq, h.replay_eq, h.supply_eq, Nat.le_succ_of_le h.used_le, ?_, ?_⟩
    · rw [← List.append_assoc, List.map_append, h.ids_eq]
      exact congrArg _ (IdSupply.handedOut_succ h.supply_eq h.used_le).symm
    · intro other hother
      rw [← List.append_assoc] at hother
      rcases List.mem_append.mp hother with hother | hother
      · exact h.items other hother
      · obtain rfl := List.mem_singleton.mp hother
        exact ⟨rfl, fun hm => (hitem hm).forwarded _ _⟩
  · exact ⟨h.deliveries_eq, h.replay_eq, h.supply_eq, h.used_le, h.ids_eq, h.items⟩

theorem Explains.visit {item : InTransit} (h : Explains r m ids done (item :: todo) p)
    (permitted : Bool) :
    Explains r m ids (done ++ [item]) todo (visit r permitted p item) := by
  have hitem := (h.items item (by simp)).2
  have hforward : ∀ diverts : List (BindingId × Divert), ∀ p : Planning,
      Explains r m ids done (item :: todo) p →
      Explains r m ids done (item :: todo) (diverts.foldl (Planning.forward permitted item) p) := by
    intro diverts
    induction diverts with
    | nil => exact fun _ h => h
    | cons d diverts ih => exact fun p h => ih _ (h.forward hitem d)
  have hall := hforward (r.handling item.message item.address).diverts p h
  refine ⟨?_, hall.replay_eq, hall.supply_eq, hall.used_le, ?_, ?_⟩
  · rw [Planning.visit, Planning.deliver, List.flatMap_append, ← hall.deliveries_eq]
    simp [Registry.deliveriesTo]
  · simpa [Planning.visit, Planning.deliver] using hall.ids_eq
  · simpa [Planning.visit, Planning.deliver] using hall.items

/-- A whole round is treated. -/
theorem Explains.round (h : Explains r m ids done todo p) (permitted : Bool) :
    Explains r m ids (done ++ todo) [] (todo.foldl (Planning.visit r permitted) p) := by
  induction todo generalizing done p with
  | nil => simpa using h
  | cons item todo ih =>
      have hrest := ih (h.visit permitted)
      rwa [List.append_assoc] at hrest

/-- Without permission no copies are made. -/
theorem next_round (items : List InTransit) (p : Planning) :
    (items.foldl (Planning.visit r false) p).next = p.next := by
  have hforward : ∀ (item : InTransit) (diverts : List (BindingId × Divert)) (p : Planning),
      (diverts.foldl (Planning.forward false item) p).next = p.next := by
    intro item diverts
    induction diverts with
    | nil => exact fun _ => rfl
    | cons d diverts ih => exact fun p => ih _
  induction items generalizing p with
  | nil => rfl
  | cons item items ih => exact (ih _).trans (hforward item _ p)

/-- All rounds together treat the message and all its copies. -/
theorem Explains.run (h : Explains r m ids done todo p) (hnext : p.next = []) (rounds : Nat) :
    ∃ items, Explains r m ids items [] (Planning.run r rounds todo p) ∧
      (Planning.run r rounds todo p).next = [] := by
  induction rounds generalizing done todo p with
  | zero =>
      cases todo with
      | nil => exact ⟨done, h, hnext⟩
      | cons item todo => exact ⟨_, h.round false, (next_round ..).trans hnext⟩
  | succ rounds ih =>
      cases todo with
      | nil => exact ⟨done, h, hnext⟩
      | cons item todo =>
          have hround := h.round true
          refine ih (p := { ((item :: todo).foldl (Planning.visit r true) p) with next := [] })
            ⟨hround.deliveries_eq, hround.replay_eq, hround.supply_eq, hround.used_le, ?_, ?_⟩ rfl
          · simpa using hround.ids_eq
          · simpa using hround.items

end Planning

namespace Registry

/-- **Every plan is explained** by the message and its copies, in the order of their
identifiers. -/
theorem plan_explains (r : Registry) (maxDivertHops : Nat) (ids : IdSupply) (m : Message) :
    ∃ items : List InTransit,
      (r.plan maxDivertHops ids m m.address).1.deliveries = items.flatMap r.deliveriesTo ∧
      (r.plan maxDivertHops ids m m.address).1.replay = false ∧
      (r.plan maxDivertHops ids m m.address).2.id = ids.id ∧
      ids.used ≤ (r.plan maxDivertHops ids m m.address).2.used ∧
      (items.map fun item => item.message.id) =
        m.id :: ids.handedOut (r.plan maxDivertHops ids m m.address).2.used ∧
      ∀ item ∈ items,
        item.message.address = item.address ∧ (m.Readable → item.message.Readable) := by
  have hstart : Planning.Explains r m ids [] [{ message := m, address := m.address }] { ids } :=
    ⟨rfl, rfl, rfl, Nat.le_refl _, by simp, by simp⟩
  obtain ⟨items, h, hnext⟩ := hstart.run rfl maxDivertHops
  refine ⟨items, h.deliveries_eq, h.replay_eq, h.supply_eq, h.used_le, ?_, ?_⟩
  · have hids := h.ids_eq
    rwa [hnext, List.append_nil, List.append_nil] at hids
  · have hitems := h.items
    rwa [hnext, List.append_nil, List.append_nil] at hitems

end Registry

end Courier
