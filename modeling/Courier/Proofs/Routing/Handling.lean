import Courier.Proofs.Routing

/-!
# Which Bindings Handle a Message

The bindings that match a message at its address are those whose pattern matches the address and
whose selector picks the message. If there are exclusive diverts among them, the earliest of
these has the message to itself. Otherwise all diverts and all queues get it, in the order in
which they were registered.

## Main definitions

* `Registry.Made`: the registries that come about by registering and withdrawing bindings.
* `Registry.MatchesAt`: the bindings that match a message at its address.
* `Registry.Diverts`, `Registry.Takes`: the diverts that send a copy of a message on, and the
  queues that take it.

## Main results

* `Registry.Sound.mem_diverts_handling_iff`, `Registry.Sound.mem_queues_handling_iff`: what the
  bindings at an address do with a message.
-/

namespace Courier

namespace Registry

/-- The registries that come about by registering bindings and withdrawing them. -/
inductive Made : Registry → Prop
  | empty (w : Wildcards) : Made (empty w)
  | add {r r' : Registry} {name : String} {address : Address} {filter : Option Selector}
      {kind : BindingKind} {b : Binding} (made : Made r)
      (added : r.add? name address filter kind = some (b, r')) : Made r'
  | remove {r r' : Registry} {name : String} {b : Binding} (made : Made r)
      (removed : r.remove? name = some (b, r')) : Made r'

theorem Made.sound {r : Registry} (h : r.Made) : r.Sound := by
  induction h with
  | empty w => exact sound_empty w
  | add _ added ih => exact (ih.add? added).1
  | remove _ removed ih => exact (ih.remove? removed).1

/-! ### The bindings that match a message -/

/-- A binding matches a message at its address: its pattern matches the address, and its selector
picks the message. -/
def MatchesAt (r : Registry) (item : InTransit) (b : Binding) : Prop :=
  b ∈ r.named ∧ r.wildcards.matches b.address.text item.address.text ∧ b.accepts item.message

/-- The bindings that match a message, in the order of their numbers. -/
def matching (r : Registry) (item : InTransit) : List Binding :=
  (r.bindingsFor item.address.text).filter (·.accepts item.message)

/-- No divert has the message to itself. -/
def Shared (r : Registry) (item : InTransit) : Prop :=
  ∀ b, r.MatchesAt item b → b.isExclusive = false

/-- A divert sends a copy of a message on: it matches the message, and it is the earliest
exclusive divert that does, or no exclusive divert does. -/
def Diverts (r : Registry) (item : InTransit) (d : BindingId × Divert) : Prop :=
  ∃ b, r.MatchesAt item b ∧ b.id = d.1 ∧ b.kind = .divert d.2 ∧
    ((b.isExclusive ∧
      ∀ c, r.MatchesAt item c → c.isExclusive → b.id.number ≤ c.id.number) ∨ r.Shared item)

/-- A queue takes a message: it matches the message, and no exclusive divert does. -/
def Takes (r : Registry) (item : InTransit) (q : BindingId × QueueInfo) : Prop :=
  (∃ b, r.MatchesAt item b ∧ b.id = q.1 ∧ b.kind = .queue q.2) ∧ r.Shared item

variable {r : Registry} {item : InTransit}

theorem Sound.mem_matching_iff (h : r.Sound) {b : Binding} :
    b ∈ r.matching item ↔ r.MatchesAt item b := by
  rw [matching, List.mem_filter, h.mem_bindingsFor_iff, MatchesAt, and_assoc]

theorem Sound.pairwise_matching (h : r.Sound) (item : InTransit) :
    (r.matching item).Pairwise fun b c => b.id.Before c.id :=
  (h.pairwise_bindingsFor _).sublist List.filter_sublist

end Registry

/-! ### What is done with a message -/

namespace Binding

theorem mem_diverts {bindings : List Binding} {id : BindingId} {d : Divert} :
    (id, d) ∈ diverts bindings ↔ ∃ b ∈ bindings, b.id = id ∧ b.kind = .divert d := by
  rw [diverts, List.mem_filterMap]
  refine exists_congr fun b => and_congr_right fun _ => ?_
  cases b.kind <;> simp

/-- The numbers of the diverts among bindings are numbers of the bindings. -/
theorem ids_diverts_sublist (bindings : List Binding) :
    ((diverts bindings).map Prod.fst).Sublist (bindings.map Binding.id) := by
  induction bindings with
  | nil => exact .slnil
  | cons b bindings ih =>
      rw [diverts, List.filterMap_cons]
      cases b.kind with
      | divert d => exact ih.cons_cons b.id
      | queue q => exact ih.cons b.id

theorem pairwise_diverts {bindings : List Binding}
    (h : bindings.Pairwise fun b c => b.id.Before c.id) :
    (diverts bindings).Pairwise fun d e => d.1.Before e.1 :=
  List.pairwise_map.mp ((List.pairwise_map.mpr h).sublist (ids_diverts_sublist bindings))

theorem pairwise_queues {bindings : List Binding}
    (h : bindings.Pairwise fun b c => b.id.Before c.id) :
    (queues bindings).Pairwise fun p q => p.1.Before q.1 :=
  List.pairwise_map.mp ((List.pairwise_map.mpr h).sublist (ids_queues_sublist bindings))

end Binding

namespace Registry

variable {r : Registry} {item : InTransit}

/-- The earliest exclusive divert has the message to itself. -/
theorem Sound.handling_of_exclusive (h : r.Sound) {b : Binding} (hmatches : r.MatchesAt item b)
    (hexclusive : b.isExclusive)
    (hearliest : ∀ c, r.MatchesAt item c → c.isExclusive → b.id.number ≤ c.id.number) :
    r.handling item.message item.address = { diverts := Binding.diverts [b], queues := [] } := by
  have hfind : (r.matching item).find? Binding.isExclusive = some b := by
    obtain ⟨before, after, heq⟩ := List.append_of_mem (h.mem_matching_iff.mpr hmatches)
    refine List.find?_eq_some_iff_append.mpr ⟨hexclusive, before, after, heq, fun c hc => ?_⟩
    have hearlier : c.id.number < b.id.number := by
      have hpairwise := h.pairwise_matching item
      rw [heq] at hpairwise
      exact (List.pairwise_append.mp hpairwise).2.2 c hc b (.head _)
    have hmember : r.MatchesAt item c := by
      rw [← h.mem_matching_iff, heq]
      exact List.mem_append_left _ hc
    have hno : ¬c.isExclusive := fun hc' => Nat.not_lt_of_le (hearliest c hmember hc') hearlier
    simpa using hno
  rw [handling, ← matching, hfind]

/-- Without exclusive diverts all bindings that match get the message. -/
theorem Sound.handling_of_shared (h : r.Sound) (hshared : r.Shared item) :
    r.handling item.message item.address =
      { diverts := Binding.diverts (r.matching item)
        queues := Binding.queues (r.matching item) } := by
  have hfind : (r.matching item).find? Binding.isExclusive = none :=
    List.find?_eq_none.mpr fun b hb => by simp [hshared b (h.mem_matching_iff.mp hb)]
  rw [handling, ← matching, hfind]

/-- Either a divert has the message to itself, or the message is shared. -/
theorem Sound.exclusive_or_shared (h : r.Sound) (item : InTransit) :
    (∃ b, r.MatchesAt item b ∧ b.isExclusive ∧
      ∀ c, r.MatchesAt item c → c.isExclusive → b.id.number ≤ c.id.number) ∨ r.Shared item := by
  cases hfind : (r.matching item).find? Binding.isExclusive with
  | none =>
      refine .inr fun b hb => ?_
      simpa using List.find?_eq_none.mp hfind b (h.mem_matching_iff.mpr hb)
  | some b =>
      obtain ⟨hexclusive, before, after, heq, hbefore⟩ := List.find?_eq_some_iff_append.mp hfind
      have hb : b ∈ r.matching item := List.mem_of_find?_eq_some hfind
      refine .inl ⟨b, h.mem_matching_iff.mp hb, hexclusive, fun c hc hcexclusive => ?_⟩
      have hpairwise := h.pairwise_matching item
      have hmem := h.mem_matching_iff.mpr hc
      rw [heq] at hpairwise hmem
      rcases List.mem_append.mp hmem with hmem | hmem
      · have hno := hbefore c hmem
        simp [hcexclusive] at hno
      · rcases List.mem_cons.mp hmem with rfl | hmem
        · exact Nat.le_refl _
        · exact Nat.le_of_lt
            ((List.pairwise_cons.mp (List.pairwise_append.mp hpairwise).2.1).1 c hmem)

/-- **The diverts that handle a message.** -/
theorem Sound.mem_diverts_handling_iff (h : r.Sound) {d : BindingId × Divert} :
    d ∈ (r.handling item.message item.address).diverts ↔ r.Diverts item d := by
  rcases h.exclusive_or_shared item with ⟨b, hb, hexclusive, hearliest⟩ | hshared
  · rw [h.handling_of_exclusive hb hexclusive hearliest, Binding.mem_diverts]
    constructor
    · rintro ⟨c, hc, hid, hkind⟩
      obtain rfl := List.mem_singleton.mp hc
      exact ⟨c, hb, hid, hkind, .inl ⟨hexclusive, hearliest⟩⟩
    · rintro ⟨c, hc, hid, hkind, hcase⟩
      have hsame : c = b := by
        rcases hcase with ⟨hcexclusive, hcearliest⟩ | hshared
        · refine h.eq_of_id_eq hc.1 hb.1 (congrArg BindingId.mk ?_)
          exact Nat.le_antisymm (hcearliest b hb hexclusive) (hearliest c hc hcexclusive)
        · rw [hshared b hb] at hexclusive
          cases hexclusive
      subst hsame
      exact ⟨c, .head _, hid, hkind⟩
  · rw [h.handling_of_shared hshared, Binding.mem_diverts]
    constructor
    · rintro ⟨b, hb, hid, hkind⟩
      exact ⟨b, h.mem_matching_iff.mp hb, hid, hkind, .inr hshared⟩
    · rintro ⟨b, hb, hid, hkind, -⟩
      exact ⟨b, h.mem_matching_iff.mpr hb, hid, hkind⟩

/-- **The queues that handle a message.** -/
theorem Sound.mem_queues_handling_iff (h : r.Sound) {q : BindingId × QueueInfo} :
    q ∈ (r.handling item.message item.address).queues ↔ r.Takes item q := by
  rcases h.exclusive_or_shared item with ⟨b, hb, hexclusive, hearliest⟩ | hshared
  · rw [h.handling_of_exclusive hb hexclusive hearliest]
    constructor
    · exact fun hmem => absurd hmem List.not_mem_nil
    · rintro ⟨-, hshared⟩
      rw [hshared b hb] at hexclusive
      cases hexclusive
  · rw [h.handling_of_shared hshared, Binding.mem_queues]
    constructor
    · rintro ⟨b, hb, hid, hkind⟩
      exact ⟨⟨b, h.mem_matching_iff.mp hb, hid, hkind⟩, hshared⟩
    · rintro ⟨⟨b, hb, hid, hkind⟩, -⟩
      exact ⟨b, h.mem_matching_iff.mpr hb, hid, hkind⟩

theorem Sound.pairwise_diverts_handling (h : r.Sound) (item : InTransit) :
    (r.handling item.message item.address).diverts.Pairwise fun d e => d.1.Before e.1 := by
  rcases h.exclusive_or_shared item with ⟨b, hb, hexclusive, hearliest⟩ | hshared
  · rw [h.handling_of_exclusive hb hexclusive hearliest]
    exact Binding.pairwise_diverts (List.pairwise_singleton ..)
  · rw [h.handling_of_shared hshared]
    exact Binding.pairwise_diverts (h.pairwise_matching item)

theorem Sound.pairwise_queues_handling (h : r.Sound) (item : InTransit) :
    (r.handling item.message item.address).queues.Pairwise fun p q => p.1.Before q.1 := by
  rcases h.exclusive_or_shared item with ⟨b, hb, hexclusive, hearliest⟩ | hshared
  · rw [h.handling_of_exclusive hb hexclusive hearliest]
    exact .nil
  · rw [h.handling_of_shared hshared]
    exact Binding.pairwise_queues (h.pairwise_matching item)

end Registry

end Courier
