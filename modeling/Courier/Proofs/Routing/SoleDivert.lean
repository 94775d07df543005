import Courier.Proofs.Address.Matching
import Courier.Proofs.Routing.Chains

/-!
# A Divert That Has All Messages to Itself

A registry may have a single divert that is exclusive and has no selector. The divert claims every
message at an address that its pattern matches: one copy goes on to another address, and no queue
gets the message itself. At that address the pattern is tried again. If it matches, the divert
claims the copy as well, and since the copy passed through this divert before, it is not sent on:
no queue gets it either. Otherwise all queues at that address get the copy.

A pattern matches more than one address, so the pattern and the address that copies are sent to may
be two different texts and the pattern matches the address all the same.

## Main definitions

* `Registry.SoleDivert`: a registry with a single divert, which has all messages to itself.

## Main results

* `Wildcards.matches_self`: every pattern matches its own text.
* `Registry.SoleDivert.plan_eq`: **the plan for a message that the divert claims**.
* `Registry.SoleDivert.deliveriesTo_eq_nil`, `Registry.SoleDivert.mem_deliveriesTo`: the queues that
  get the copy.
-/

namespace Courier

/-! ### A pattern matches its own text -/

namespace Wildcards

/-- What the words of a text stand for matches the words themselves. -/
theorem matches_map_segment (w : Wildcards) (words : List String) :
    Glob.Matches (words.map w.segment) words := by
  induction words with
  | nil => exact .nil
  | cons word words ih =>
      have hstands := segment_eq_iff.mp (rfl : w.segment word = w.segment word)
      rw [List.map_cons]
      generalize w.segment word = segment at hstands
      cases hstands with
      | run => exact .run [word] ih
      | single => exact .single ih
      | literal => exact .literal ih

/-- **Every pattern matches its own text.** -/
theorem matches_self (w : Wildcards) (text : String) : w.matches text text :=
  (w.matches_iff text text).mpr (w.matches_map_segment (w.words text))

end Wildcards

/-! ### The last round -/

namespace Planning

variable {r : Registry} {maxDivertHops left : Nat} {item : InTransit}

theorem run_nil (r : Registry) (left : Nat) (p : Planning) : run r left [] p = p := by
  cases left <;> rfl

/-- A message that no divert sends on is the last one to be treated. -/
theorem run_of_onward_eq_nil (honward : r.onward maxDivertHops item = [])
    (hleft : item.passed.length + left = maxDivertHops) (plan : RoutePlan) (ids : IdSupply) :
    run r left [item] { plan, ids } =
      { plan :=
          { plan with
            deliveries := plan.deliveries ++ r.deliveriesTo item
            dropped := plan.dropped + (r.refused maxDivertHops item).length }
        ids } := by
  have hvisit : visit r (item.passed.length < maxDivertHops) { plan, ids } item =
      { plan :=
          { plan with
            deliveries := plan.deliveries ++ r.deliveriesTo item
            dropped := plan.dropped + (r.refused maxDivertHops item).length }
        ids } := by
    rw [visit_eq, honward]
    rfl
  cases left with
  | zero =>
      have hend : ¬item.passed.length < maxDivertHops := by omega
      rw [decide_eq_false hend] at hvisit
      exact hvisit
  | succ left =>
      have hmore : item.passed.length < maxDivertHops := by omega
      rw [decide_eq_true hmore] at hvisit
      rw [run, List.foldl_cons, List.foldl_nil, hvisit]
      exact run_nil ..

end Planning

/-! ### Plans -/

namespace Registry

/-- The divert of a binding is the only one of the registry. It is exclusive and has no selector. -/
structure SoleDivert (r : Registry) (b : Binding) (d : Divert) : Prop where
  mem_bindings : b ∈ r.bindings
  kind_eq : b.kind = .divert d
  filter_eq : b.filter = none
  exclusive : d.exclusive
  only : ∀ c ∈ r.bindings, c.isQueue ∨ c = b

instance (r : Registry) (b : Binding) (d : Divert) : Decidable (r.SoleDivert b d) :=
  decidable_of_iff
    (b ∈ r.bindings ∧ b.kind = .divert d ∧ b.filter = none ∧ d.exclusive ∧
      ∀ c ∈ r.bindings, c.isQueue ∨ c = b)
    ⟨fun ⟨hmem, hkind, hfilter, hexclusive, honly⟩ => ⟨hmem, hkind, hfilter, hexclusive, honly⟩,
      fun ⟨hmem, hkind, hfilter, hexclusive, honly⟩ => ⟨hmem, hkind, hfilter, hexclusive, honly⟩⟩

namespace SoleDivert

variable {r : Registry} {b : Binding} {d : Divert}

theorem isExclusive (h : r.SoleDivert b d) : b.isExclusive := by
  rw [Binding.isExclusive, h.kind_eq]
  exact h.exclusive

/-- No other binding takes messages away. -/
theorem eq_of_isExclusive (h : r.SoleDivert b d) {c : Binding} (hc : c ∈ r.named)
    (hexclusive : c.isExclusive) : c = b := by
  refine (h.only c (mem_bindings_iff.mpr hc)).resolve_left fun hqueue => ?_
  rw [Binding.isQueue] at hqueue
  rw [Binding.isExclusive] at hexclusive
  split at hqueue
  · next hkind =>
      rw [hkind] at hexclusive
      cases hexclusive
  · cases hqueue

/-- The divert has a message to itself if its pattern matches the address. -/
theorem handling_of_matches (h : r.SoleDivert b d) (hr : r.Sound) (item : InTransit)
    (hmatch : r.wildcards.matches b.address.text item.address.text) :
    r.handling item.message item.address = { diverts := [(b.id, d)], queues := [] } := by
  have haccepts : b.accepts item.message := by
    rw [Binding.accepts, h.filter_eq]
    rfl
  have hmatches : r.MatchesAt item b := ⟨mem_bindings_iff.mp h.mem_bindings, hmatch, haccepts⟩
  rw [hr.handling_of_exclusive hmatches h.isExclusive fun c hc hexclusive => ?_, Binding.diverts]
  · simp [h.kind_eq]
  · rw [h.eq_of_isExclusive hc.1 hexclusive]

/-- All queues get a message if the pattern does not match the address. -/
theorem handling_of_not_matches (h : r.SoleDivert b d) (hr : r.Sound) (item : InTransit)
    (hno : ¬r.wildcards.matches b.address.text item.address.text) :
    r.handling item.message item.address =
      { diverts := [], queues := Binding.queues (r.matching item) } := by
  have hother : ∀ c, r.MatchesAt item c → c ≠ b := fun c hc heq => hno (heq ▸ hc.2.1)
  have hshared : r.Shared item := fun c hc =>
    Bool.eq_false_iff.mpr fun hexclusive => hother c hc (h.eq_of_isExclusive hc.1 hexclusive)
  have hdiverts : Binding.diverts (r.matching item) = [] := by
    refine List.eq_nil_iff_forall_not_mem.mpr fun ⟨id, divert⟩ hmem => ?_
    obtain ⟨c, hc, -, hkind⟩ := Binding.mem_diverts.mp hmem
    have hmatches := hr.mem_matching_iff.mp hc
    rcases h.only c (mem_bindings_iff.mpr hmatches.1) with hqueue | heq
    · rw [Binding.isQueue, hkind] at hqueue
      cases hqueue
    · exact hother c hmatches heq
  rw [hr.handling_of_shared hshared, hdiverts]

/-- A copy that the divert has made goes no further. -/
theorem onward_eq_nil (h : r.SoleDivert b d) (hr : r.Sound) {item : InTransit}
    (hpassed : b.id ∈ item.passed) (maxDivertHops : Nat) : r.onward maxDivertHops item = [] := by
  by_cases hmatch : r.wildcards.matches b.address.text item.address.text
  · rw [onward, h.handling_of_matches hr item hmatch]
    simp [hpassed]
  · rw [onward, h.handling_of_not_matches hr item hmatch]
    rfl

/-- The copy of a message at an address that the divert sends on. -/
def copy (b : Binding) (d : Divert) (ids : IdSupply) (m : Message) (address : Address) :
    InTransit :=
  InTransit.through { message := m, address } (b.id, d) ids.next

/-- The divert sends a message on that comes to an address which its pattern matches. -/
theorem visit_of_matches (h : r.SoleDivert b d) (hr : r.Sound) (ids : IdSupply) (m : Message)
    {address : Address} (hmatch : r.wildcards.matches b.address.text address.text) :
    Planning.visit r true { ids } { message := m, address } =
      { plan := { diverted := 1 }, next := [copy b d ids m address], ids := ids.advance } := by
  rw [Planning.visit, h.handling_of_matches hr { message := m, address } hmatch]
  rfl

/-- **The plan for a message that the divert claims**: one copy is made, and the queues that get it
are those that take it where it is sent to. -/
theorem plan_eq (h : r.SoleDivert b d) (hr : r.Sound) {maxDivertHops : Nat}
    (hhops : 0 < maxDivertHops) (ids : IdSupply) (m : Message) {address : Address}
    (hmatch : r.wildcards.matches b.address.text address.text) :
    r.plan maxDivertHops ids m address =
      ({ deliveries := r.deliveriesTo (copy b d ids m address)
         diverted := 1
         dropped := (r.refused maxDivertHops (copy b d ids m address)).length }, ids.advance) := by
  obtain ⟨left, rfl⟩ : ∃ left, maxDivertHops = left + 1 := ⟨maxDivertHops - 1, by omega⟩
  have hpassed : b.id ∈ (copy b d ids m address).passed := .head _
  have honward := h.onward_eq_nil hr hpassed (left + 1)
  have hlast := Planning.run_of_onward_eq_nil honward (Nat.add_comm 1 left) { diverted := 1 }
    ids.advance
  rw [plan, Planning.run, List.foldl_cons, List.foldl_nil, h.visit_of_matches hr ids m hmatch]
  dsimp only
  rw [hlast, List.nil_append, Nat.zero_add]

/-- No queue gets a message at an address that the pattern matches. -/
theorem deliveriesTo_eq_nil (h : r.SoleDivert b d) (hr : r.Sound) {item : InTransit}
    (hmatch : r.wildcards.matches b.address.text item.address.text) : r.deliveriesTo item = [] := by
  rw [deliveriesTo, h.handling_of_matches hr item hmatch]
  rfl

/-- At any other address, a queue without a selector gets every message if it is bound there. -/
theorem mem_deliveriesTo (h : r.SoleDivert b d) (hr : r.Sound) (item : InTransit)
    (hno : ¬r.wildcards.matches b.address.text item.address.text) {c : Binding} {info : QueueInfo}
    (hc : c ∈ r.bindings) (hkind : c.kind = .queue info) (hfilter : c.filter = none)
    (haddress : c.address = item.address) :
    { binding := c.id, queue := info, message := item.message } ∈ r.deliveriesTo item := by
  have hmatches : r.MatchesAt item c := by
    refine ⟨mem_bindings_iff.mp hc, ?_, ?_⟩
    · rw [haddress]
      exact r.wildcards.matches_self _
    · rw [Binding.accepts, hfilter]
      rfl
  rw [deliveriesTo, h.handling_of_not_matches hr item hno]
  refine List.mem_map.mpr ⟨(c.id, info), Binding.mem_queues.mpr ?_, rfl⟩
  exact ⟨c, hr.mem_matching_iff.mpr hmatches, rfl, hkind⟩

end SoleDivert

end Registry

end Courier
