import Mathlib.Logic.Hydra
import Courier.Proofs.Routing.Chains

/-!
# Planning with a Work List

A plan is made by working off a list of messages. In each turn the first message of the list is
treated, and the copies that diverts make of it come to the end of the list. A turn may make the
list longer, so its length does not say that the turns come to an end. But each copy may pass
through fewer further diverts than the message that it was made of, and the messages in the list
are the heads of a hydra: one head is cut off, and finitely many lower ones grow back.

The rounds in which `Planning.run` treats messages are stretches of turns: the list starts with
the messages of the round, and ends with the copies for the next one.

## Main definitions

* `Planning.treatFirst?`, `Planning.turns`: one turn, and a number of turns.
* `Planning.permits`: the numbers of further diverts that the messages in the list may pass
  through.
* `InTransit.Linked`: a chain of different diverts of the registry, not longer than is permitted.

## Main results

* `Planning.wellFounded_treatFirst?`: no list of messages has turns without an end.
* `Planning.turns_run`: the rounds are stretches of turns.
* `InTransit.Linked.turns`: what holds of all chains in the list.
* `Registry.plan_eq_turns`: a plan is made in as many turns as there are messages.
-/

namespace Courier

/-! ### Turns -/

namespace Planning

/-- Treats the first message of the work list, which `next` holds, and puts the copies that
diverts make of it at the end. -/
def treatFirst? (r : Registry) (maxDivertHops : Nat) (p : Planning) : Option Planning :=
  match p.next with
  | [] => none
  | item :: rest => some (visit r (item.passed.length < maxDivertHops) { p with next := rest } item)

/-- A number of turns, if the work list lasts that long. -/
def turns (r : Registry) (maxDivertHops : Nat) : Nat → Planning → Option Planning
  | 0, p => some p
  | n + 1, p => (p.treatFirst? r maxDivertHops).bind (turns r maxDivertHops n)

/-- The numbers of further diverts that the messages in the work list may pass through. -/
def permits (maxDivertHops : Nat) (p : Planning) : Multiset Nat :=
  p.next.map fun item => maxDivertHops - item.passed.length

variable {r : Registry} {maxDivertHops n : Nat} {p p' : Planning}

theorem turns_add (m n : Nat) (p : Planning) :
    turns r maxDivertHops (m + n) p =
      (turns r maxDivertHops m p).bind (turns r maxDivertHops n) := by
  induction m generalizing p with
  | zero => rw [Nat.zero_add, turns, Option.bind_some]
  | succ m ih =>
      rw [Nat.succ_add, turns, turns, Option.bind_assoc]
      exact Option.bind_congr fun p' _ => ih p'

/-- What a turn does to the work list, and how many copies it makes. -/
theorem exists_of_treatFirst? (h : p.treatFirst? r maxDivertHops = some p') :
    ∃ item rest, p.next = item :: rest ∧
      p'.next = rest ++ item.copies p.ids (r.onward maxDivertHops item) ∧
      p'.plan.diverted = p.plan.diverted + (r.onward maxDivertHops item).length := by
  rw [treatFirst?] at h
  split at h
  · cases h
  · next item rest hnext =>
      cases h
      refine ⟨item, rest, hnext, ?_, ?_⟩
      all_goals rw [visit_eq]

/-- Copies are made only of messages that may pass through further diverts. -/
theorem lt_of_mem_onward {item : InTransit} {d : BindingId × Divert}
    (h : d ∈ r.onward maxDivertHops item) : item.passed.length < maxDivertHops := by
  have hsent := (List.mem_filter.mp h).2
  simp only [Bool.and_eq_true, decide_eq_true_eq] at hsent
  exact hsent.1

/-- **A turn** replaces a message by copies that may pass through fewer further diverts. -/
theorem cutExpand_of_treatFirst? (h : p.treatFirst? r maxDivertHops = some p') :
    Relation.CutExpand (· < ·) (p'.permits maxDivertHops) (p.permits maxDivertHops) := by
  obtain ⟨item, rest, hnext, hnext', -⟩ := exists_of_treatFirst? h
  let left (item : InTransit) : Nat := maxDivertHops - item.passed.length
  let copies := item.copies p.ids (r.onward maxDivertHops item)
  refine ⟨copies.map left, left item, fun a ha => ?_, ?_⟩
  · obtain ⟨copy, hcopy, rfl⟩ := List.mem_map.mp (Multiset.mem_coe.mp ha)
    obtain ⟨d, hd, heq⟩ := InTransit.mem_copies hcopy
    have hmore := lt_of_mem_onward hd
    have hlength : copy.passed.length = item.passed.length + 1 := by rw [heq]; rfl
    simp only [left]
    omega
  · have hafter : p'.permits maxDivertHops = ((rest.map left ++ copies.map left : List Nat) :) := by
      rw [permits, hnext', List.map_append]
    have hbefore : p.permits maxDivertHops = ((left item :: rest.map left : List Nat) :) := by
      rw [permits, hnext, List.map_cons]
    rw [hafter, hbefore, ← Multiset.coe_singleton, Multiset.coe_add, Multiset.coe_add,
      Multiset.coe_eq_coe, List.cons_append]
    exact List.perm_append_singleton ..

/-- **The turns come to an end**, whichever messages the work list holds. -/
theorem wellFounded_treatFirst? (r : Registry) (maxDivertHops : Nat) :
    WellFounded fun p' p : Planning => p.treatFirst? r maxDivertHops = some p' :=
  Subrelation.wf cutExpand_of_treatFirst?
    (InvImage.wf (permits maxDivertHops) (wellFounded_lt (α := Nat)).cutExpand)

/-- Each turn takes one message from the work list, and the copies come to it. -/
theorem length_turns (h : turns r maxDivertHops n p = some p') :
    n + p'.next.length + p.plan.diverted = p.next.length + p'.plan.diverted := by
  induction n generalizing p with
  | zero =>
      cases h
      rw [Nat.zero_add]
  | succ n ih =>
      obtain ⟨between, hfirst, hrest⟩ := Option.bind_eq_some_iff.mp h
      obtain ⟨item, rest, hnext, hnext', hdiverted⟩ := exists_of_treatFirst? hfirst
      have hcount := ih hrest
      rw [hnext', hdiverted, List.length_append, InTransit.length_copies] at hcount
      rw [hnext, List.length_cons]
      omega

/-! ### Rounds are stretches of turns -/

/-- The messages in front of the copies do not matter for the message that is treated. -/
theorem visit_behind (items : List InTransit) (p : Planning) (item : InTransit) :
    visit r (item.passed.length < maxDivertHops) { p with next := items ++ p.next } item =
      { visit r (item.passed.length < maxDivertHops) p item with
        next := items ++ (visit r (item.passed.length < maxDivertHops) p item).next } := by
  rw [visit_eq, visit_eq, List.append_assoc]

/-- The messages of a round are treated in as many turns. -/
theorem turns_round (r : Registry) (maxDivertHops : Nat) {depth : Nat} {todo : List InTransit}
    (htodo : ∀ item ∈ todo, item.passed.length = depth) (p : Planning) :
    turns r maxDivertHops todo.length { p with next := todo ++ p.next } =
      some (todo.foldl (visit r (depth < maxDivertHops)) p) := by
  induction todo generalizing p with
  | nil => rfl
  | cons item todo ih =>
      obtain ⟨hitem, hrest⟩ := List.forall_mem_cons.mp htodo
      have hfirst : treatFirst? r maxDivertHops { p with next := item :: todo ++ p.next } =
          some (visit r (item.passed.length < maxDivertHops)
            { p with next := todo ++ p.next } item) := rfl
      rw [List.length_cons, turns, hfirst, Option.bind_some, visit_behind, hitem, List.foldl_cons]
      exact ih hrest _

/-- The copies that a round makes passed through one more divert. -/
theorem length_passed_round (r : Registry) (maxDivertHops : Nat) {depth : Nat}
    {todo : List InTransit} (htodo : ∀ item ∈ todo, item.passed.length = depth)
    (hnext : ∀ item ∈ p.next, item.passed.length = depth + 1) :
    ∀ item ∈ (todo.foldl (visit r (depth < maxDivertHops)) p).next,
      item.passed.length = depth + 1 := by
  induction todo generalizing p with
  | nil => exact hnext
  | cons item todo ih =>
      obtain ⟨hitem, hrest⟩ := List.forall_mem_cons.mp htodo
      refine ih hrest fun copy hcopy => ?_
      have hvisit := visit_eq r maxDivertHops p item
      rw [hitem] at hvisit
      rw [hvisit] at hcopy
      rcases List.mem_append.mp hcopy with hcopy | hcopy
      · exact hnext copy hcopy
      · obtain ⟨d, -, heq⟩ := InTransit.mem_copies hcopy
        rw [heq, InTransit.passed_through, List.length_cons, hitem]

/-- **All rounds together** are turns until the work list is empty. -/
theorem turns_run (r : Registry) {depth left : Nat} {todo : List InTransit}
    (htodo : ∀ item ∈ todo, item.passed.length = depth) (hleft : depth + left = maxDivertHops)
    (p : Planning) :
    (run r left todo { p with next := [] }).next = [] ∧
      ∃ n, turns r maxDivertHops n { p with next := todo } =
        some (run r left todo { p with next := [] }) := by
  induction left generalizing depth todo p with
  | zero =>
      cases todo with
      | nil => exact ⟨rfl, 0, rfl⟩
      | cons item todo =>
          have hend : ¬depth < maxDivertHops := by omega
          have hround := turns_round r maxDivertHops htodo { p with next := [] }
          rw [decide_eq_false hend, List.append_nil] at hround
          exact ⟨next_round .., _, hround⟩
  | succ left ih =>
      cases todo with
      | nil => exact ⟨rfl, 0, rfl⟩
      | cons item todo =>
          have hmore : depth < maxDivertHops := by omega
          have hround := turns_round r maxDivertHops htodo { p with next := [] }
          have hcopies := length_passed_round r maxDivertHops (p := { p with next := [] }) htodo
            (List.forall_mem_nil _)
          rw [decide_eq_true hmore] at hround hcopies
          rw [List.append_nil] at hround
          obtain ⟨hempty, n, hrest⟩ := ih hcopies (by omega)
            ((item :: todo).foldl (visit r true) { p with next := [] })
          refine ⟨hempty, (item :: todo).length + n, ?_⟩
          rw [turns_add, hround]
          exact hrest

end Planning

/-! ### Chains -/

namespace InTransit

/-- A chain of different diverts of the registry, not longer than is permitted. -/
structure Linked (r : Registry) (maxDivertHops : Nat) (item : InTransit) : Prop where
  nodup : item.passed.Nodup
  subset : item.passed ⊆ (Binding.diverts r.bindings).map Prod.fst
  length_le : item.passed.length ≤ maxDivertHops

variable {r : Registry} {maxDivertHops : Nat} {item : InTransit}

/-- A chain is not longer than there are diverts. -/
theorem Linked.length_le_min (h : Linked r maxDivertHops item) :
    item.passed.length ≤ min maxDivertHops (Binding.diverts r.bindings).length := by
  have hdiverts := (List.subperm_of_subset h.nodup h.subset).length_le
  rw [List.length_map] at hdiverts
  exact Nat.le_min.mpr ⟨h.length_le, hdiverts⟩

theorem Linked.through (h : Linked r maxDivertHops item) {d : BindingId × Divert}
    (hd : r.Forwards maxDivertHops item d) (id : MessageId) :
    Linked r maxDivertHops (item.through d id) := by
  obtain ⟨⟨b, hb, hid, hkind, -⟩, hnew, hmore⟩ := hd
  have hdivert : d ∈ Binding.diverts r.bindings :=
    Binding.mem_diverts.mpr ⟨b, Registry.mem_bindings_iff.mpr hb.1, hid, hkind⟩
  refine ⟨List.nodup_cons.mpr ⟨hnew, h.nodup⟩, ?_, hmore⟩
  exact List.cons_subset.mpr ⟨List.mem_map_of_mem hdivert, h.subset⟩

/-- A turn makes no other chains. -/
theorem Linked.treatFirst? (hr : r.Sound) {p p' : Planning}
    (h : ∀ item ∈ p.next, Linked r maxDivertHops item)
    (hturn : p.treatFirst? r maxDivertHops = some p') :
    ∀ item ∈ p'.next, Linked r maxDivertHops item := by
  obtain ⟨item, rest, hnext, hnext', -⟩ := Planning.exists_of_treatFirst? hturn
  rw [hnext] at h
  obtain ⟨hitem, hrest⟩ := List.forall_mem_cons.mp h
  rw [hnext']
  refine List.forall_mem_append.mpr ⟨hrest, fun copy hcopy => ?_⟩
  obtain ⟨d, hd, heq⟩ := mem_copies hcopy
  rw [heq]
  exact hitem.through (hr.mem_onward_iff.mp hd) _

/-- **All chains** in the work list are of this kind, after any number of turns. -/
theorem Linked.turns (hr : r.Sound) {n : Nat} {p p' : Planning}
    (h : ∀ item ∈ p.next, Linked r maxDivertHops item)
    (hturns : Planning.turns r maxDivertHops n p = some p') :
    ∀ item ∈ p'.next, Linked r maxDivertHops item := by
  induction n generalizing p with
  | zero =>
      cases hturns
      exact h
  | succ n ih =>
      obtain ⟨between, hfirst, hrest⟩ := Option.bind_eq_some_iff.mp hturns
      exact ih (Linked.treatFirst? hr h hfirst) hrest

end InTransit

/-! ### Plans -/

namespace Planning

/-- The work list for a message at an address: the message alone. -/
def start (ids : IdSupply) (m : Message) (address : Address) : Planning where
  next := [{ message := m, address }]
  ids

end Planning

namespace Registry

/-- **Planning comes to an end.** For every registry, whichever way diverts lead back to each
other:

* turns do not go on for ever, from any work list;
* a message at an address and all its copies take a turn each, after which the work list is empty
  and the plan is made;
* after any number of turns, no message in the work list passed through a divert twice or through
  more diverts than are permitted or than there are. -/
theorem plan_eq_turns {r : Registry} (h : r.Made) (maxDivertHops : Nat) (ids : IdSupply)
    (m : Message) (address : Address) :
    (WellFounded fun p' p : Planning => p.treatFirst? r maxDivertHops = some p') ∧
      (∃ last : Planning,
        Planning.turns r maxDivertHops (1 + last.plan.diverted) (.start ids m address) =
            some last ∧
          last.next = [] ∧ r.plan maxDivertHops ids m address = (last.plan, last.ids)) ∧
      ∀ n p, Planning.turns r maxDivertHops n (.start ids m address) = some p →
        ∀ item ∈ p.next,
          item.passed.Nodup ∧ item.passed ⊆ (Binding.diverts r.bindings).map Prod.fst ∧
            item.passed.length ≤ min maxDivertHops (Binding.diverts r.bindings).length := by
  have hstart : ∀ item ∈ (Planning.start ids m address).next,
      InTransit.Linked r maxDivertHops item := by
    intro item hitem
    obtain rfl := List.mem_singleton.mp hitem
    exact ⟨List.nodup_nil, List.nil_subset _, Nat.zero_le _⟩
  have halone : ∀ item ∈ [({ message := m, address } : InTransit)], item.passed.length = 0 := by
    simp
  obtain ⟨hempty, n, hturns⟩ :=
    Planning.turns_run r halone (Nat.zero_add maxDivertHops) { ids }
  refine ⟨Planning.wellFounded_treatFirst? r maxDivertHops, ⟨_, ?_, hempty, rfl⟩,
    fun k p hp item hitem => ?_⟩
  · have hcount := Planning.length_turns hturns
    rw [hempty] at hcount
    have hn : n = 1 + (Planning.run r maxDivertHops [{ message := m, address }]
        { ids }).plan.diverted := by simpa using hcount
    rw [← hn]
    exact hturns
  · have hlinked := InTransit.Linked.turns h.sound hstart hp item hitem
    exact ⟨hlinked.nodup, hlinked.subset, hlinked.length_le_min⟩

/-- A message goes around the circle in three turns, and no chain is longer than two. -/
theorem plan_eq_turns_circle :
    circle.Made ∧
      (∃ last : Planning,
        Planning.turns circle 10 3 (.start labels parcel depot) = some last ∧
          last.next = [] ∧ circle.plan 10 labels parcel depot = (last.plan, last.ids)) ∧
      ∀ n p, Planning.turns circle 10 n (.start labels parcel depot) = some p →
        ∀ item ∈ p.next, item.passed.Nodup ∧ item.passed.length ≤ 2 := by
  have hmade : circle.Made := (((Made.empty {}).bound ..).bound ..).bound ..
  have hcount : (circle.plan 10 labels parcel depot).1.diverted = 2 ∧
      (Binding.diverts circle.bindings).length = 2 := by decide +kernel
  obtain ⟨-, ⟨last, hturns, hempty, hplan⟩, hchains⟩ :=
    plan_eq_turns hmade 10 labels parcel depot
  have hlast : last.plan.diverted = 2 := by rw [← hcount.1, hplan]
  refine ⟨hmade, ⟨last, ?_, hempty, hplan⟩, fun n p hp item hitem => ?_⟩
  · rwa [hlast] at hturns
  · obtain ⟨hnodup, -, hlength⟩ := hchains n p hp item hitem
    rw [hcount.2] at hlength
    exact ⟨hnodup, Nat.le_trans hlength (Nat.min_le_right ..)⟩

end Registry

end Courier
