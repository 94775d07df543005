import Mathlib.Data.List.Sort
import Courier.Proofs.Registry

/-!
# A Registry over its History

A registry is compared with a plain list of bindings. Registering appends a binding to the list
unless its name is taken, and withdrawing takes the binding of a name out. The list has one entry
for each binding, in order of arrival, while the registry finds bindings by name and by address in
two structures of its own. After any requests both tell the same.

## Main definitions

* `Registry.Request`, `Registry.serve`: the changes to a registry.
* `Registry.Roll`, `Registry.Roll.serve`: the plain list and its changes.
* `Registry.Kept`: everything that a registry tells, read off the list.

## Main results

* `Registry.Follows.serve`: a registry follows the list in one step.
* `Registry.serveAll_kept`: a registry follows the list over any history.
-/

namespace Courier

namespace Registry

/-- A change to a registry. -/
inductive Request where
  /-- A binding is registered. -/
  | add (name : String) (address : Address) (filter : Option Selector) (kind : BindingKind)
  /-- The binding of a name is withdrawn. -/
  | remove (name : String)

/-- The binding that is registered or withdrawn with the registry afterwards, if one is. -/
def serve? (r : Registry) : Request → Option (Binding × Registry)
  | .add name address filter kind => r.add? name address filter kind
  | .remove name => r.remove? name

/-- The answer to a request and the registry afterwards. -/
def serve (r : Registry) (request : Request) : Option Binding × Registry :=
  match r.serve? request with
  | some (b, r') => (some b, r')
  | none => (none, r)

/-- A plain list of bindings. -/
structure Roll where
  /-- All bindings that were ever registered, in turn. -/
  granted : List Binding := []
  /-- Those that were not withdrawn. -/
  listed : List Binding := []

/-- The answer to a request and the list afterwards. -/
def Roll.serve (roll : Roll) : Request → Option Binding × Roll
  | .add name address filter kind =>
    if name ∈ roll.listed.map Binding.name then (none, roll)
    else
      let b : Binding := { id := ⟨roll.granted.length + 1⟩, name, address, filter, kind }
      (some b, { granted := roll.granted ++ [b], listed := roll.listed ++ [b] })
  | .remove name =>
    (roll.listed.find? (·.name = name),
      { roll with listed := roll.listed.filter (·.name ≠ name) })

/-- The answers to requests in turn, and what they lead to. -/
def serveAll {σ : Type} (serve : σ → Request → Option Binding × σ) (s : σ) :
    List Request → List (Option Binding) × σ
  | [] => ([], s)
  | request :: requests =>
    let (answer, s) := serve s request
    let (answers, s) := serveAll serve s requests
    (answer :: answers, s)

/-- A registry holds the bindings of a list. -/
structure Follows (w : Wildcards) (r : Registry) (roll : Roll) : Prop where
  sound : r.Sound
  wildcards_eq : r.wildcards = w
  nextId_eq : r.nextId = ⟨roll.granted.length + 1⟩
  numbers_eq : roll.granted.map (·.id.number) = List.range' 1 roll.granted.length
  listed_sublist : roll.listed.Sublist roll.granted
  listed_perm : roll.listed.Perm r.named

variable {w : Wildcards} {r : Registry} {roll : Roll}

theorem follows_empty (w : Wildcards) : Follows w (empty w) {} :=
  ⟨sound_empty w, rfl, rfl, rfl, .refl _, .refl _⟩

/-- Bindings in order of their numbers are known by their members. -/
theorem eq_of_pairwise_before {bindings others : List Binding}
    (h : bindings.Pairwise fun b c => b.id.Before c.id)
    (hothers : others.Pairwise fun b c => b.id.Before c.id)
    (hmem : ∀ b, b ∈ bindings ↔ b ∈ others) : bindings = others := by
  have hirrefl : Std.Irrefl fun b c : Binding => b.id.Before c.id :=
    ⟨fun b => Nat.lt_irrefl b.id.number⟩
  have hantisymm : Std.Antisymm fun b c : Binding => b.id.Before c.id :=
    ⟨fun _ _ hbc hcb => absurd hbc (Nat.lt_asymm hcb)⟩
  exact h.eq_of_mem_iff hothers hmem

theorem wildcards_of_remove? {r' : Registry} {name : String} {b : Binding}
    (h : r.remove? name = some (b, r')) : r'.wildcards = r.wildcards := by
  obtain ⟨b', -, heq⟩ := Option.map_eq_some_iff.mp h
  cases heq
  rfl

theorem nextId_of_remove? {r' : Registry} {name : String} {b : Binding}
    (h : r.remove? name = some (b, r')) : r'.nextId = r.nextId := by
  obtain ⟨b', -, heq⟩ := Option.map_eq_some_iff.mp h
  cases heq
  rfl

namespace Follows

theorem taken_iff (h : Follows w r roll) {name : String} :
    name ∈ roll.listed.map Binding.name ↔ r.byName.contains name := by
  rw [(h.listed_perm.map Binding.name).mem_iff, List.mem_map, Dictionary.contains,
    Option.isSome_iff_exists]
  exact exists_congr fun b => h.sound.get?_eq_some_iff.symm

theorem get?_eq (h : Follows w r roll) (name : String) :
    r.get? name = roll.listed.find? (·.name = name) := by
  refine Option.ext fun b => ?_
  rw [h.sound.get?_eq_some_iff, ← h.listed_perm.mem_iff]
  constructor
  · rintro ⟨hb, rfl⟩
    have hfound : (roll.listed.find? (·.name = b.name)).isSome :=
      List.find?_isSome.mpr ⟨b, hb, by simp⟩
    obtain ⟨c, hc⟩ := Option.isSome_iff_exists.mp hfound
    have hname : c.name = b.name := by simpa using List.find?_some hc
    rw [hc, h.sound.eq_of_name_eq (h.listed_perm.mem_iff.mp (List.mem_of_find?_eq_some hc))
      (h.listed_perm.mem_iff.mp hb) hname]
  · intro hb
    exact ⟨List.mem_of_find?_eq_some hb, by simpa using List.find?_some hb⟩

/-- A binding that is registered is put at the end of the list. -/
theorem add (h : Follows w r roll) (name : String) (address : Address)
    (filter : Option Selector) (kind : BindingKind) :
    (r.serve (.add name address filter kind)).1 =
        (roll.serve (.add name address filter kind)).1 ∧
      Follows w (r.serve (.add name address filter kind)).2
        (roll.serve (.add name address filter kind)).2 := by
  simp only [serve, serve?, Roll.serve, h.taken_iff]
  cases hadd : r.add? name address filter kind with
  | none =>
      have htaken : r.byName.contains name := by
        by_contra hfree
        rw [Registry.add?, if_neg hfree] at hadd
        cases hadd
      rw [if_pos htaken]
      exact ⟨rfl, h⟩
  | some served =>
      obtain ⟨b, r'⟩ := served
      obtain ⟨hsound, hperm, hnone, -, rfl, -⟩ := h.sound.add? hadd
      have hfree : ¬r.byName.contains name := by simp [Dictionary.contains, hnone]
      have hr' : r'.nextId = ⟨r.nextId.number + 1⟩ ∧ r'.wildcards = r.wildcards := by
        rw [Registry.add?, if_neg hfree] at hadd
        cases hadd
        exact ⟨rfl, rfl⟩
      rw [if_neg hfree, ← h.nextId_eq]
      refine ⟨rfl, hsound, hr'.2.trans h.wildcards_eq, ?_, ?_, ?_, ?_⟩
      · rw [hr'.1, h.nextId_eq, List.length_append, List.length_singleton]
      · rw [List.map_append, h.numbers_eq, List.length_append, List.length_singleton,
          List.range'_concat, List.map_singleton, h.nextId_eq]
        simp [Nat.add_comm]
      · exact h.listed_sublist.append (.refl _)
      · exact (List.perm_append_singleton _ _).trans ((h.listed_perm.cons _).trans hperm.symm)

/-- The binding of a name is taken off the list, and the others stay. -/
theorem remove (h : Follows w r roll) (name : String) :
    (r.serve (.remove name)).1 = (roll.serve (.remove name)).1 ∧
      Follows w (r.serve (.remove name)).2 (roll.serve (.remove name)).2 := by
  simp only [serve, serve?, Roll.serve, ← h.get?_eq]
  cases hremove : r.remove? name with
  | none =>
      have hnone : r.get? name = none := Option.map_eq_none_iff.mp hremove
      have hkept : roll.listed.filter (·.name ≠ name) = roll.listed := by
        rw [h.get?_eq, List.find?_eq_none] at hnone
        exact List.filter_eq_self.mpr fun b hb => by simpa using hnone b hb
      rw [hkept]
      exact ⟨hnone.symm, h⟩
  | some served =>
      obtain ⟨b, r'⟩ := served
      obtain ⟨hsound, hb, -, hperm⟩ := h.sound.remove? hremove
      obtain ⟨hmem, hname⟩ := h.sound.get?_eq_some_iff.mp hb
      refine ⟨hb.symm, hsound, (wildcards_of_remove? hremove).trans h.wildcards_eq, ?_,
        h.numbers_eq, List.filter_sublist.trans h.listed_sublist, ?_⟩
      · exact (nextId_of_remove? hremove).trans h.nextId_eq
      · have hothers : r'.named.filter (·.name ≠ name) = r'.named := by
          refine List.filter_eq_self.mpr fun c hc => ?_
          have hnodup := (hperm.map Binding.name).nodup_iff.mp h.sound.names_nodup
          have hfresh := (List.nodup_cons.mp hnodup).1
          rw [hname] at hfresh
          simpa using fun heq : c.name = name => hfresh (List.mem_map.mpr ⟨c, hc, heq⟩)
        have hfilter := (h.listed_perm.trans hperm).filter (·.name ≠ name)
        rwa [List.filter_cons_of_neg (by simpa using hname), hothers] at hfilter

theorem serve (h : Follows w r roll) (request : Request) :
    (r.serve request).1 = (roll.serve request).1 ∧
      Follows w (r.serve request).2 (roll.serve request).2 := by
  cases request with
  | add name address filter kind => exact h.add name address filter kind
  | remove name => exact h.remove name

theorem serveAll (h : Follows w r roll) (requests : List Request) :
    (Registry.serveAll Registry.serve r requests).1 =
        (Registry.serveAll Roll.serve roll requests).1 ∧
      Follows w (Registry.serveAll Registry.serve r requests).2
        (Registry.serveAll Roll.serve roll requests).2 := by
  induction requests generalizing r roll with
  | nil => exact ⟨rfl, h⟩
  | cons request requests ih =>
      obtain ⟨hanswer, hnext⟩ := h.serve request
      obtain ⟨hanswers, hlast⟩ := ih hnext
      exact ⟨congrArg₂ List.cons hanswer hanswers, hlast⟩

/-! ### What a registry tells -/

theorem pairwise_granted (h : Follows w r roll) :
    roll.granted.Pairwise fun b c => b.id.Before c.id := by
  have hnumbers := List.pairwise_lt_range' (s := 1) (n := roll.granted.length)
  rw [← h.numbers_eq, List.pairwise_map] at hnumbers
  exact hnumbers

theorem pairwise_listed (h : Follows w r roll) :
    roll.listed.Pairwise fun b c => b.id.Before c.id :=
  h.pairwise_granted.sublist h.listed_sublist

theorem bindings_eq (h : Follows w r roll) : r.bindings = roll.listed :=
  eq_of_pairwise_before h.sound.pairwise_bindings h.pairwise_listed fun b => by
    rw [mem_bindings_iff, h.listed_perm.mem_iff]

theorem bindingsFor_eq (h : Follows w r roll) (address : String) :
    r.bindingsFor address = roll.listed.filter fun b => w.matches b.address.text address := by
  refine eq_of_pairwise_before (h.sound.pairwise_bindingsFor address)
    (h.pairwise_listed.sublist List.filter_sublist) fun b => ?_
  rw [h.sound.mem_bindingsFor_iff, List.mem_filter, h.listed_perm.mem_iff, h.wildcards_eq]

end Follows

/-- Everything that a registry tells is read off a list, and what the next change does to it. -/
structure Kept (w : Wildcards) (r : Registry) (roll : Roll) : Prop where
  /-- The bindings that were not withdrawn are there, in the order in which they came. -/
  bindings_eq : r.bindings = roll.listed
  listed_sublist : roll.listed.Sublist roll.granted
  pairwise_bindings : r.bindings.Pairwise fun b c => b.id.Before c.id
  /-- The numbers count the bindings that were ever registered, so that none comes again. -/
  numbers_eq : roll.granted.map (·.id.number) = List.range' 1 roll.granted.length
  names_nodup : (r.bindings.map Binding.name).Nodup
  get?_eq (name : String) : r.get? name = r.bindings.find? (·.name = name)
  bindingsFor_eq (address : String) :
    r.bindingsFor address = r.bindings.filter fun b => w.matches b.address.text address
  /-- A name is taken once. What is refused changes nothing. -/
  refused_iff (name : String) (address : Address) (filter : Option Selector)
    (kind : BindingKind) : (r.serve (.add name address filter kind)).1 = none ↔
      name ∈ r.bindings.map Binding.name
  unchanged (request : Request) : (r.serve request).1 = none → (r.serve request).2 = r
  /-- Withdrawing a binding takes it out of what is found, and the others stay. -/
  get?_removed (name other : String) : other ≠ name →
    (r.serve (.remove name)).2.get? other = r.get? other
  bindingsFor_removed (name address : String) :
    (r.serve (.remove name)).2.bindingsFor address =
      (r.bindingsFor address).filter (·.name ≠ name)

theorem unchanged_of_none {request : Request} (h : (r.serve request).1 = none) :
    (r.serve request).2 = r := by
  rw [serve] at h ⊢
  cases hserve : r.serve? request with
  | none => rfl
  | some served =>
      rw [hserve] at h
      cases h

theorem Follows.kept (h : Follows w r roll) : Kept w r roll where
  bindings_eq := h.bindings_eq
  listed_sublist := h.listed_sublist
  pairwise_bindings := h.sound.pairwise_bindings
  numbers_eq := h.numbers_eq
  names_nodup := ((inOrder_perm _).map Binding.name).nodup_iff.mpr h.sound.names_nodup
  get?_eq name := by rw [h.bindings_eq, h.get?_eq]
  bindingsFor_eq address := by rw [h.bindings_eq, h.bindingsFor_eq]
  refused_iff name address filter kind := by
    rw [h.bindings_eq, (h.add name address filter kind).1, Roll.serve]
    split <;> simp_all
  unchanged _ := unchanged_of_none
  get?_removed name other hother := by
    have hsame : (fun b : Binding =>
        decide (decide (b.name ≠ name) = true ∧ decide (b.name = other) = true)) =
          fun b => decide (b.name = other) := by
      funext b
      rw [decide_eq_decide, decide_eq_true_iff, decide_eq_true_iff]
      exact and_iff_right_of_imp fun heq => heq ▸ hother
    rw [(h.remove name).2.get?_eq, h.get?_eq, Roll.serve, List.find?_filter, hsame]
  bindingsFor_removed name address := by
    rw [(h.remove name).2.bindingsFor_eq, h.bindingsFor_eq, Roll.serve, List.filter_filter,
      List.filter_filter]
    exact List.filter_congr fun b _ => Bool.and_comm ..

/-- **A registry is the plain list of its bindings**, whatever is registered and withdrawn. -/
theorem serveAll_kept (w : Wildcards) (requests : List Request) :
    (serveAll serve (empty w) requests).1 = (serveAll Roll.serve {} requests).1 ∧
      Kept w (serveAll serve (empty w) requests).2 (serveAll Roll.serve {} requests).2 := by
  obtain ⟨hanswers, hfollows⟩ := (follows_empty w).serveAll requests
  exact ⟨hanswers, hfollows.kept⟩

end Registry

end Courier
