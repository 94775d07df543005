import Courier.Registry
import Courier.Proofs.Address.Lookup
import Courier.Proofs.Dictionary

/-!
# What a Registry Finds

A registry keeps its bindings twice, by name and by pattern, and both hold the same bindings.
The bindings that are found for an address are bindings of the registry, each found once.

## Main results

* `Registry.Sound`: the invariant of registries.
* `Registry.Sound.add?`, `Registry.Sound.remove?`: the bindings after a change.
* `Registry.Sound.mem_bindingsFor_iff`, `Registry.Sound.pairwise_bindingsFor`: the bindings that
  are found for an address and their order.
* `Registry.Sound.get?_eq_some_iff`, `Registry.Sound.names_nodup`: the binding of a name.
-/

namespace Courier

/-- An earlier number. -/
def BindingId.Before (a b : BindingId) : Prop := a.number < b.number

namespace Registry

/-- The bindings under their names. -/
def named (r : Registry) : List Binding := r.byName.values

/-- The invariant of registries. -/
structure Sound (r : Registry) : Prop where
  sorted : r.index.Sorted
  entries_perm : r.index.entries.Perm
    (r.named.map fun b => (r.wildcards.segments b.address.text, b))
  ids_nodup : (r.named.map Binding.id).Nodup
  id_lt : ∀ b ∈ r.named, b.id.number < r.nextId.number
  name_eq : ∀ name b, r.byName.get? name = some b → b.name = name

theorem sound_empty (w : Wildcards) : (empty w).Sound :=
  ⟨AddressIndex.sorted_empty w, .refl _, .nil, nofun, nofun⟩

/-- Two bindings with one number are the same binding. -/
theorem Sound.eq_of_id_eq {r : Registry} (h : r.Sound) {b b' : Binding} (hb : b ∈ r.named)
    (hb' : b' ∈ r.named) (hid : b.id = b'.id) : b = b' :=
  List.inj_on_of_nodup_map h.ids_nodup hb hb' hid

/-- A binding that is registered gets a number of its own. -/
theorem Sound.add? {r r' : Registry} (h : r.Sound) {name : String} {address : Address}
    {filter : Option Selector} {kind : BindingKind} {b : Binding}
    (hadd : r.add? name address filter kind = some (b, r')) :
    r'.Sound ∧ r'.named.Perm (b :: r.named) ∧ r.byName.get? name = none ∧
      r'.byName = r.byName.insert name b ∧ b = { id := r.nextId, name, address, filter, kind } ∧
      b.id ∉ r.named.map Binding.id := by
  rw [Registry.add?] at hadd
  split at hadd
  · cases hadd
  · next hfree =>
      cases hadd
      have hnone : r.byName.get? name = none := by
        simpa [Dictionary.contains] using hfree
      let b : Binding := { id := r.nextId, name, address, filter, kind }
      have hperm : (r.byName.insert name b).values.Perm (b :: r.named) :=
        Dictionary.values_insert_perm_of_get?_eq_none _ hnone
      have hnew : b.id ∉ r.named.map Binding.id := by
        intro hmem
        obtain ⟨c, hc, hid⟩ := List.mem_map.mp hmem
        have hlt := h.id_lt c hc
        rw [hid] at hlt
        exact Nat.lt_irrefl _ hlt
      refine ⟨⟨h.sorted.insert .., ?_, ?_, ?_, ?_⟩, hperm, hnone, rfl, rfl, hnew⟩
      · refine (AddressIndex.entries_insert h.sorted ..).trans ?_
        exact (h.entries_perm.cons _).trans
          (hperm.symm.map fun c : Binding => (r.wildcards.segments c.address.text, c))
      · exact (hperm.map Binding.id).nodup_iff.mpr (List.nodup_cons.mpr ⟨hnew, h.ids_nodup⟩)
      · intro c hc
        rcases List.mem_cons.mp (hperm.mem_iff.mp hc) with rfl | hc
        · exact Nat.lt_succ_self _
        · exact Nat.lt_succ_of_lt (h.id_lt c hc)
      · intro other c hc
        rw [Dictionary.get?_insert] at hc
        split at hc
        · next heq =>
            cases hc
            exact heq.symm
        · exact h.name_eq other c hc

/-- A binding that is withdrawn is found no longer, and the others are. -/
theorem Sound.remove? {r r' : Registry} (h : r.Sound) {name : String} {b : Binding}
    (hremove : r.remove? name = some (b, r')) :
    r'.Sound ∧ r.byName.get? name = some b ∧ r'.byName = r.byName.erase name ∧
      r.named.Perm (b :: r'.named) := by
  obtain ⟨b', hb', heq⟩ := Option.map_eq_some_iff.mp hremove
  cases heq
  have hperm : r.named.Perm (b :: (r.byName.erase name).values) :=
    Dictionary.values_perm_of_get? hb'
  have hb : b ∈ r.named := hperm.mem_iff.mpr (.head _)
  have hentry := h.entries_perm.mem_iff.mpr
    (List.mem_map_of_mem (f := fun c : Binding => (r.wildcards.segments c.address.text, c)) hb)
  obtain ⟨a, -, ha, hentries⟩ :=
    AddressIndex.exists_removeFirst (p := (·.id = b.id)) h.sorted hentry (by simp)
  have hmem : a ∈ r.named := by
    have := h.entries_perm.mem_iff.mp (hentries.mem_iff.mpr (.head _))
    obtain ⟨c, hc, heq⟩ := List.mem_map.mp this
    have hca : c = a := congrArg Prod.snd heq
    rwa [hca] at hc
  obtain rfl := h.eq_of_id_eq hmem hb (by simpa using ha)
  have hids := (hperm.map Binding.id).nodup_iff.mp h.ids_nodup
  refine ⟨⟨?_, ?_, (List.nodup_cons.mp hids).2, fun c hc => h.id_lt c ?_, ?_⟩, hb', rfl, hperm⟩
  · exact h.sorted.removeFirst ..
  · have hrest := hentries.symm.trans (h.entries_perm.trans (hperm.map _))
    exact List.Perm.cons_inv hrest
  · exact hperm.mem_iff.mpr (.tail _ hc)
  · intro other c hc
    rw [Dictionary.get?_erase] at hc
    split at hc
    · cases hc
    · exact h.name_eq other c hc

/-! ### The bindings for an address -/

theorem insertInOrder_perm (b : Binding) (bindings : List Binding) :
    (insertInOrder b bindings).Perm (b :: bindings) := by
  induction bindings with
  | nil => exact .refl _
  | cons c bindings ih =>
      rw [insertInOrder]
      split
      · exact .refl _
      · exact (ih.cons c).trans (.swap ..)

theorem inOrder_perm (bindings : List Binding) : (inOrder bindings).Perm bindings := by
  induction bindings with
  | nil => exact .refl _
  | cons b bindings ih => exact (insertInOrder_perm b _).trans (ih.cons b)

/-- The bindings for an address are bindings of the registry, each found once. -/
theorem Sound.bindingsFor_subperm {r : Registry} (h : r.Sound) (address : String) :
    (r.bindingsFor address).Subperm r.named := by
  have hvalues : r.index.values.Perm r.named := by
    have := h.entries_perm.map Prod.snd
    simpa [AddressIndex.values, Function.comp_def] using this
  exact (inOrder_perm _).subperm.trans
    ((AddressIndex.lookup_subperm h.sorted address).trans hvalues.subperm)

theorem Sound.mem_of_mem_bindingsFor {r : Registry} (h : r.Sound) {address : String}
    {b : Binding} (hb : b ∈ r.bindingsFor address) : b ∈ r.named :=
  (h.bindingsFor_subperm address).subset hb

theorem Sound.ids_bindingsFor_nodup {r : Registry} (h : r.Sound) (address : String) :
    ((r.bindingsFor address).map Binding.id).Nodup := by
  obtain ⟨bindings, hperm, hsub⟩ := h.bindingsFor_subperm address
  exact (hperm.map Binding.id).nodup_iff.mp (h.ids_nodup.sublist (hsub.map Binding.id))

/-- **The bindings for an address** are those whose patterns match it. -/
theorem Sound.mem_bindingsFor_iff {r : Registry} (h : r.Sound) {address : String} {b : Binding} :
    b ∈ r.bindingsFor address ↔ b ∈ r.named ∧ r.wildcards.matches b.address.text address := by
  rw [bindingsFor, (inOrder_perm _).mem_iff, AddressIndex.mem_lookup_iff h.sorted,
    Wildcards.matches_iff]
  constructor
  · rintro ⟨pattern, hentry, hmatches⟩
    obtain ⟨b', hb', heq⟩ := List.mem_map.mp (h.entries_perm.mem_iff.mp hentry)
    cases heq
    exact ⟨hb', hmatches⟩
  · rintro ⟨hb, hmatches⟩
    exact ⟨_, h.entries_perm.mem_iff.mpr (List.mem_map_of_mem hb), hmatches⟩

theorem pairwise_insertInOrder {b : Binding} {bindings : List Binding}
    (h : bindings.Pairwise fun b c => b.id.number ≤ c.id.number) :
    (insertInOrder b bindings).Pairwise fun b c => b.id.number ≤ c.id.number := by
  induction bindings with
  | nil => exact List.pairwise_singleton ..
  | cons c bindings ih =>
      obtain ⟨hfirst, hrest⟩ := List.pairwise_cons.mp h
      rw [insertInOrder]
      split
      · next hle =>
          refine List.pairwise_cons.mpr ⟨fun d hd => ?_, h⟩
          rcases List.mem_cons.mp hd with rfl | hd
          · exact hle
          · exact Nat.le_trans hle (hfirst d hd)
      · next hnle =>
          refine List.pairwise_cons.mpr ⟨fun d hd => ?_, ih hrest⟩
          rcases List.mem_cons.mp ((insertInOrder_perm b bindings).mem_iff.mp hd) with rfl | hd
          · exact Nat.le_of_not_le hnle
          · exact hfirst d hd

theorem pairwise_inOrder (bindings : List Binding) :
    (inOrder bindings).Pairwise fun b c => b.id.number ≤ c.id.number := by
  induction bindings with
  | nil => exact .nil
  | cons b bindings ih => exact pairwise_insertInOrder ih

/-- Bindings with different numbers are put in order of their numbers. -/
theorem pairwise_inOrder_of_nodup {bindings : List Binding}
    (h : (bindings.map Binding.id).Nodup) :
    (inOrder bindings).Pairwise fun b c => b.id.Before c.id := by
  have hnodup := List.pairwise_map.mp (((inOrder_perm bindings).map Binding.id).nodup_iff.mpr h)
  refine (pairwise_inOrder _).imp₂ (fun b c hle hne => ?_) hnodup
  exact Nat.lt_of_le_of_ne hle fun heq => hne (congrArg BindingId.mk heq)

/-- The bindings for an address stand in the order of their numbers, which are all different. -/
theorem Sound.pairwise_bindingsFor {r : Registry} (h : r.Sound) (address : String) :
    (r.bindingsFor address).Pairwise fun b c => b.id.Before c.id := by
  have hperm := (inOrder_perm (r.index.lookup address)).map Binding.id
  exact pairwise_inOrder_of_nodup (hperm.nodup_iff.mp (h.ids_bindingsFor_nodup address))

theorem Sound.pairwise_bindings {r : Registry} (h : r.Sound) :
    r.bindings.Pairwise fun b c => b.id.Before c.id :=
  pairwise_inOrder_of_nodup h.ids_nodup

theorem mem_bindings_iff {r : Registry} {b : Binding} : b ∈ r.bindings ↔ b ∈ r.named :=
  (inOrder_perm _).mem_iff

/-! ### The binding of a name -/

theorem Sound.get?_eq_some_iff {r : Registry} (h : r.Sound) {name : String} {b : Binding} :
    r.get? name = some b ↔ b ∈ r.named ∧ b.name = name := by
  constructor
  · intro hb
    exact ⟨Dictionary.mem_values_iff.mpr ⟨name, hb⟩, h.name_eq name b hb⟩
  · rintro ⟨hb, rfl⟩
    obtain ⟨name, hname⟩ := Dictionary.mem_values_iff.mp hb
    rwa [h.name_eq name b hname]

theorem Sound.eq_of_name_eq {r : Registry} (h : r.Sound) {b c : Binding} (hb : b ∈ r.named)
    (hc : c ∈ r.named) (hname : b.name = c.name) : b = c := by
  have hfind := h.get?_eq_some_iff.mpr ⟨hb, hname⟩
  rw [h.get?_eq_some_iff.mpr ⟨hc, rfl⟩] at hfind
  exact (Option.some.inj hfind).symm

theorem Sound.names_nodup {r : Registry} (h : r.Sound) : (r.named.map Binding.name).Nodup :=
  List.Nodup.map_on (fun _ hb _ hc => h.eq_of_name_eq hb hc) (.of_map _ h.ids_nodup)

end Registry

end Courier
