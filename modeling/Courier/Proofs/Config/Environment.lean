import Mathlib.Data.List.Pairwise
import Courier.Config.Sources
import Courier.Proofs.Dictionary

/-!
# The Order of the Environment

The variables of the environment come in no particular order. Each of them sets one value in the
tree of the configuration, and makes the tables on the way to it; where something other than a
table is in the way it does nothing, and says nothing about it either.

Two variables whose paths go apart do not meet: up to the place where their paths part both walk
through the same tables, whoever makes them, and from there on each stays under its own key. So
the order of such variables has no effect on the tree, on the number of variables that were taken
into account, or on the configuration that is loaded.

## Main definitions

* `Environment.Apart`: neither path leads through the end of the other.
* `Config.Tree.Independent`: variables that stand for such paths, or for none.

## Main results

* `Config.Tree.set_comm`: values at the ends of such paths are set in either order.
* `Config.Tree.apply_eq_of_perm`: variables with such paths are taken into account in any order.
* `Environment.order_irrelevant`: so the same configuration is loaded.
-/

namespace Courier

open Config (Tree)

/-! ### Setting two values -/

/-- Neither of two paths leads through the end of the other one; in particular they differ. -/
def Environment.Apart (p q : List String) : Prop :=
  ¬p <+: q ∧ ¬q <+: p

namespace Environment

variable {p q : List String} {k l : String}

instance : Decidable (Apart p q) := inferInstanceAs (Decidable (_ ∧ _))

theorem Apart.symm (h : Apart p q) : Apart q p := And.symm h

theorem Apart.left_ne_nil (h : Apart p q) : p ≠ [] := fun hp => h.1 (hp ▸ List.nil_prefix)

theorem Apart.right_ne_nil (h : Apart p q) : q ≠ [] := h.symm.left_ne_nil

/-- Behind a common key the paths are still apart. -/
theorem Apart.tail (h : Apart (k :: p) (k :: q)) : Apart p q := by
  simpa only [Apart, List.cons_prefix_cons, true_and] using h

end Environment

open Environment (Apart path?)

namespace Config.Tree

variable {entries : Entries String Tree} {k : String} {p q : List String}

/-- What the value under a key becomes when the value behind it is set: the value itself at the
end of the path, and otherwise the table there, or a new one, with the rest of the path set. -/
def setBelow (below : Option Tree) (path : List String) (value : Tree) : Tree :=
  if path = [] then value else (below.getD (table [])).set path value

theorem setBelow_of_ne_nil {below : Option Tree} {value : Tree} (h : p ≠ []) :
    setBelow below p value = (below.getD (table [])).set p value :=
  if_neg h

/-- Setting a value in a table changes what lies under one key. -/
theorem set_table_cons (entries : Entries String Tree) (k : String) (path : List String)
    (value : Tree) : (table entries).set (k :: path) value =
      table (Entries.insert k (setBelow (Entries.find? k entries) path value) entries) := by
  cases path <;> rfl

/-- Values at the ends of paths that go apart are set in either order. -/
theorem set_comm (h : Apart p q) (t v w : Tree) :
    (t.set p v).set q w = (t.set q w).set p v := by
  induction p generalizing q t with
  | nil => exact absurd rfl h.left_ne_nil
  | cons k p ih =>
      obtain ⟨l, q, rfl⟩ := List.exists_cons_of_ne_nil h.right_ne_nil
      cases t with
      | table entries =>
          simp only [set_table_cons, Entries.find?_insert]
          by_cases hkl : k = l
          · -- the paths share the key, and part further on
            subst hkl
            have hapart := h.tail
            simp only [if_pos, setBelow_of_ne_nil hapart.left_ne_nil,
              setBelow_of_ne_nil hapart.right_ne_nil, Option.getD_some,
              Entries.insert_insert_self, ih hapart]
          · rw [if_neg (Ne.symm hkl), if_neg hkl, Entries.insert_comm hkl]
      -- where something other than a table is in the way nothing is set
      | _ => rfl

/-! ### Variables in any order -/

variable {start : String} {env env' : List (String × String)}

/-- Two variables that stand for paths that go apart, if they stand for paths at all. -/
def Independent (start : String) (v w : String × String) : Prop :=
  ∀ p, path? start v.1 = some p → ∀ q, path? start w.1 = some q → Apart p q

/-- Independent variables are taken into account in either order. -/
theorem applyOne_comm {v w : String × String} (h : Independent start v w) (s : Tree × Nat) :
    applyOne start (applyOne start s v) w = applyOne start (applyOne start s w) v := by
  cases hv : path? start v.1 with
  | none => simp [applyOne, hv]
  | some p =>
      cases hw : path? start w.1 with
      | none => simp [applyOne, hv, hw]
      | some q => simp [applyOne, hv, hw, set_comm (h p hv q hw)]

/-- Variables whose paths go apart give the same tree and the same number in any order. -/
theorem apply_eq_of_perm (hperm : env.Perm env')
    (hapart : (env.filterMap fun v => path? start v.1).Pairwise Apart) (t : Tree) :
    t.apply start env = t.apply start env' := by
  have hindependent : env.Pairwise (Independent start) := List.pairwise_filterMap.1 hapart
  refine hperm.foldl_eq' (fun v hv w hw s => ?_) (t, 0)
  by_cases hvw : v = w
  · rw [hvw]
  · have : Std.Symm (Independent start) := ⟨fun v w h q hq p hp => (h p hp q hq).symm⟩
    exact applyOne_comm (hindependent.forall hv hw hvw) s

end Config.Tree

namespace Environment

/-- **The order of the environment is irrelevant.** Variables whose paths go apart, among any others
whose names do not stand for paths, may come in any order: every tree becomes the same one, as many
variables are taken into account, and from the same file the same configuration is loaded or the
same error reported. -/
theorem order_irrelevant {start : String} {env env' : List (String × String)}
    (hperm : env.Perm env')
    (hapart : (env.filterMap fun v => path? start v.1).Pairwise Apart) :
    (∀ t : Tree, (t.apply start env).1 = (t.apply start env').1 ∧
      (t.apply start env).2 = (t.apply start env').2) ∧
    ∀ levels file directories, ConfigSources.load levels { start, file, directories, env } =
      ConfigSources.load levels { start, file, directories, env := env' } := by
  have happly := Tree.apply_eq_of_perm hperm hapart
  refine ⟨fun t => ⟨congrArg Prod.fst (happly t), congrArg Prod.snd (happly t)⟩, ?_⟩
  intro levels file directories
  simp only [ConfigSources.load, ConfigSources.chosenFile, happly]

/-- Two variables below the same section, one of them in small letters; one that names no path, and
one that is not meant for the broker. -/
def shellVariables : List (String × String) :=
  [("KAELIX_DELIVERY__MAX_DELIVERY_ATTEMPTS", "3"), ("HOME", "/home/orders"),
    ("KAELIX_delivery__expiry_address", "expired"), ("KAELIX_ROUTING____MAX_DIVERT_HOPS", "4")]

theorem order_irrelevant_shellVariables :
    shellVariables.Perm shellVariables.reverse ∧
      (shellVariables.filterMap fun v => path? "KAELIX" v.1).Pairwise Apart ∧
      (∀ t : Tree, (t.apply "KAELIX" shellVariables).1 =
          (t.apply "KAELIX" shellVariables.reverse).1 ∧
        (t.apply "KAELIX" shellVariables).2 = (t.apply "KAELIX" shellVariables.reverse).2) ∧
      ∀ levels file directories,
        ConfigSources.load levels
            { start := "KAELIX", file, directories, env := shellVariables } =
          ConfigSources.load levels
            { start := "KAELIX", file, directories, env := shellVariables.reverse } := by
  have hperm : shellVariables.Perm shellVariables.reverse := shellVariables.reverse_perm.symm
  have hapart : (shellVariables.filterMap fun v => path? "KAELIX" v.1).Pairwise Apart := by
    decide +kernel
  exact ⟨hperm, hapart, order_irrelevant hperm hapart⟩

end Environment

end Courier
