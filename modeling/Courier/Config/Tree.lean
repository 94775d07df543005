import Courier.Dictionary
import Courier.Number.Decimal

/-!
# Configuration Trees

A configuration is written as a tree of tables, arrays and plain values before anything is
known about the meaning of its keys. Trees from several places are combined in layers: a later
tree is laid over an earlier one, table by table, and single values are set along a path.

The entries of a table are kept in key order, so trees that say the same are equal.

## Main definitions

* `Config.Tree`: the trees, which can be compared.
* `Config.Tree.get?`: the subtree at the end of a path of keys.
* `Config.Tree.merge`: one tree laid over another.
* `Config.Tree.set`: a tree with the value at the end of a path replaced.

## Main results

* `Config.Tree.find?_mergeEntries`: each key of two merged tables is settled on its own.
-/

namespace Courier.Config

/-- A configuration before its keys are given a meaning. -/
inductive Tree where
  /-- A text. -/
  | string (text : String)
  /-- An integer. -/
  | integer (n : Int64)
  /-- A floating-point number. -/
  | float (x : Float)
  /-- A truth value. -/
  | boolean (b : Bool)
  /-- A list of trees. -/
  | array (items : List Tree)
  /-- Trees under keys. -/
  | table (entries : List (String × Tree))
  deriving Inhabited

namespace Tree

/-! ### Comparing -/

mutual

/-- Whether two trees are the same. -/
def same : Tree → Tree → Bool
  | string a, string b => a = b
  | integer m, integer n => m = n
  | float x, float y => x = y
  | boolean a, boolean b => a = b
  | array items, array others => sameItems items others
  | table entries, table others => sameEntries entries others
  | _, _ => false

/-- Whether two lists have the same trees. -/
def sameItems : List Tree → List Tree → Bool
  | [], [] => true
  | t :: items, u :: others => same t u && sameItems items others
  | _, _ => false

/-- Whether two lists have the same entries. -/
def sameEntries : List (String × Tree) → List (String × Tree) → Bool
  | [], [] => true
  | (k, t) :: entries, (l, u) :: others => k = l && same t u && sameEntries entries others
  | _, _ => false

end

mutual

theorem same_iff : ∀ t u : Tree, same t u ↔ t = u
  | string _, u | integer _, u | float _, u | boolean _, u => by cases u <;> simp [same]
  | array items, u => by cases u <;> simp [same, sameItems_iff items]
  | table entries, u => by cases u <;> simp [same, sameEntries_iff entries]

theorem sameItems_iff : ∀ items others : List Tree, sameItems items others ↔ items = others
  | [], others => by cases others <;> simp [sameItems]
  | t :: items, others => by cases others <;> simp [sameItems, same_iff t, sameItems_iff items]

theorem sameEntries_iff :
    ∀ entries others : List (String × Tree), sameEntries entries others ↔ entries = others
  | [], others => by cases others <;> simp [sameEntries]
  | (k, t) :: entries, others => by
      cases others <;> simp [sameEntries, Prod.ext_iff, same_iff t, sameEntries_iff entries]

end

/-- Trees can be compared, numbers with points included. -/
instance : DecidableEq Tree := fun t u => decidable_of_iff _ (same_iff t u)

/-! ### Building and looking up -/

/-- The table with the fields that have a value. -/
def ofFields (fields : List (String × Option Tree)) : Tree :=
  table <| fields.foldl (fun entries field =>
    match field.2 with
    | some value => Entries.insert field.1 value entries
    | none => entries) []

/-- The subtree at the end of a path of keys. -/
def get? : List String → Tree → Option Tree
  | [], t => some t
  | k :: path, table entries => (Entries.find? k entries).bind (get? path)
  | _ :: _, _ => none

/-! ### Combining -/

mutual

/-- A tree with another one laid over it. Tables are combined entry by entry; anything else in
the upper tree hides what lies below it. -/
def merge (base : Tree) : Tree → Tree
  | table above =>
    match base with
    | table entries => table (mergeEntries entries above)
    | _ => table above
  | above => above

/-- The entries of a table with those of another one laid over them. -/
def mergeEntries (base : Entries String Tree) : List (String × Tree) → Entries String Tree
  | [] => base
  | (k, above) :: rest =>
    mergeEntries (Entries.insert k (((Entries.find? k base).map (merge · above)).getD above) base)
      rest

end

/-- A tree with the value at the end of a path of keys set. Tables that are missing on the way
are made; where something other than a table is in the way the tree stays as it is. -/
def set : Tree → List String → Tree → Tree
  | table entries, [k], value => table (Entries.insert k value entries)
  | table entries, k :: path, value =>
    table (Entries.insert k (set ((Entries.find? k entries).getD (table [])) path value) entries)
  | t, _, _ => t
termination_by structural _ path => path

/-- What a bare text stands for: a truth value, an integer or a number if it reads as one, and
otherwise the text itself. -/
def ofText (text : String) : Tree :=
  if text = "true" then boolean true
  else if text = "false" then boolean false
  else
    match Integer.readSigned 64 text with
    | .ok n => integer (Int64.ofInt n)
    | .error _ =>
      match BinaryFormat.double.read text with
      | .ok bits => float (Float.ofBits (UInt64.ofNat bits))
      | .error _ => string text

/-- Under each key of two merged tables lies the upper tree, laid over the lower one if there
is one, and the lower tree where the upper table has none. -/
theorem find?_mergeEntries {base above : Entries String Tree} (h : above.Sorted) (k : String) :
    Entries.find? k (mergeEntries base above) =
      match Entries.find? k above with
      | some t => some (((Entries.find? k base).map (merge · t)).getD t)
      | none => Entries.find? k base := by
  induction above generalizing base with
  | nil => simp [mergeEntries, Entries.find?]
  | cons e rest ih =>
    obtain ⟨k', t⟩ := e
    rw [mergeEntries, ih h.tail, Entries.find?_insert]
    rcases hc : compare k k' with _ | _ | _
    · have hne : k ≠ k' := fun he => by simp [he] at hc
      have hnone : Entries.find? k rest = none :=
        Entries.find?_eq_none fun e he =>
          Std.TransCmp.lt_trans hc ((List.pairwise_cons.1 h).1 e he)
      simp [Entries.find?, hc, hne, hnone]
    · obtain rfl := Std.LawfulEqCmp.eq_of_compare hc
      have hnone : Entries.find? k rest = none :=
        Entries.find?_eq_none (List.pairwise_cons.1 h).1
      simp [Entries.find?, hnone]
    · have hne : k ≠ k' := fun he => by simp [he] at hc
      simp [Entries.find?, hc, hne]

end Tree

end Courier.Config
