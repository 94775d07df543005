import Courier.Config.Sources
import Courier.Proofs.Dictionary

/-!
# What a Merged Tree Holds

One tree is laid over another one path by path. At the end of a path lies what the upper tree has
there: a plain value as it is, and a table laid over the table of the lower tree. Where the upper
tree has nothing, the lower one is seen, unless it was cut off further up: a path cannot go on
through a plain value of the upper tree, and a table of the upper tree that took the place of a
plain value below has nothing of the lower tree in it.

A tree that was laid over another one may be laid over it again without any effect.

## Main definitions

* `Config.Tree.Tidy`: the tables along paths have their keys in order, each of them once.
* `Config.Tree.Replaces`, `Config.Tree.Covers`: where the upper tree cuts off the lower one.

## Main results

* `Config.Tree.get?_merge_of_some`, `Config.Tree.get?_merge_of_none`: what lies at the end of a
  path.
* `Config.Tree.merge_merge_self`: laying a tree over another one twice.
* `Config.Tree.merge_pathwise`: both for tables.
-/

namespace Courier.Config.Tree

/-- Whether a tree is a table. -/
def isTable : Tree → Bool
  | table _ => true
  | _ => false

/-- The tables at the ends of paths have their keys in order, each of them once. -/
def Tidy (t : Tree) : Prop :=
  ∀ path entries, t.get? path = some (table entries) → Entries.Sorted entries

/-- At the end of a path lies something of the upper tree through which nothing of the lower tree is
seen: a plain value, or a table in the place of a plain value. -/
def Replaces (base above : Tree) (path : List String) : Prop :=
  ∃ t, above.get? path = some t ∧
    (t.isTable = false ∨ ∃ u, base.get? path = some u ∧ u.isTable = false)

/-- The upper tree cuts a path off before its end. -/
def Covers (base above : Tree) (path : List String) : Prop :=
  ∃ start, start <+: path ∧ start ≠ path ∧ Replaces base above start

variable {base above t u : Tree} {entries lower upper : Entries String Tree} {k : String}
  {path : List String}

/-! ### Paths -/

theorem plain_or_table (t : Tree) : t.isTable = false ∨ ∃ entries, t = table entries := by
  cases t with
  | table entries => exact .inr ⟨entries, rfl⟩
  | _ => exact .inl rfl

@[simp] theorem get?_nil (t : Tree) : t.get? [] = some t := rfl

@[simp] theorem get?_table_cons (entries : Entries String Tree) (k : String)
    (path : List String) :
    (table entries).get? (k :: path) = (Entries.find? k entries).bind (get? path) := rfl

/-- No path goes on through a plain value. -/
theorem get?_cons_of_plain (h : t.isTable = false) (k : String) (path : List String) :
    t.get? (k :: path) = none := by
  cases t with
  | table entries => cases h
  | _ => rfl

/-- A plain value replaces whatever it is laid over. -/
theorem merge_of_plain (h : above.isTable = false) (base : Tree) : base.merge above = above := by
  cases above with
  | table entries => cases h
  | _ => rfl

/-- A table replaces a plain value as a whole. -/
theorem merge_table_of_plain (h : base.isTable = false) (upper : Entries String Tree) :
    base.merge (table upper) = table upper := by
  cases base with
  | table entries => cases h
  | _ => rfl

theorem merge_table_table (lower upper : Entries String Tree) :
    (table lower).merge (table upper) = table (mergeEntries lower upper) := rfl

theorem tidy_of_plain (h : t.isTable = false) : t.Tidy := by
  intro path entries hentries
  cases path with
  | nil =>
      cases hentries
      cases h
  | cons k path => cases (get?_cons_of_plain h k path).symm.trans hentries

theorem Tidy.sorted (h : Tidy (table entries)) : entries.Sorted := h [] entries rfl

theorem Tidy.find? (h : Tidy (table entries)) (ht : Entries.find? k entries = some t) : t.Tidy :=
  fun path below hbelow => h (k :: path) below (by simp [ht, hbelow])

theorem tidy_table_iff :
    Tidy (table entries) ↔ entries.Sorted ∧ ∀ e ∈ entries, e.2.Tidy := by
  constructor
  · intro h
    exact ⟨h.sorted, fun e he => h.find? ((Entries.find?_eq_some_iff h.sorted).mpr he)⟩
  · rintro ⟨hs, hall⟩ path below hbelow
    cases path with
    | nil =>
        cases hbelow
        exact hs
    | cons k path =>
        obtain ⟨t, ht, hpath⟩ := Option.bind_eq_some_iff.mp hbelow
        exact hall (k, t) ((Entries.find?_eq_some_iff hs).mp ht) path below hpath

/-! ### What the upper tree has -/

/-- What the upper tree has at the end of a path lies there, over what the lower tree has. -/
theorem get?_merge_of_some (htidy : above.Tidy) (h : above.get? path = some t) :
    (base.merge above).get? path = some (((base.get? path).map (merge · t)).getD t) := by
  induction path generalizing base above with
  | nil =>
      cases h
      rfl
  | cons k path ih =>
      rcases above.plain_or_table with habove | ⟨upper, rfl⟩
      · cases (get?_cons_of_plain habove k path).symm.trans h
      · rcases base.plain_or_table with hbase | ⟨lower, rfl⟩
        · rw [merge_table_of_plain hbase, h, get?_cons_of_plain hbase]
          rfl
        · obtain ⟨next, hnext, ht⟩ := Option.bind_eq_some_iff.mp h
          rw [merge_table_table, get?_table_cons, find?_mergeEntries htidy.sorted, hnext,
            get?_table_cons]
          cases hlower : Entries.find? k lower with
          | none => exact ht
          | some below => exact ih (htidy.find? hnext) ht

/-! ### Where the upper tree has nothing -/

theorem replaces_of_plain (h : above.isTable = false) : Replaces base above [] :=
  ⟨above, rfl, .inl h⟩

theorem not_replaces_nil : ¬Replaces (table lower) (table upper) [] := by
  rintro ⟨t, ht, hplain | ⟨u, hu, hplain⟩⟩
  · cases ht
    cases hplain
  · cases hu
    cases hplain

/-- Where a path starts with a table in both trees, it is cut off further on. -/
theorem covers_table_cons (hlower : Entries.find? k lower = some u)
    (hupper : Entries.find? k upper = some t) :
    Covers (table lower) (table upper) (k :: path) ↔ Covers u t path := by
  have hreplaces : ∀ start,
      Replaces (table lower) (table upper) (k :: start) ↔ Replaces u t start := by
    intro start
    simp [Replaces, hlower, hupper]
  constructor
  · rintro ⟨start, hstart, hne, hcut⟩
    cases start with
    | nil => exact absurd hcut not_replaces_nil
    | cons l start =>
        obtain ⟨rfl, hrest⟩ := List.cons_prefix_cons.mp hstart
        exact ⟨start, hrest, fun heq => hne (heq ▸ rfl), (hreplaces start).mp hcut⟩
  · rintro ⟨start, hstart, hne, hcut⟩
    refine ⟨k :: start, List.cons_prefix_cons.mpr ⟨rfl, hstart⟩, fun heq => ?_,
      (hreplaces start).mpr hcut⟩
    exact hne (List.cons.inj heq).2

/-- A key that the upper table lacks leads to what lies below. -/
theorem not_covers_of_find?_eq_none (h : Entries.find? k upper = none) :
    ¬Covers (table lower) (table upper) (k :: path) := by
  rintro ⟨start, hstart, -, hcut⟩
  cases start with
  | nil => exact not_replaces_nil hcut
  | cons l start =>
      obtain ⟨rfl, -⟩ := List.cons_prefix_cons.mp hstart
      obtain ⟨t, ht, -⟩ := hcut
      simp [h] at ht

/-- Where the upper tree has nothing the lower one is seen, unless the path was cut off. -/
theorem get?_merge_of_none (htidy : above.Tidy) (h : above.get? path = none) :
    (Covers base above path → (base.merge above).get? path = none) ∧
      (¬Covers base above path → (base.merge above).get? path = base.get? path) := by
  induction path generalizing base above with
  | nil => cases h
  | cons k path ih =>
      have hroot (hcut : Replaces base above []) : Covers base above (k :: path) :=
        ⟨[], List.nil_prefix, List.cons_ne_nil k path |>.symm, hcut⟩
      rcases above.plain_or_table with habove | ⟨upper, rfl⟩
      · rw [merge_of_plain habove, h]
        exact ⟨fun _ => rfl, fun hcovers => absurd (hroot (replaces_of_plain habove)) hcovers⟩
      · rcases base.plain_or_table with hbase | ⟨lower, rfl⟩
        · rw [merge_table_of_plain hbase, h]
          refine ⟨fun _ => rfl, fun hcovers => absurd (hroot ?_) hcovers⟩
          exact ⟨_, rfl, .inr ⟨base, rfl, hbase⟩⟩
        · rw [merge_table_table, get?_table_cons, find?_mergeEntries htidy.sorted,
            get?_table_cons]
          cases hupper : Entries.find? k upper with
          | none =>
              exact ⟨fun hcovers => absurd hcovers (not_covers_of_find?_eq_none hupper),
                fun _ => rfl⟩
          | some next =>
              have hnone : next.get? path = none := by simpa [hupper] using h
              cases hlower : Entries.find? k lower with
              | none => simp [hnone]
              | some below =>
                  rw [covers_table_cons hlower hupper]
                  exact ih (htidy.find? hupper) hnone

/-! ### Laying a tree over another one twice -/

theorem sizeOf_lt_of_mem {e : String × Tree} (h : e ∈ entries) :
    sizeOf e.2 < sizeOf (table entries) := by
  obtain ⟨k, t⟩ := e
  have hentry := List.sizeOf_lt_of_mem h
  simp only [Prod.mk.sizeOf_spec, table.sizeOf_spec] at hentry ⊢
  omega

/-- Entries that are hidden by those of a table change nothing when they are laid over it. -/
theorem mergeEntries_eq_self
    (h : ∀ e ∈ upper, ∃ u, Entries.find? e.1 lower = some u ∧ u.merge e.2 = u) :
    mergeEntries lower upper = lower := by
  induction upper with
  | nil => rfl
  | cons e upper ih =>
      obtain ⟨⟨u, hu, hsame⟩, hrest⟩ := List.forall_mem_cons.mp h
      have hinsert : Entries.insert e.1 (u.merge e.2) lower = lower := by
        rw [hsame]
        exact Entries.insert_eq_self hu
      rw [mergeEntries, hu, Option.map_some, Option.getD_some, hinsert]
      exact ih hrest

/-- **A tree that was laid over another one changes nothing when it is laid over it again**, nor
does a tree that is laid over itself. -/
theorem merge_merge_self (above : Tree) (htidy : above.Tidy) (below : Option Tree) :
    ((below.map (merge · above)).getD above).merge above =
      (below.map (merge · above)).getD above := by
  rcases above.plain_or_table with habove | ⟨upper, rfl⟩
  · exact (merge_of_plain habove _).trans (by cases below <;> simp [merge_of_plain habove])
  · have hfound {e : String × Tree} (he : e ∈ upper) : Entries.find? e.1 upper = some e.2 :=
      (Entries.find?_eq_some_iff htidy.sorted).mpr he
    -- the result is a table that holds under each key of the upper one what was laid there
    suffices h : ∃ entries, (below.map (merge · (table upper))).getD (table upper) =
        table entries ∧ ∀ e ∈ upper, ∃ below : Option Tree,
          Entries.find? e.1 entries = some ((below.map (merge · e.2)).getD e.2) by
      obtain ⟨entries, heq, hheld⟩ := h
      rw [heq, merge_table_table, mergeEntries_eq_self]
      intro e he
      obtain ⟨below, hbelow⟩ := hheld e he
      have hlt : sizeOf e.2 < sizeOf (table upper) := sizeOf_lt_of_mem he
      exact ⟨_, hbelow, merge_merge_self e.2 (htidy.find? (hfound he)) below⟩
    have hself : ∀ e ∈ upper, ∃ below : Option Tree,
        Entries.find? e.1 upper = some ((below.map (merge · e.2)).getD e.2) :=
      fun e he => ⟨none, hfound he⟩
    cases below with
    | none => exact ⟨upper, rfl, hself⟩
    | some base =>
        rcases base.plain_or_table with hbase | ⟨lower, rfl⟩
        · exact ⟨upper, merge_table_of_plain hbase upper, hself⟩
        · refine ⟨mergeEntries lower upper, rfl, fun e he => ⟨Entries.find? e.1 lower, ?_⟩⟩
          rw [find?_mergeEntries htidy.sorted, hfound he]
termination_by sizeOf above

/-! ### Tables -/

/-- **Merging is overriding path by path.** Of two tables, whatever trees they are, the merged one
has at the end of a path

* a plain value that the upper one has there;
* a table that the upper one has there, laid over the table of the lower one if there is one;
* where the upper one has nothing, nothing if the upper one cut the path off further up, and
  otherwise what the lower one has there.

Merging the upper one once more changes nothing. -/
theorem merge_pathwise (lower upper : Entries String Tree) (htidy : (table upper).Tidy)
    (path : List String) :
    let merged := (table lower).merge (table upper)
    (∀ t, (table upper).get? path = some t → t.isTable = false → merged.get? path = some t) ∧
    (∀ above, (table upper).get? path = some (table above) →
      merged.get? path = match (table lower).get? path with
        | some (table below) => some ((table below).merge (table above))
        | _ => some (table above)) ∧
    ((table upper).get? path = none →
      (Covers (table lower) (table upper) path → merged.get? path = none) ∧
        (¬Covers (table lower) (table upper) path →
          merged.get? path = (table lower).get? path)) ∧
    merged.merge (table upper) = merged := by
  intro merged
  refine ⟨fun t ht hplain => ?plain, fun above habove => ?both, fun hnone => ?missing, ?again⟩
  case plain =>
    rw [get?_merge_of_some htidy ht]
    cases (table lower).get? path <;> simp [merge_of_plain hplain]
  case both =>
    rw [get?_merge_of_some htidy habove]
    split
    · next below hbelow => rw [hbelow]; rfl
    · next hbelow =>
        cases hlower : (table lower).get? path with
        | none => rfl
        | some t =>
            rcases t.plain_or_table with hplain | ⟨below, rfl⟩
            · rw [Option.map_some, Option.getD_some, merge_table_of_plain hplain]
            · exact absurd hlower (hbelow below)
  case missing => exact get?_merge_of_none htidy hnone
  case again => exact merge_merge_self (table upper) htidy (some (table lower))

/-- The settings that a broker is installed with. -/
def installed : Entries String Tree :=
  [("delivery", table [("attempts", integer 3), ("expiry", string "late")]),
    ("name", string "orders"), ("routing", table [("hops", integer 10)])]

/-- The settings of one site: they change a value in a section, and elsewhere have a table in the
place of a value and a value in the place of a table. -/
def onSite : Entries String Tree :=
  [("delivery", table [("attempts", integer 5)]), ("name", table [("short", string "ord")]),
    ("routing", boolean false)]

theorem merge_pathwise_installed :
    (table onSite).Tidy ∧
      let merged := (table installed).merge (table onSite)
      merged.get? ["delivery", "attempts"] = some (integer 5) ∧
        merged.get? ["name"] = some (table [("short", string "ord")]) ∧
        merged.get? ["routing", "hops"] = none ∧
        merged.get? ["delivery", "expiry"] = some (string "late") ∧
        merged.merge (table onSite) = merged := by
  have htidy : (table onSite).Tidy := by
    have hsorted : onSite.Sorted := by
      unfold Entries.Sorted
      decide
    refine tidy_table_iff.mpr ⟨hsorted, ?_⟩
    simp only [onSite, List.forall_mem_cons, tidy_table_iff]
    exact ⟨⟨List.pairwise_singleton .., tidy_of_plain rfl, nofun⟩,
      ⟨List.pairwise_singleton .., tidy_of_plain rfl, nofun⟩, tidy_of_plain rfl, nofun⟩
  have hcut : Covers (table installed) (table onSite) ["routing", "hops"] :=
    ⟨["routing"], by decide, by decide, boolean false, rfl, .inl rfl⟩
  have hopen : ¬Covers (table installed) (table onSite) ["delivery", "expiry"] := by
    rw [covers_table_cons rfl rfl]
    exact not_covers_of_find?_eq_none rfl
  have h := merge_pathwise installed onSite htidy
  exact ⟨htidy, (h _).1 _ rfl rfl, (h ["name"]).2.1 _ rfl, ((h _).2.2.1 rfl).1 hcut,
    ((h _).2.2.1 rfl).2 hopen, (h []).2.2.2⟩

end Courier.Config.Tree
