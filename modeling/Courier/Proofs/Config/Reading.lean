import Courier.Config.Toml
import Courier.Proofs.Config.Check
import Courier.Proofs.Config.Merging

/-!
# The Trees of Files

The table that a file describes is built line by line. Every line puts something under a key of a
table whose keys are in order, so the tree of a file is tidy, whatever its text. So is the tree of
a configuration that was written down, and laying tidy trees over one another gives a tidy tree.

What lies at a path after several files were laid over one another can be told from the files: the
last one that does not keep silent about the path decides.

## Main definitions

* `Config.Toml.Nodes.Tidy`: the table under construction is tidy.
* `Config.MakesTidy`: a reader of files makes nothing but tidy trees.
* `Config.Tree.Silent`: nothing is said about a path, nor about the way to it.

## Main results

* `Config.Toml.tidy_of_read?`, `Config.tidy_toTree`: the trees of texts and of configurations.
* `Config.tidy_of_mergeFiles`: the trees of files over the defaults.
* `Config.Tree.get?_mergeFiles_of_silent`: files that keep silent about a path.
* `Config.Tree.get?_mergeFiles_of_last`: the last file that says something has the last word.
-/

namespace Courier.Config

/-- What every step keeps, a run of steps keeps that gets to its end. -/
theorem of_foldlM {σ α : Type} {P : σ → Prop} {step : σ → α → Option σ} {items : List α}
    (hstep : ∀ a ∈ items, ∀ {s s' : σ}, P s → step s a = some s' → P s') {s s' : σ} (h : P s)
    (hrun : items.foldlM step s = some s') : P s' := by
  induction items generalizing s with
  | nil =>
      cases hrun
      exact h
  | cons a items ih =>
      obtain ⟨hfirst, hrest⟩ := List.forall_mem_cons.mp hstep
      obtain ⟨next, hnext, hrun⟩ := Option.bind_eq_some_iff.mp hrun
      exact ih hrest (hfirst h hnext) hrun

/-! ### Keeping a table tidy -/

namespace Tree

variable {base above t : Tree} {entries lower upper : Entries String Tree} {k : String}

theorem tidy_nil : Tidy (table []) :=
  tidy_table_iff.mpr ⟨Entries.sorted_nil, nofun⟩

theorem Tidy.insert (h : Tidy (table entries)) (ht : t.Tidy) :
    Tidy (table (Entries.insert k t entries)) := by
  obtain ⟨hsorted, hall⟩ := tidy_table_iff.mp h
  refine tidy_table_iff.mpr ⟨Entries.sorted_insert hsorted, fun e he => ?_⟩
  rcases Entries.mem_insert he with rfl | he
  · exact ht
  · exact hall e he

/-- A table of fields with tidy values is tidy. -/
theorem tidy_ofFields {fields : List (String × Option Tree)}
    (h : ∀ field ∈ fields, ∀ t ∈ field.2, t.Tidy) : (ofFields fields).Tidy := by
  refine List.foldlRecOn fields _ (motive := fun entries => Tidy (table entries)) tidy_nil ?_
  rintro entries hentries ⟨k, value⟩ hfield
  cases value with
  | none => exact hentries
  | some t => exact hentries.insert (h _ hfield t rfl)

mutual

/-- Laying a tidy tree over a tidy tree gives a tidy tree. -/
theorem Tidy.merge : ∀ {base above : Tree}, base.Tidy → above.Tidy → (base.merge above).Tidy
  | base, table upper, hbase, habove => by
      rcases base.plain_or_table with hplain | ⟨lower, rfl⟩
      · rwa [merge_table_of_plain hplain]
      · exact Tidy.mergeEntries hbase (tidy_table_iff.mp habove).2
  | base, string _, _, habove | base, integer _, _, habove | base, float _, _, habove
  | base, boolean _, _, habove | base, array _, _, habove => by rwa [merge_of_plain rfl]

theorem Tidy.mergeEntries : ∀ {lower upper : Entries String Tree}, Tidy (table lower) →
    (∀ e ∈ upper, e.2.Tidy) → Tidy (table (Tree.mergeEntries lower upper))
  | lower, [], hlower, _ => hlower
  | lower, (k, t) :: upper, hlower, hupper => by
      obtain ⟨ht, hrest⟩ := List.forall_mem_cons.mp hupper
      rw [Tree.mergeEntries]
      refine Tidy.mergeEntries (hlower.insert ?_) hrest
      cases hfind : Entries.find? k lower with
      | none => exact ht
      | some below => exact Tidy.merge (hlower.find? hfind) ht

end

end Tree

/-! ### Tables under construction -/

namespace Toml

variable {nodes nodes' inner : Nodes} {node : Node} {origin : Origin} {k : String}

theorem find?_toEntries (k : String) (nodes : Nodes) :
    Entries.find? k (Node.toEntries nodes) = (Entries.find? k nodes).map Node.toTree := by
  induction nodes with
  | nil => rfl
  | cons e nodes ih =>
      obtain ⟨l, node⟩ := e
      simp only [Node.toEntries, Entries.find?]
      split
      · rfl
      · rfl
      · exact ih

theorem toEntries_insert (k : String) (node : Node) (nodes : Nodes) :
    Node.toEntries (Entries.insert k node nodes) =
      Entries.insert k node.toTree (Node.toEntries nodes) := by
  induction nodes with
  | nil => rfl
  | cons e nodes ih =>
      obtain ⟨l, other⟩ := e
      simp only [Node.toEntries, Entries.insert]
      split <;> simp [Node.toEntries, ih]

namespace Nodes

/-- The table that is under construction is tidy. -/
def Tidy (nodes : Nodes) : Prop :=
  (Tree.table (Node.toEntries nodes)).Tidy

theorem tidy_nil : Tidy [] := Tree.tidy_nil

theorem Tidy.insert (h : nodes.Tidy) (hnode : node.toTree.Tidy) :
    Tidy (Entries.insert k node nodes) := by
  rw [Tidy, toEntries_insert]
  exact Tree.Tidy.insert h hnode

/-- An array of tables may be put under any key: no path goes through it. -/
theorem Tidy.insert_items (h : nodes.Tidy) (k : String) (latest : Nodes) (earlier : List Nodes) :
    Tidy (Entries.insert k (.items latest earlier) nodes) :=
  h.insert (Tree.tidy_of_plain rfl)

theorem Tidy.below (h : nodes.Tidy) (hfind : Entries.find? k nodes = some (.table origin inner)) :
    inner.Tidy :=
  Tree.Tidy.find? h (by rw [find?_toEntries, hfind]; rfl)

theorem Tidy.openTable (h : nodes.Tidy) (hopen : nodes.openTable k = some nodes') :
    nodes'.Tidy := by
  unfold Nodes.openTable at hopen
  split at hopen
  · cases hopen
    exact h.insert tidy_nil
  · next hfind =>
      cases hopen
      exact h.insert (h.below hfind)
  · cases hopen

theorem Tidy.openItem (h : nodes.Tidy) (hopen : nodes.openItem k = some nodes') :
    nodes'.Tidy := by
  unfold Nodes.openItem at hopen
  split at hopen
  · cases hopen
    exact h.insert_items _ _ _
  · cases hopen
    exact h.insert_items _ _ _
  · cases hopen

/-- A change that keeps tables tidy does so at the end of any path. -/
theorem Tidy.alter {change : Nodes → Option Nodes}
    (hchange : ∀ {nodes nodes' : Nodes}, nodes.Tidy → change nodes = some nodes' → nodes'.Tidy)
    {path : List String} (h : nodes.Tidy) (halter : Nodes.alter change path nodes = some nodes') :
    nodes'.Tidy := by
  induction path generalizing nodes nodes' with
  | nil => exact hchange h halter
  | cons k path ih =>
      rw [Nodes.alter] at halter
      split at halter
      · obtain ⟨below, hbelow, rfl⟩ := Option.map_eq_some_iff.mp halter
        exact h.insert (ih tidy_nil hbelow)
      · next hfind =>
          obtain ⟨below, hbelow, rfl⟩ := Option.map_eq_some_iff.mp halter
          exact h.insert (ih (h.below hfind) hbelow)
      · -- whatever became of the latest item, it stays inside the array
        obtain ⟨latest, -, rfl⟩ := Option.map_eq_some_iff.mp halter
        exact h.insert_items _ _ _
      · cases halter

/-- A key with a tidy value leaves the tables that it passes through tidy. -/
theorem Tidy.define {value : Tree} (hvalue : value.Tidy) {isOpen : Bool} {key : List String}
    (h : nodes.Tidy) (hdefine : Nodes.define value isOpen key nodes = some nodes') :
    nodes'.Tidy := by
  fun_induction Nodes.define value isOpen key nodes generalizing nodes' with
  | case1 | case3 | case5 | case8 => cases hdefine
  | case2 =>
      cases hdefine
      exact h.insert hvalue
  | case4 _ _ _ _ _ _ ih =>
      -- the key passes through a new table
      obtain ⟨below, hbelow, rfl⟩ := Option.map_eq_some_iff.mp hdefine
      exact h.insert (ih tidy_nil hbelow)
  | case6 _ _ _ _ _ _ _ _ hfind ih =>
      -- the key passes through a table that no header opened
      obtain ⟨below, hbelow, rfl⟩ := Option.map_eq_some_iff.mp hdefine
      exact h.insert (ih (h.below hfind) hbelow)
  | case7 =>
      -- the key passes through the latest item of an array of tables
      obtain ⟨latest, -, rfl⟩ := Option.map_eq_some_iff.mp hdefine
      exact h.insert_items _ _ _

end Nodes

/-! ### Values -/

/-- The values that a reader reads are tidy. -/
def ReadsTidy (value : Reader Tree) : Prop :=
  ∀ {text : List Char} {t : Tree} {rest : List Char}, value text = some (t, rest) → t.Tidy

variable {value : Reader Tree} {text rest : List Char} {t : Tree}

theorem tidy_of_readPairWith? (hvalue : ReadsTidy value) {key : List String}
    (h : readPairWith? value text = some ((key, t), rest)) : t.Tidy := by
  simp only [readPairWith?, Option.bind_eq_bind, Option.bind_eq_some_iff] at h
  obtain ⟨_, -, _, -, ⟨u, _⟩, hu, h⟩ := h
  cases h
  exact hvalue hu

theorem tidy_of_readEntries? (hvalue : ReadsTidy value) {pairs : List (List String × Tree)}
    (h : readEntries? value text = some (pairs, rest)) : ∀ pair ∈ pairs, pair.2.Tidy := by
  fun_induction readEntries? value text generalizing pairs rest with
  | case1 text ih =>
      obtain ⟨⟨⟨key, t⟩, behind⟩, hpair, h⟩ := Option.bind_eq_some_iff.mp h
      have ht : t.Tidy := tidy_of_readPairWith? hvalue hpair
      dsimp only at h
      split at h
      · cases h
        simpa using ht
      · split at h
        · next hlt =>
            obtain ⟨⟨more, _⟩, hmore, h⟩ := Option.bind_eq_some_iff.mp h
            cases h
            exact List.forall_mem_cons.mpr ⟨ht, ih _ hlt hmore⟩
        · cases h
      · cases h

theorem readsTidy_readInline? (hvalue : ReadsTidy value) : ReadsTidy (readInline? value) := by
  intro text t rest h
  unfold readInline? at h
  split at h
  · cases h
    exact Nodes.tidy_nil
  · obtain ⟨⟨pairs, _⟩, hpairs, h⟩ := Option.bind_eq_some_iff.mp h
    obtain ⟨nodes, hnodes, h⟩ := Option.bind_eq_some_iff.mp h
    cases h
    have hvalues : ∀ pair ∈ pairs, pair.2.Tidy := tidy_of_readEntries? hvalue hpairs
    exact of_foldlM (P := Nodes.Tidy) (fun pair hpair _ _ h => h.define (hvalues pair hpair))
      Nodes.tidy_nil hnodes

theorem isTable_of_readDecimal? (h : readDecimal? text = some (t, rest)) : t.isTable = false := by
  simp only [readDecimal?, Option.bind_eq_bind, Option.bind_eq_some_iff] at h
  obtain ⟨_, -, _, -, _, -, h⟩ := h
  split at h
  · obtain ⟨_, -, h⟩ := Option.bind_eq_some_iff.mp h
    cases h
    rfl
  · obtain ⟨_, -, h⟩ := Option.bind_eq_some_iff.mp h
    split at h <;> cases h
    rfl

theorem isTable_of_readSpecial? (h : readSpecial? text = some (t, rest)) : t.isTable = false := by
  unfold readSpecial? at h
  dsimp only at h
  split at h
  · obtain ⟨_, -, h⟩ := Option.bind_eq_some_iff.mp h
    cases h
    rfl
  · cases h

theorem isTable_of_readInBase? {base : Nat} (h : readInBase? base text = some (t, rest)) :
    t.isTable = false := by
  obtain ⟨_, -, h⟩ := Option.bind_eq_some_iff.mp h
  dsimp only at h
  split at h <;> cases h
  rfl

theorem isTable_of_readNumber? (h : readNumber? text = some (t, rest)) : t.isTable = false := by
  unfold readNumber? at h
  split at h
  · exact isTable_of_readInBase? h
  · exact isTable_of_readInBase? h
  · exact isTable_of_readInBase? h
  · rcases Option.or_eq_some_iff.mp h with h | ⟨-, h⟩
    · exact isTable_of_readDecimal? h
    · exact isTable_of_readSpecial? h

/-- A value without parts is no table. -/
theorem isTable_of_readScalar? (h : readScalar? text = some (t, rest)) : t.isTable = false := by
  simp only [readScalar?, readTruth?, Option.or_eq_some_iff, Option.map_eq_some_iff] at h
  rcases h with ⟨_, -, h⟩ | ⟨-, ⟨_, -, h⟩ | ⟨-, h | ⟨-, ⟨_, -, h⟩ | ⟨-, _, -, h⟩⟩⟩⟩
  case inr.inr.inl => exact isTable_of_readNumber? h
  all_goals
    cases h
    rfl

/-- Values are tidy: their tables in braces are built as those of files are. -/
theorem readsTidy_readNested? (limit : Nat) : ReadsTidy (readNested? limit) := by
  induction limit with
  | zero =>
      intro text t rest h
      unfold readNested? at h
      split at h
      · cases h
      · cases h
      · exact Tree.tidy_of_plain (isTable_of_readScalar? h)
  | succ limit ih =>
      intro text t rest h
      unfold readNested? at h
      split at h
      · obtain ⟨⟨trees, _⟩, -, h⟩ := Option.map_eq_some_iff.mp h
        cases h
        exact Tree.tidy_of_plain rfl
      · exact readsTidy_readInline? ih h
      · exact Tree.tidy_of_plain (isTable_of_readScalar? h)

/-! ### Files -/

/-- The value that a line sets, if it sets one, is tidy. -/
def Line.Tidy : Line → Prop
  | entry _ value => value.Tidy
  | _ => True

theorem tidy_of_readStatement? {line : Line} (h : readStatement? text = some (line, rest)) :
    line.Tidy := by
  unfold readStatement? at h
  split at h
  all_goals simp only [Option.bind_eq_bind, Option.bind_eq_some_iff] at h
  · obtain ⟨_, -, _, -, _, -, h⟩ := h
    cases h
    trivial
  · obtain ⟨_, -, _, -, h⟩ := h
    cases h
    trivial
  · obtain ⟨⟨⟨key, value⟩, _⟩, hpair, h⟩ := h
    cases h
    exact tidy_of_readPairWith? (readsTidy_readNested? depthLimit) hpair

theorem tidy_of_readLine? {line : Line} (h : readLine? text = some (line, rest)) :
    line.Tidy := by
  unfold readLine? at h
  split at h
  · cases h
    trivial
  · simp only [Option.bind_eq_bind, Option.bind_eq_some_iff] at h
    obtain ⟨⟨line, _⟩, hline, _, -, h⟩ := h
    cases h
    exact tidy_of_readStatement? hline

theorem tidy_of_readLines? {lines : List Line} (h : readLines? text = some lines) :
    ∀ line ∈ lines, line.Tidy := by
  fun_induction readLines? text generalizing lines with
  | case1 =>
      cases h
      nofun
  | case2 text _ ih =>
      obtain ⟨⟨line, rest⟩, hline, h⟩ := Option.bind_eq_some_iff.mp h
      dsimp only at h
      split at h
      · next hlt =>
          obtain ⟨more, hmore, h⟩ := Option.bind_eq_some_iff.mp h
          cases h
          exact List.forall_mem_cons.mpr ⟨tidy_of_readLine? hline, ih _ hlt hmore⟩
      · cases h

/-- A line leaves the table of the file tidy. -/
theorem Draft.tidy_add {draft draft' : Draft} {line : Line} (hline : line.Tidy)
    (h : draft.nodes.Tidy) (hadd : draft.add line = some draft') : draft'.nodes.Tidy := by
  cases line with
  | blank =>
      cases hadd
      exact h
  | header path =>
      simp only [Draft.add, Option.bind_eq_bind, Option.bind_eq_some_iff] at hadd
      obtain ⟨k, -, nodes, hnodes, hadd⟩ := hadd
      cases hadd
      exact h.alter Nodes.Tidy.openTable hnodes
  | item path =>
      simp only [Draft.add, Option.bind_eq_bind, Option.bind_eq_some_iff] at hadd
      obtain ⟨k, -, nodes, hnodes, hadd⟩ := hadd
      cases hadd
      exact h.alter Nodes.Tidy.openItem hnodes
  | entry key value =>
      obtain ⟨nodes, hnodes, hadd⟩ := Option.bind_eq_some_iff.mp hadd
      cases hadd
      exact h.alter (Nodes.Tidy.define hline) hnodes

/-- **The tree of a file is tidy**, whatever its text. -/
theorem tidy_of_read? {text : String} {t : Tree} (h : read? text = some t) : t.Tidy := by
  obtain ⟨lines, hlines, h⟩ := Option.bind_eq_some_iff.mp h
  obtain ⟨draft, hdraft, h⟩ := Option.bind_eq_some_iff.mp h
  cases h
  have hall : ∀ line ∈ lines, line.Tidy := tidy_of_readLines? hlines
  exact of_foldlM (P := fun draft : Draft => draft.nodes.Tidy)
    (fun line hline _ _ => Draft.tidy_add (hall line hline)) Nodes.tidy_nil hdraft

end Toml

/-! ### Files over one another -/

namespace Tree

variable {base above tree t : Tree} {path : List String}

theorem get?_append (t : Tree) (start rest : List String) :
    t.get? (start ++ rest) = (t.get? start).bind (get? rest) := by
  induction start generalizing t with
  | nil => rfl
  | cons k start ih =>
      cases t with
      | table entries =>
          simp only [List.cons_append, get?_table_cons, Option.bind_assoc]
          exact Option.bind_congr fun t _ => ih t
      | _ => rfl

/-- A tree keeps silent about a path: it has nothing at its end, and tables only on the way. -/
def Silent (t : Tree) (path : List String) : Prop :=
  t.get? path = none ∧ ∀ start, start <+: path → ∀ u, t.get? start = some u → u.isTable

/-- Under a tree that keeps silent about a path all is seen that the lower tree has there. -/
theorem Silent.get?_merge (h : above.Silent path) (htidy : above.Tidy) (base : Tree) :
    (base.merge above).get? path = base.get? path := by
  by_cases hcovers : Covers base above path
  · rw [(get?_merge_of_none htidy h.1).1 hcovers]
    obtain ⟨start, ⟨rest, rfl⟩, hne, u, hu, hplain | ⟨v, hv, hplain⟩⟩ := hcovers
    · simp [h.2 start (List.prefix_append ..) u hu] at hplain
    · cases rest with
      | nil => exact absurd (List.append_nil start).symm hne
      | cons k rest => rw [get?_append, hv, Option.bind_some, get?_cons_of_plain hplain]
  · exact (get?_merge_of_none htidy h.1).2 hcovers

end Tree

/-- Whatever a reader makes of a text has the keys of its tables in order, each once. -/
def MakesTidy (read : String → Option Tree) : Prop :=
  ∀ text t, read text = some t → t.Tidy

theorem Toml.makesTidy_read? : MakesTidy Toml.read? := fun _ _ => tidy_of_read?

/-- A file has a tree if its text can be read. -/
theorem ofText_tree_eq_ok_iff {read : String → Option Tree} {text : String} {t : Tree} :
    (ConfigFile.ofText read text).tree = .ok t ↔ read text = some t := by
  unfold ConfigFile.ofText
  split <;> simp [ConfigFile.tree, *]

/-- The tree of a configuration is tidy: its sections have plain values only. -/
theorem tidy_toTree (c : Config) : c.toTree.Tidy := by
  have hplain {fields : List (String × Option Tree)}
      (h : ∀ field ∈ fields, ∀ t ∈ field.2, t.isTable = false) : (Tree.ofFields fields).Tidy :=
    Tree.tidy_ofFields fun field hfield t ht => Tree.tidy_of_plain (h field hfield t ht)
  have hwildcards : c.wildcards.toTree.Tidy := hplain (by simp [Tree.ofChar, Tree.isTable])
  have hrouting : c.routing.toTree.Tidy := hplain (by simp [Tree.ofCount, Tree.isTable])
  have hdelivery : c.delivery.toTree.Tidy := hplain (by simp [Tree.ofCount, Tree.isTable])
  have hlogging : c.logging.toTree.Tidy := hplain (by simp [Tree.isTable])
  have harray (items : List Tree) : (Tree.array items).Tidy := Tree.tidy_of_plain rfl
  exact Tree.tidy_ofFields (by simp [hwildcards, hrouting, hdelivery, hlogging, harray])

namespace Tree

variable {base above tree t : Tree} {path : List String} {texts front back : List String}
  {text : String} {read : String → Option Tree}

/-- Files laid over a tidy tree give a tidy tree. -/
theorem Tidy.mergeFiles (h : base.Tidy) (hreader : MakesTidy read)
    (hload : base.mergeFiles (texts.map (ConfigFile.ofText read)) = .ok tree) : tree.Tidy := by
  induction texts generalizing base with
  | nil =>
      cases hload
      exact h
  | cons text texts ih =>
      obtain ⟨above, habove, hload⟩ := bind_eq_ok_iff.mp hload
      exact ih (h.merge (hreader text above (ofText_tree_eq_ok_iff.mp habove))) hload

theorem mergeFiles_append (base : Tree) (files later : List ConfigFile) :
    base.mergeFiles (files ++ later) = base.mergeFiles files >>= (·.mergeFiles later) := by
  induction files generalizing base with
  | nil => rfl
  | cons file files ih =>
      simp only [List.cons_append, Tree.mergeFiles, bind_assoc]
      exact congrArg _ (funext fun above => ih _)

/-- Files that keep silent about a path leave what lies there. -/
theorem get?_mergeFiles_of_silent (hreader : MakesTidy read)
    (hsilent : ∀ text ∈ texts, ∀ u, read text = some u → u.Silent path)
    (hload : base.mergeFiles (texts.map (ConfigFile.ofText read)) = .ok tree) :
    tree.get? path = base.get? path := by
  induction texts generalizing base with
  | nil =>
      cases hload
      rfl
  | cons text texts ih =>
      obtain ⟨htext, hrest⟩ := List.forall_mem_cons.mp hsilent
      obtain ⟨above, habove, hload⟩ := bind_eq_ok_iff.mp hload
      have hread : read text = some above := ofText_tree_eq_ok_iff.mp habove
      rw [ih hrest hload, (htext above hread).get?_merge (hreader text above hread)]

/-- **The last file that says something has the last word**: a plain value that it has at a path
lies there in the end, when all files behind it keep silent about the path. -/
theorem get?_mergeFiles_of_last (hreader : MakesTidy read) (hread : read text = some above)
    (ht : above.get? path = some t) (hplain : t.isTable = false)
    (hsilent : ∀ text ∈ back, ∀ u, read text = some u → u.Silent path)
    (hload : base.mergeFiles ((front ++ text :: back).map (ConfigFile.ofText read)) = .ok tree) :
    tree.get? path = some t := by
  rw [List.map_append, mergeFiles_append] at hload
  obtain ⟨below, -, hload⟩ := bind_eq_ok_iff.mp hload
  obtain ⟨other, hother, hload⟩ := bind_eq_ok_iff.mp hload
  obtain rfl : above = other :=
    Option.some.inj (hread.symm.trans (ofText_tree_eq_ok_iff.mp hother))
  rw [get?_mergeFiles_of_silent hreader hsilent hload,
    get?_merge_of_some (hreader text above hread) ht]
  cases below.get? path <;> simp [merge_of_plain hplain]

end Tree

/-- The tree that files describe on top of the defaults is tidy. -/
theorem tidy_of_mergeFiles {read : String → Option Tree} (hreader : MakesTidy read)
    {texts : List String} {tree : Tree}
    (hload : defaults.mergeFiles (texts.map (ConfigFile.ofText read)) = .ok tree) : tree.Tidy :=
  (tidy_toTree {}).mergeFiles hreader hload

end Courier.Config
