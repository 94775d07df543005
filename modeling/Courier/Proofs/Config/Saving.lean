import Mathlib.Data.List.Induction
import Courier.Config.LogLevel
import Courier.Config.Sources
import Courier.Config.Toml
import Courier.Proofs.Dictionary

/-!
# Saving a Configuration and Loading It Again

A saved configuration is not read on its own: it is laid over the defaults first. Both steps lose
nothing. The tree of a configuration sets every key that the defaults set, so nothing of them
shows through; and options that are not set are not set by the defaults either. What is read from
the tree then is the configuration, section by section.

So a configuration that passes its check is the one that is loaded from the file it was saved to,
provided that the file reads as the tree that was printed.

## Main definitions

* `Config.Tree.HiddenBy`: fields that nothing is seen of below other ones.

## Main results

* `Config.Tree.exists_ofFields_eq`: what a table of fields holds.
* `Config.Tree.merge_ofFields`: a table that covers another one hides it.
* `Config.defaults_merge_toTree`: no default shows through a configuration.
* `Config.ofTree?_toTree`: a configuration is read from its own tree.
* `Config.ofFiles_ofText_print`: a configuration that passes its check outlives a file.
-/

namespace Courier

open Config (Tree Fields)

/-! ### Tables by their fields -/

namespace Config.Tree

variable {below above fields : List (String × Option Tree)}

/-- One more field is set on top of the others. -/
theorem ofFields_append {entries : Entries String Tree} (h : ofFields fields = table entries)
    (k : String) (value : Option Tree) :
    ofFields (fields ++ [(k, value)]) =
      table (value.elim entries fun t => Entries.insert k t entries) := by
  rw [ofFields, table.injEq] at h
  cases value <;> simp [ofFields, List.foldl_append, h]

/-- The table of fields with different keys holds under each key the value of its field. -/
theorem exists_ofFields_eq (h : (fields.map Prod.fst).Nodup) :
    ∃ entries : Entries String Tree, ofFields fields = table entries ∧ entries.Sorted ∧
      ∀ k, Entries.find? k entries = (fields.lookup k).join := by
  -- later fields are set on top of earlier ones, so the last one is taken off
  induction fields using List.reverseRecOn with
  | nil => exact ⟨[], rfl, Entries.sorted_nil, fun k => rfl⟩
  | append_singleton fields field ih =>
      obtain ⟨k₀, value⟩ := field
      rw [List.map_append, List.nodup_append] at h
      obtain ⟨hfields, -, hne⟩ := h
      obtain ⟨entries, heq, hs, hfind⟩ := ih hfields
      have hnone : fields.lookup k₀ = none := by
        refine List.lookup_eq_none_iff.2 fun e he => bne_iff_ne.2 (Ne.symm ?_)
        exact hne e.1 (List.mem_map_of_mem he) k₀ (by simp)
      refine ⟨_, ofFields_append heq k₀ value, ?_, fun k => ?_⟩
      · cases value with
        | none => exact hs
        | some t => exact Entries.sorted_insert hs
      · rw [List.lookup_append]
        by_cases hk : k = k₀
        · subst hk
          cases value <;> simp [hnone, hfind, Entries.find?_insert]
        · have hlast : List.lookup k [(k₀, value)] = none := by
            simpa [List.lookup_eq_none_iff] using hk
          cases value <;> simp [hlast, hfind, Entries.find?_insert, hk]

/-- Merging keeps the keys of a table in order. -/
theorem sorted_mergeEntries {base above : Entries String Tree} (h : base.Sorted) :
    (mergeEntries base above).Sorted := by
  induction above generalizing base with
  | nil => exact h
  | cons e rest ih => exact ih (Entries.sorted_insert h)

/-- Fields that are all set above, each to a value that hides the one below. -/
def HiddenBy (below above : List (String × Option Tree)) : Prop :=
  ∀ field ∈ below, ∀ t ∈ field.2, ∃ t', above.lookup field.1 = some (some t') ∧ t.merge t' = t'

theorem hiddenBy_nil : HiddenBy [] above := nofun

theorem hiddenBy_none {k : String} (h : HiddenBy below above) :
    HiddenBy ((k, none) :: below) above :=
  List.forall_mem_cons.2 ⟨nofun, h⟩

theorem hiddenBy_some {k : String} {t t' : Tree} (hup : above.lookup k = some (some t'))
    (hhides : t.merge t' = t') (h : HiddenBy below above) :
    HiddenBy ((k, some t) :: below) above := by
  refine List.forall_mem_cons.2 ⟨?_, h⟩
  rintro _ ⟨⟩
  exact ⟨t', hup, hhides⟩

/-- A table whose fields are hidden by those of another one is hidden by it. -/
theorem merge_ofFields (hbelow : (below.map Prod.fst).Nodup) (habove : (above.map Prod.fst).Nodup)
    (h : HiddenBy below above) : (ofFields below).merge (ofFields above) = ofFields above := by
  obtain ⟨entries, heq, hs, hfind⟩ := exists_ofFields_eq hbelow
  obtain ⟨entries', heq', hs', hfind'⟩ := exists_ofFields_eq habove
  rw [heq, heq', merge, table.injEq]
  refine (sorted_mergeEntries hs).eq_of_find? hs' fun k => ?_
  rw [find?_mergeEntries hs', hfind, hfind']
  cases hlow : (below.lookup k).join with
  | none => cases (above.lookup k).join <;> rfl
  | some t =>
      obtain ⟨before, after, rfl, -⟩ := List.lookup_eq_some_iff.1 (Option.join_eq_some_iff.1 hlow)
      obtain ⟨t', hup, hhides⟩ := h (k, some t) (by simp) t rfl
      simp [hup, hhides]

end Config.Tree

/-! ### Values read back -/

namespace Config

namespace Tree

@[simp] theorem toText?_string (text : String) : toText? (string text) = some text := rfl

@[simp] theorem toBool?_boolean (b : Bool) : toBool? (boolean b) = some b := rfl

@[simp] theorem toChar?_ofChar (c : Char) : toChar? (ofChar c) = some c := by
  simp [toChar?, ofChar]

/-- A number of 32 bits is read back from one of 64 bits. -/
@[simp] theorem toCount?_ofCount (n : UInt32) : toCount? (ofCount n) = some n := by
  have hlt : n.toNat < 4294967296 := n.toNat_lt
  have hint : (Int64.ofNat n.toNat).toInt = n.toNat :=
    Int64.toInt_ofNat_of_lt (by omega)
  have hrange : (0 : Int) ≤ n.toNat ∧ (n.toNat : Int) < (1 <<< 32 : Nat) := by omega
  rw [ofCount, toCount?, hint, if_pos hrange, Int.toNat_natCast, UInt32.ofNat_toNat]

@[simp] theorem toLogFormat?_string_name (format : LogFormat) :
    toLogFormat? (string format.name) = some format := by
  cases format <;> rfl

/-- A list is read back if its items are. -/
theorem toItems?_array_map {α : Type} {read : Tree → Option α} {write : α → Tree}
    (h : ∀ a, read (write a) = some a) (items : List α) :
    toItems? read (array (items.map write)) = some items := by
  rw [toItems?]
  induction items with
  | nil => rfl
  | cons a items ih => simp [List.mapM_cons, h, ih]

end Tree

namespace Fields

variable {α : Type} {fields : List (String × Option Tree)} {f : Fields}

/-- A table finds the fields that it was made of. -/
theorem ofTable?_ofFields (h : (fields.map Prod.fst).Nodup) :
    ofTable? (.ofFields fields) = some fun k => (fields.lookup k).join := by
  obtain ⟨entries, heq, -, hfind⟩ := Tree.exists_ofFields_eq h
  rw [heq, ofTable?, funext hfind]

/-- A section finds the fields that its table was made of. -/
theorem ofSection?_ofFields (names : List String) (h : (fields.map Prod.fst).Nodup) :
    ofSection? names (.ofFields fields) = some fun k => (fields.lookup k).join := by
  obtain ⟨entries, heq, -, hfind⟩ := Tree.exists_ofFields_eq h
  rw [heq, ofSection?, funext hfind]

variable {name : String} {read : Tree → Option α} {write : α → Tree}

theorem required_eq {a : α} (h : f name = some (write a)) (hread : ∀ a, read (write a) = some a) :
    f.required name read = some a := by
  rw [required, h, Option.bind_some, hread]

theorem withDefault_eq {a default : α} (h : f name = some (write a))
    (hread : ∀ a, read (write a) = some a) : f.withDefault name read default = some a := by
  simp only [withDefault, h, hread]

theorem optional_eq {o : Option α} (h : f name = o.map write)
    (hread : ∀ a, read (write a) = some a) : f.optional name read = some o := by
  rw [optional, withDefault, h]
  cases o <;> simp [hread]

end Fields

end Config

/-! ### Sections read back -/

theorem Wildcards.ofTree?_toTree (w : Wildcards) : ofTree? w.toTree = some w := by
  simp only [ofTree?, toTree, Option.bind_eq_bind, Option.bind_eq_some_iff]
  exact ⟨_, Fields.ofSection?_ofFields _ (by simp),
    _, Fields.withDefault_eq rfl Tree.toBool?_boolean,
    _, Fields.withDefault_eq rfl Tree.toChar?_ofChar,
    _, Fields.withDefault_eq rfl Tree.toChar?_ofChar,
    _, Fields.withDefault_eq rfl Tree.toChar?_ofChar, rfl⟩

theorem RoutingConfig.ofTree?_toTree (c : RoutingConfig) : ofTree? c.toTree = some c := by
  simp only [ofTree?, toTree, Option.bind_eq_bind, Option.bind_eq_some_iff]
  exact ⟨_, Fields.ofSection?_ofFields _ (by simp),
    _, Fields.withDefault_eq rfl Tree.toCount?_ofCount, rfl⟩

theorem DeliveryConfig.ofTree?_toTree (c : DeliveryConfig) : ofTree? c.toTree = some c := by
  simp only [ofTree?, toTree, Option.bind_eq_bind, Option.bind_eq_some_iff]
  exact ⟨_, Fields.ofSection?_ofFields _ (by simp),
    _, Fields.withDefault_eq rfl Tree.toCount?_ofCount,
    _, Fields.optional_eq rfl Tree.toText?_string,
    _, Fields.optional_eq rfl Tree.toText?_string, rfl⟩

theorem LoggingConfig.ofTree?_toTree (c : LoggingConfig) : ofTree? c.toTree = some c := by
  simp only [ofTree?, toTree, Option.bind_eq_bind, Option.bind_eq_some_iff]
  exact ⟨_, Fields.ofSection?_ofFields _ (by simp),
    _, Fields.withDefault_eq rfl Tree.toText?_string,
    _, Fields.withDefault_eq rfl Tree.toLogFormat?_string_name, rfl⟩

/-- Settings are found among fields that say what they say, whatever else stands there. -/
theorem AddressSettings.ofFields?_eq {s : AddressSettings} {f : Fields}
    (h : ∀ field ∈ s.fields, f field.1 = field.2) : ofFields? f = some s := by
  simp only [fields, List.forall_mem_cons] at h
  obtain ⟨hqueue, hkey, hattempts, hdeadLetter, hexpiry, -⟩ := h
  simp only [ofFields?, Option.bind_eq_bind, Option.bind_eq_some_iff]
  exact ⟨_, Fields.optional_eq hqueue Tree.toBool?_boolean,
    _, Fields.optional_eq hkey Tree.toText?_string,
    _, Fields.optional_eq hattempts Tree.toCount?_ofCount,
    _, Fields.optional_eq hdeadLetter Tree.toText?_string,
    _, Fields.optional_eq hexpiry Tree.toText?_string, rfl⟩

theorem SettingsEntry.ofTree?_toTree (e : SettingsEntry) : ofTree? e.toTree = some e := by
  simp only [ofTree?, toTree, Option.bind_eq_bind, Option.bind_eq_some_iff]
  refine ⟨_, Fields.ofTable?_ofFields (by simp [AddressSettings.fields]),
    _, Fields.required_eq rfl Tree.toText?_string, _, AddressSettings.ofFields?_eq ?_, rfl⟩
  simp only [AddressSettings.fields, List.forall_mem_cons]
  exact ⟨rfl, rfl, rfl, rfl, rfl, nofun⟩

theorem QueueConfig.ofTree?_toTree (c : QueueConfig) : ofTree? c.toTree = some c := by
  simp only [ofTree?, toTree, Option.bind_eq_bind, Option.bind_eq_some_iff]
  exact ⟨_, Fields.ofSection?_ofFields _ (by simp),
    _, Fields.required_eq rfl Tree.toText?_string,
    _, Fields.required_eq rfl Tree.toText?_string,
    _, Fields.optional_eq rfl Tree.toText?_string,
    _, Fields.withDefault_eq rfl Tree.toBool?_boolean, rfl⟩

theorem DivertConfig.ofTree?_toTree (c : DivertConfig) : ofTree? c.toTree = some c := by
  simp only [ofTree?, toTree, Option.bind_eq_bind, Option.bind_eq_some_iff]
  exact ⟨_, Fields.ofSection?_ofFields _ (by simp),
    _, Fields.required_eq rfl Tree.toText?_string,
    _, Fields.required_eq rfl Tree.toText?_string,
    _, Fields.required_eq rfl Tree.toText?_string,
    _, Fields.withDefault_eq rfl Tree.toBool?_boolean,
    _, Fields.optional_eq rfl Tree.toText?_string, rfl⟩

namespace Config

/-- A configuration is read from its own tree. -/
theorem ofTree?_toTree (c : Config) : ofTree? c.toTree = some c := by
  have hsettings := Tree.toItems?_array_map SettingsEntry.ofTree?_toTree
  have hqueues := Tree.toItems?_array_map QueueConfig.ofTree?_toTree
  have hdiverts := Tree.toItems?_array_map DivertConfig.ofTree?_toTree
  simp only [ofTree?, toTree, Option.bind_eq_bind, Option.bind_eq_some_iff]
  exact ⟨_, Fields.ofSection?_ofFields _ (by simp),
    _, Fields.withDefault_eq rfl Wildcards.ofTree?_toTree,
    _, Fields.withDefault_eq rfl RoutingConfig.ofTree?_toTree,
    _, Fields.withDefault_eq rfl DeliveryConfig.ofTree?_toTree,
    _, Fields.withDefault_eq rfl LoggingConfig.ofTree?_toTree,
    _, Fields.withDefault_eq rfl hsettings,
    _, Fields.withDefault_eq rfl hqueues,
    _, Fields.withDefault_eq rfl hdiverts, rfl⟩

end Config

/-! ### The defaults under a configuration -/

theorem Wildcards.merge_toTree (below w : Wildcards) :
    below.toTree.merge w.toTree = w.toTree :=
  Tree.merge_ofFields (by simp) (by simp) <|
    Tree.hiddenBy_some rfl rfl <| Tree.hiddenBy_some rfl rfl <| Tree.hiddenBy_some rfl rfl <|
      Tree.hiddenBy_some rfl rfl Tree.hiddenBy_nil

theorem RoutingConfig.merge_toTree (below c : RoutingConfig) :
    below.toTree.merge c.toTree = c.toTree :=
  Tree.merge_ofFields (by simp) (by simp) <| Tree.hiddenBy_some rfl rfl Tree.hiddenBy_nil

/-- Delivery defaults hide others without options. An option that is set would show through, since
one that is not set is not written. -/
theorem DeliveryConfig.merge_toTree (maxDeliveryAttempts : UInt32) (c : DeliveryConfig) :
    ({ maxDeliveryAttempts } : DeliveryConfig).toTree.merge c.toTree = c.toTree :=
  Tree.merge_ofFields (by simp) (by simp) <|
    Tree.hiddenBy_some rfl rfl <| Tree.hiddenBy_none <| Tree.hiddenBy_none Tree.hiddenBy_nil

theorem LoggingConfig.merge_toTree (below c : LoggingConfig) :
    below.toTree.merge c.toTree = c.toTree :=
  Tree.merge_ofFields (by simp) (by simp) <|
    Tree.hiddenBy_some rfl rfl <| Tree.hiddenBy_some rfl rfl Tree.hiddenBy_nil

namespace Config

/-- No default shows through the tree of a configuration. -/
theorem defaults_merge_toTree (c : Config) : defaults.merge c.toTree = c.toTree :=
  Tree.merge_ofFields (by simp) (by simp) <|
    Tree.hiddenBy_some rfl (Wildcards.merge_toTree _ _) <|
    Tree.hiddenBy_some rfl (RoutingConfig.merge_toTree _ _) <|
    Tree.hiddenBy_some rfl (DeliveryConfig.merge_toTree _ _) <|
    Tree.hiddenBy_some rfl (LoggingConfig.merge_toTree _ _) <|
    Tree.hiddenBy_some rfl rfl <| Tree.hiddenBy_some rfl rfl <|
    Tree.hiddenBy_some rfl rfl Tree.hiddenBy_nil

/-! ### Loading what was saved -/

/-- A configuration that is read back was only checked. -/
theorem reloaded_eq_checked (levels : String → Bool) (c : Config) :
    c.reloaded levels = c.checked levels := by
  have hmerge : defaults.mergeFiles [.parsed c.toTree] = .ok c.toTree := by
    simp only [Tree.mergeFiles, ConfigFile.tree, bind, Except.bind, defaults_merge_toTree]
  simp only [reloaded, ofFiles, hmerge, bind, Except.bind, ofTree?_toTree]

/-- **A configuration outlives a file.** For every printer of trees, every reader of texts and every
choice of log levels, a configuration that passes its check, whatever its texts, its characters, its
options and its lists are, is loaded again from the file that it was printed to, on top of the
defaults, if that file reads as the tree that was printed. -/
theorem ofFiles_ofText_print (levels : String → Bool) (read : String → Option Tree)
    (print : Tree → String) (c : Config) (hcheck : c.check levels = .ok ())
    (hprint : read (print c.toTree) = some c.toTree) :
    ofFiles levels [.ofText read (print c.toTree)] = .ok c := by
  have hfile : ConfigFile.ofText read (print c.toTree) = .parsed c.toTree := by
    rw [ConfigFile.ofText, hprint]
  rw [hfile]
  change c.reloaded levels = .ok c
  rw [reloaded_eq_checked, checked, hcheck]
  rfl

/-- A configuration with characters of its own, options that are set and options that are not,
and lists with items and without. -/
def sortingOffice : Config where
  wildcards := { delimiter := '/', singleWord := '+' }
  delivery := { maxDeliveryAttempts := 3, deadLetterAddress := some "DLQ" }
  addressSettings :=
    [⟨"orders/#", { lastValueQueue := some true, maxDeliveryAttempts := some 5 }⟩]
  queues :=
    [{ name := "eu", address := "orders/#", filter := some "region = 'eu'", durable := false }]

/-- The file that `sortingOffice` is printed to. -/
def sortingOfficeFile : String :=
  "\n".intercalate [
    "diverts = []", "",
    "[wildcard]", "enabled = true", "delimiter = \"/\"", "any_words = \"#\"",
    "single_word = \"+\"", "",
    "[routing]", "max_divert_hops = 10", "",
    "[delivery]", "max_delivery_attempts = 3", "dead_letter_address = \"DLQ\"", "",
    "[logging]", "level = \"info\"", "format = \"text\"", "",
    "[[address_settings]]", "match = \"orders/#\"", "last_value_queue = true",
    "max_delivery_attempts = 5", "",
    "[[queues]]", "name = \"eu\"", "address = \"orders/#\"",
    "filter = \"region = 'eu'\"", "durable = false", ""]

theorem ofFiles_ofText_print_sortingOffice :
    sortingOffice.check LogLevel.isSound = .ok () ∧
      Toml.read? sortingOfficeFile = some sortingOffice.toTree ∧
      ofFiles LogLevel.isSound [.ofText Toml.read? sortingOfficeFile] = .ok sortingOffice := by
  have hcheck : sortingOffice.check LogLevel.isSound = .ok () := by decide +kernel
  have hread : Toml.read? sortingOfficeFile = some sortingOffice.toTree := by
    rw [Toml.read?, sortingOfficeFile, String.toList_intercalate]
    decide +kernel
  have hload := ofFiles_ofText_print LogLevel.isSound Toml.read? (fun _ => sortingOfficeFile)
    sortingOffice hcheck hread
  exact ⟨hcheck, hread, hload⟩

end Config

end Courier
