import Mathlib.Data.List.Sigma
import Mathlib.Data.Prod.Lex
import Courier.Settings

/-!
# The Settings of an Address

The entries whose patterns match an address are put in order, those with the last word first, and
their settings are filled up from one to the next. So each field of the outcome is decided on its
own: it comes from the greatest entry among those that match and set the field. Entries of
different specificity are in the same order wherever they stand, and then the order in which they
were declared or added makes no difference.

## Conventions

Entries are ordered by the number of literal words in their patterns, then by fewer runs of words,
then by fewer single-word wildcards, and last by their places, as the lexicographic order of these
numbers with two of them turned round.

## Main definitions

* `SettingsField`: the fields of settings.
* `Specificity.rank`, `SettingsRepository.rank`: the orders of patterns and of entries.
* `SettingsRepository.Sets`, `SettingsRepository.HasLastWord`: the entries that set a field of an
  address, and the greatest of them.
* `SettingsRepository.Untied`: no two entries for an address are equally specific.
* `SettingsRepository.Request`, `SettingsRepository.serve`: the changes to a repository.

## Main results

* `SettingsRepository.of_lookup_eq_some_iff`: where the value of a field comes from.
* `SettingsRepository.lookup_eq_of_perm`: the order of entries makes no difference without ties.
* `SettingsRepository.serveAll_ranked`: the settings of an address over any history.
-/

namespace Courier

variable {α : Type}

/-! ### The fields of settings -/

/-- A field of settings, with the type of its values. -/
inductive SettingsField : Type → Type 1 where
  | lastValueQueue : SettingsField Bool
  | lastValueKey : SettingsField String
  | maxDeliveryAttempts : SettingsField UInt32
  | deadLetterAddress : SettingsField String
  | expiryAddress : SettingsField String

namespace SettingsField

/-- The value of a field, if it is set. -/
def of : SettingsField α → AddressSettings → Option α
  | lastValueQueue, s => s.lastValueQueue
  | lastValueKey, s => s.lastValueKey
  | maxDeliveryAttempts, s => s.maxDeliveryAttempts
  | deadLetterAddress, s => s.deadLetterAddress
  | expiryAddress, s => s.expiryAddress

/-- There are no other fields. -/
theorem ext_of {s t : AddressSettings}
    (h : ∀ {α : Type} (field : SettingsField α), field.of s = field.of t) : s = t := by
  cases s
  cases t
  rw [AddressSettings.mk.injEq]
  exact ⟨h lastValueQueue, h lastValueKey, h maxDeliveryAttempts, h deadLetterAddress,
    h expiryAddress⟩

variable (field : SettingsField α)

theorem of_empty : field.of {} = none := by
  cases field <;> rfl

theorem of_mergeWith (s t : AddressSettings) :
    field.of (s.mergeWith t) = (field.of s <|> field.of t) := by
  cases field <;> rfl

/-- Settings that are filled up in turn have the first value that there is. -/
theorem of_foldl_mergeWith (entries : List SettingsEntry) (s : AddressSettings) :
    field.of (entries.foldl (fun settings e => settings.mergeWith e.settings) s) =
      (field.of s <|> entries.findSome? fun e => field.of e.settings) := by
  induction entries generalizing s with
  | nil => cases h : field.of s <;> simp [h]
  | cons e entries ih =>
      rw [List.foldl_cons, ih, of_mergeWith, List.findSome?_cons]
      cases field.of s with
      | some v => rfl
      | none => cases field.of e.settings <;> rfl

end SettingsField

/-! ### The order of entries -/

/-- The order of patterns: more literal words, then fewer runs, then fewer single-word
wildcards. -/
def Specificity.rank (s : Specificity) : ℕ ×ₗ ℕᵒᵈ ×ₗ ℕᵒᵈ :=
  toLex (s.literals, toLex (OrderDual.toDual s.runs, OrderDual.toDual s.singles))

namespace Specificity

variable {s t : Specificity}

theorem rank_lt_iff : t.rank < s.rank ↔ s.exceeds t := by
  rw [rank, rank, exceeds, Prod.Lex.toLex_lt_toLex, Prod.Lex.toLex_lt_toLex]
  simp only [Bool.or_eq_true, Bool.and_eq_true, decide_eq_true_iff, OrderDual.toDual_lt_toDual,
    OrderDual.toDual_inj]
  rw [eq_comm, eq_comm (a := t.runs)]

theorem rank_injective : Function.Injective rank := by
  rintro ⟨l, r, n⟩ ⟨l', r', n'⟩ h
  simpa [rank] using h

end Specificity

/-- In a list in descending order, the first value belongs to the greatest member that has one. -/
theorem findSome?_eq_some_iff_of_pairwise {β γ : Type} [LinearOrder γ] {rank : β → γ}
    {members : List β} (hsorted : members.Pairwise fun x y => rank y < rank x)
    {value? : β → Option α} {v : α} :
    members.findSome? value? = some v ↔
      ∃ x ∈ members, value? x = some v ∧
        ∀ y ∈ members, (value? y).isSome → rank y ≤ rank x := by
  have hgreatest : ∀ {v}, members.findSome? value? = some v →
      ∃ x ∈ members, value? x = some v ∧
        ∀ y ∈ members, (value? y).isSome → rank y ≤ rank x := by
    intro v h
    obtain ⟨before, x, after, rfl, hx, hbefore⟩ := List.findSome?_eq_some_iff.mp h
    refine ⟨x, by simp, hx, fun y hy hvalue => ?_⟩
    rcases List.mem_append.mp hy with hy | hy
    · rw [hbefore y hy] at hvalue
      cases hvalue
    · rcases List.mem_cons.mp hy with rfl | hy
      · exact le_refl _
      · exact ((List.pairwise_cons.mp (List.pairwise_append.mp hsorted).2.1).1 y hy).le
  refine ⟨hgreatest, ?_⟩
  rintro ⟨x, hx, hvalue, hle⟩
  have hsome : (members.findSome? value?).isSome :=
    List.findSome?_isSome_iff.mpr ⟨x, hx, by rw [hvalue, Option.isSome_some]⟩
  obtain ⟨w, hw⟩ := Option.isSome_iff_exists.mp hsome
  obtain ⟨y, hy, hother, hle'⟩ := hgreatest hw
  have heq : rank x = rank y :=
    le_antisymm (hle' x hx (by rw [hvalue, Option.isSome_some]))
      (hle y hy (by rw [hother, Option.isSome_some]))
  have hnodup : (members.map rank).Nodup := List.pairwise_map.mpr (hsorted.imp fun h => ne_of_gt h)
  have hsame : x = y := List.inj_on_of_nodup_map hnodup hx hy heq
  rw [hw, ← hother, ← hsame, hvalue]

namespace SettingsRepository

variable {r other : SettingsRepository} {address : String} {field : SettingsField α}

/-- The order of entries with their places. -/
def rank (r : SettingsRepository) (e : SettingsEntry × ℕ) : (ℕ ×ₗ ℕᵒᵈ ×ₗ ℕᵒᵈ) ×ₗ ℕ :=
  toLex ((r.specificity e.1.pattern).rank, e.2)

theorem overrides_iff {e f : SettingsEntry × ℕ} : r.overrides e f ↔ r.rank f ≤ r.rank e := by
  rw [rank, rank, Prod.Lex.toLex_le_toLex, Specificity.rank_lt_iff,
    Specificity.rank_injective.eq_iff, overrides]
  simp only [Bool.or_eq_true, Bool.and_eq_true, decide_eq_true_iff]
  rw [eq_comm (a := r.specificity f.1.pattern)]

/-- The entries for an address with their places, those with the last word first. -/
def ranked (r : SettingsRepository) (address : String) : List (SettingsEntry × ℕ) :=
  (r.entries.zipIdx.filter fun e => r.wildcards.matches e.1.pattern address).mergeSort r.overrides

theorem mem_ranked {e : SettingsEntry × ℕ} :
    e ∈ r.ranked address ↔
      r.entries[e.2]? = some e.1 ∧ r.wildcards.matches e.1.pattern address := by
  rw [ranked, List.mem_mergeSort, List.mem_filter, ← List.mk_mem_zipIdx_iff_getElem?]

theorem pairwise_ranked (r : SettingsRepository) (address : String) :
    (r.ranked address).Pairwise fun e f => r.rank f < r.rank e := by
  have hsorted : (r.ranked address).Pairwise fun e f => r.rank f ≤ r.rank e := by
    refine (List.pairwise_mergeSort (fun e f g => ?_) (fun e f => ?_) _).imp overrides_iff.mp
    · rw [overrides_iff, overrides_iff, overrides_iff]
      exact fun hef hfg => hfg.trans hef
    · rw [Bool.or_eq_true, overrides_iff, overrides_iff]
      exact le_total _ _
  have hplaces : (r.ranked address).Pairwise fun e f => e.2 ≠ f.2 := by
    have hnodup : ((r.ranked address).map Prod.snd).Nodup :=
      (((List.mergeSort_perm ..).map Prod.snd).nodup_iff).mpr
        ((List.nodup_zipIdx_map_snd r.entries).sublist (List.filter_sublist.map Prod.snd))
    exact List.pairwise_map.mp hnodup
  refine (hsorted.and hplaces).imp fun ⟨hle, hne⟩ => lt_of_le_of_ne hle fun heq => hne ?_
  exact (congrArg (fun k => (ofLex k).2) heq).symm

/-! ### The entry with the last word -/

/-- An entry in its place sets a field of an address: its pattern matches and it has a value. -/
structure Sets (r : SettingsRepository) (address : String) (field : SettingsField α)
    (e : SettingsEntry × ℕ) : Prop where
  getElem?_eq : r.entries[e.2]? = some e.1
  matches_eq : r.wildcards.matches e.1.pattern address = true
  isSome : (field.of e.1.settings).isSome

/-- An entry is the greatest of those that set a field of an address. -/
structure HasLastWord (r : SettingsRepository) (address : String) (field : SettingsField α)
    (e : SettingsEntry × ℕ) : Prop where
  sets : r.Sets address field e
  rank_le : ∀ f, r.Sets address field f → r.rank f ≤ r.rank e

theorem of_lookup (r : SettingsRepository) (address : String) (field : SettingsField α) :
    field.of (r.lookup address) =
      (r.ranked address).findSome? fun e => field.of e.1.settings := by
  rw [lookup, field.of_foldl_mergeWith, field.of_empty, matching, ← ranked, List.findSome?_map]
  rfl

theorem sets_iff {e : SettingsEntry × ℕ} :
    r.Sets address field e ↔ e ∈ r.ranked address ∧ (field.of e.1.settings).isSome := by
  rw [mem_ranked]
  exact ⟨fun h => ⟨⟨h.1, h.2⟩, h.3⟩, fun h => ⟨h.1.1, h.1.2, h.2⟩⟩

/-- **A field has the value that the entry with the last word gives it.** -/
theorem of_lookup_eq_some_iff {v : α} :
    field.of (r.lookup address) = some v ↔
      ∃ e, r.HasLastWord address field e ∧ field.of e.1.settings = some v := by
  rw [of_lookup, findSome?_eq_some_iff_of_pairwise (r.pairwise_ranked address)]
  constructor
  · rintro ⟨e, he, hvalue, hle⟩
    have hsets : r.Sets address field e := sets_iff.mpr ⟨he, by rw [hvalue, Option.isSome_some]⟩
    exact ⟨e, ⟨hsets, fun f hf => hle f (sets_iff.mp hf).1 hf.isSome⟩, hvalue⟩
  · rintro ⟨e, h, hvalue⟩
    exact ⟨e, (sets_iff.mp h.sets).1, hvalue, fun f hf hsome =>
      h.rank_le f (sets_iff.mpr ⟨hf, hsome⟩)⟩

/-- A field that no entry sets is not set. -/
theorem of_lookup_eq_none_iff :
    field.of (r.lookup address) = none ↔ ∀ e, ¬r.Sets address field e := by
  rw [of_lookup, List.findSome?_eq_none_iff]
  refine forall_congr' fun e => ?_
  rw [sets_iff, not_and, Option.not_isSome_iff_eq_none]

/-! ### Entries without ties -/

/-- The entries whose patterns match an address, as they stand. -/
def applying (r : SettingsRepository) (address : String) : List SettingsEntry :=
  r.entries.filter fun e => r.wildcards.matches e.pattern address

/-- No two of some entries are equally specific. -/
def Apart (r : SettingsRepository) (entries : List SettingsEntry) : Prop :=
  entries.Pairwise fun e f => r.specificity e.pattern ≠ r.specificity f.pattern

/-- No two of the entries for an address are equally specific. -/
def Untied (r : SettingsRepository) (address : String) : Prop :=
  r.Apart (r.applying address)

theorem specificity_congr (h : other.wildcards = r.wildcards) :
    other.specificity = r.specificity := by
  funext pattern
  rw [specificity, specificity, h]

theorem Apart.congr {entries : List SettingsEntry} (h : r.Apart entries)
    (hwildcards : other.wildcards = r.wildcards) : other.Apart entries := by
  rwa [Apart, specificity_congr hwildcards]

theorem mem_applying {e : SettingsEntry} :
    e ∈ r.applying address ↔ ∃ i, (e, i) ∈ r.ranked address := by
  simp only [mem_ranked]
  rw [applying, List.mem_filter, List.mem_iff_getElem?, exists_and_right]

/-- A value comes from one of the most specific of the entries that have one. -/
theorem exists_of_lookup_eq_some {v : α} (h : field.of (r.lookup address) = some v) :
    ∃ e ∈ r.applying address, field.of e.settings = some v ∧
      ∀ f ∈ r.applying address, (field.of f.settings).isSome →
        (r.specificity f.pattern).rank ≤ (r.specificity e.pattern).rank := by
  obtain ⟨⟨e, i⟩, hlast, hvalue⟩ := of_lookup_eq_some_iff.mp h
  refine ⟨e, mem_applying.mpr ⟨i, (sets_iff.mp hlast.sets).1⟩, hvalue, fun f hf hsome => ?_⟩
  obtain ⟨j, hj⟩ := mem_applying.mp hf
  exact Prod.Lex.monotone_fst _ _ (hlast.rank_le (f, j) (sets_iff.mpr ⟨hj, hsome⟩))

theorem isSome_of_lookup_iff :
    (field.of (r.lookup address)).isSome ↔
      ∃ e ∈ r.applying address, (field.of e.settings).isSome := by
  rw [of_lookup, List.findSome?_isSome_iff]
  constructor
  · rintro ⟨⟨e, i⟩, he, hsome⟩
    exact ⟨e, mem_applying.mpr ⟨i, he⟩, hsome⟩
  · rintro ⟨e, he, hsome⟩
    obtain ⟨i, hi⟩ := mem_applying.mp he
    exact ⟨(e, i), hi, hsome⟩

/-- **Without ties the order of entries makes no difference.** -/
theorem lookup_eq_of_perm (hwildcards : other.wildcards = r.wildcards)
    (hperm : (other.applying address).Perm (r.applying address)) (huntied : r.Untied address) :
    other.lookup address = r.lookup address := by
  refine SettingsField.ext_of fun {β} field => ?_
  have hisSome : (field.of (other.lookup address)).isSome ↔
      (field.of (r.lookup address)).isSome := by
    rw [isSome_of_lookup_iff, isSome_of_lookup_iff]
    simp only [hperm.mem_iff]
  cases hv : field.of (r.lookup address) with
  | none =>
      rw [hv] at hisSome
      exact Option.not_isSome_iff_eq_none.mp (by simpa using hisSome)
  | some v =>
      rw [hv] at hisSome
      obtain ⟨w, hw⟩ := Option.isSome_iff_exists.mp (hisSome.mpr rfl)
      obtain ⟨e, he, hvalue, hle⟩ := exists_of_lookup_eq_some hv
      obtain ⟨f, hf, hother, hle'⟩ := exists_of_lookup_eq_some hw
      rw [specificity_congr hwildcards] at hle'
      have hrank : (r.specificity e.pattern).rank = (r.specificity f.pattern).rank :=
        le_antisymm (hle' e (hperm.mem_iff.mpr he) (by rw [hvalue, Option.isSome_some]))
          (hle f (hperm.mem_iff.mp hf) (by rw [hother, Option.isSome_some]))
      have hnodup : ((r.applying address).map fun e => r.specificity e.pattern).Nodup :=
        List.pairwise_map.mpr huntied
      have hsame : e = f := List.inj_on_of_nodup_map hnodup he (hperm.mem_iff.mp hf)
        (Specificity.rank_injective hrank)
      rw [hw, ← hother, ← hsame, hvalue]

/-! ### Changes -/

/-- A change to a repository. -/
inductive Request where
  /-- An entry is added. -/
  | add (entry : SettingsEntry)
  /-- The entries with a pattern are removed. -/
  | remove (pattern : String)

/-- The repository after a request. It stays as it is when an entry is refused. -/
def serve (r : SettingsRepository) : Request → SettingsRepository
  | .add entry => (r.add entry).toOption.getD r
  | .remove pattern => r.remove pattern

/-- The repository after requests in turn. -/
def serveAll (r : SettingsRepository) (requests : List Request) : SettingsRepository :=
  requests.foldl serve r

/-- The repository with the given entries for its own. -/
def withEntries (r : SettingsRepository) (entries : List SettingsEntry) : SettingsRepository :=
  { r with entries }

/-- The entries among those given that a repository does not refuse. -/
def accepted (r : SettingsRepository) (entries : List SettingsEntry) : List SettingsEntry :=
  entries.filter fun e => (e.check r.wildcards).isOk

/-- The entries for an address among those given that a repository does not refuse. -/
def joining (r : SettingsRepository) (address : String) (entries : List SettingsEntry) :
    List SettingsEntry :=
  (r.accepted entries).filter fun e => r.wildcards.matches e.pattern address

theorem serve_add (r : SettingsRepository) (entry : SettingsEntry) :
    r.serve (.add entry) =
      if (entry.check r.wildcards).isOk then
        r.withEntries (r.entries.filter (·.pattern ≠ entry.pattern) ++ [entry])
      else r := by
  rw [serve, add]
  cases entry.check r.wildcards <;> rfl

/-- Requests change nothing but the entries. -/
theorem exists_serve_eq (r : SettingsRepository) (request : Request) :
    ∃ entries, r.serve request = r.withEntries entries := by
  cases request with
  | add entry =>
      rw [serve_add]
      split
      · exact ⟨_, rfl⟩
      · exact ⟨r.entries, rfl⟩
  | remove pattern => exact ⟨_, rfl⟩

theorem exists_serveAll_eq (r : SettingsRepository) (requests : List Request) :
    ∃ entries, r.serveAll requests = r.withEntries entries := by
  induction requests generalizing r with
  | nil => exact ⟨r.entries, rfl⟩
  | cons request requests ih =>
      obtain ⟨first, hfirst⟩ := exists_serve_eq r request
      obtain ⟨entries, hentries⟩ := ih (r.withEntries first)
      exact ⟨entries, by rw [serveAll, List.foldl_cons, hfirst, ← serveAll, hentries]; rfl⟩

theorem wildcards_serveAll (r : SettingsRepository) (requests : List Request) :
    (r.serveAll requests).wildcards = r.wildcards := by
  obtain ⟨entries, h⟩ := exists_serveAll_eq r requests
  rw [h, withEntries]

theorem applying_withEntries_append (r : SettingsRepository) (declared added : List SettingsEntry)
    (address : String) :
    (r.withEntries (declared ++ r.accepted added)).applying address =
      (r.withEntries declared).applying address ++ r.joining address added :=
  List.filter_append ..

theorem joining_cons (r : SettingsRepository) (address : String) (entry : SettingsEntry)
    (entries : List SettingsEntry) :
    r.joining address (entry :: entries) =
      r.joining address [entry] ++ r.joining address entries := by
  rw [joining, joining, joining, ← List.filter_append, accepted, accepted, accepted,
    ← List.filter_append, List.singleton_append]

/-- An entry that is added replaces none of those for an address, unless it ties with one. -/
theorem applying_serve_add {entry : SettingsEntry}
    (h : r.Apart (r.applying address ++ r.joining address [entry])) :
    (r.serve (.add entry)).applying address =
      r.applying address ++ r.joining address [entry] := by
  rw [serve_add]
  cases hcheck : (entry.check r.wildcards).isOk with
  | false => simp [joining, accepted, hcheck]
  | true =>
      have haccepted : r.accepted [entry] = [entry] := by simp [accepted, hcheck]
      rw [joining, haccepted] at h ⊢
      have hkept : ∀ e ∈ r.applying address, e.pattern ≠ entry.pattern := by
        intro e he hpattern
        have hmatches : r.wildcards.matches entry.pattern address :=
          hpattern ▸ (List.mem_filter.mp he).2
        exact (List.pairwise_append.mp h).2.2 e he entry
          (List.mem_filter.mpr ⟨.head _, hmatches⟩) (congrArg r.specificity hpattern)
      have hfilter : (r.entries.filter (·.pattern ≠ entry.pattern)).filter
          (fun e => r.wildcards.matches e.pattern address) = r.applying address := by
        rw [List.filter_comm]
        exact List.filter_eq_self.mpr fun e he => decide_eq_true (hkept e he)
      rw [if_pos rfl, ← hfilter]
      exact List.filter_append ..

/-- **Entries that are added come behind the others** for an address, if there are no ties. -/
theorem applying_serveAll_add {added : List SettingsEntry}
    (h : r.Apart (r.applying address ++ r.joining address added)) :
    (r.serveAll (added.map .add)).applying address =
      r.applying address ++ r.joining address added := by
  induction added generalizing r with
  | nil => exact (List.append_nil _).symm
  | cons entry added ih =>
      rw [joining_cons, ← List.append_assoc] at h ⊢
      have hwildcards : (r.serve (.add entry)).wildcards = r.wildcards :=
        wildcards_serveAll r [.add entry]
      have hfirst := applying_serve_add (List.pairwise_append.mp h).1
      have hjoining : (r.serve (.add entry)).joining address added = r.joining address added := by
        rw [joining, accepted, hwildcards, joining, accepted]
      rw [← hfirst, ← hjoining] at h ⊢
      exact ih (h.congr hwildcards)

theorem perm_applying {entries others : List SettingsEntry} (h : entries.Perm others)
    (r : SettingsRepository) (address : String) :
    ((r.withEntries entries).applying address).Perm ((r.withEntries others).applying address) :=
  h.filter _

/-- The outcome does not depend on the order in which entries are declared and added, if there
are no ties. -/
theorem lookup_eq_of_reordered {declared others added more : List SettingsEntry}
    (hdeclared : declared.Perm others) (hadded : added.Perm more)
    (huntied : (r.withEntries (declared ++ r.accepted added)).Untied address) :
    ((r.withEntries others).serveAll (more.map .add)).lookup address =
      ((r.withEntries declared).serveAll (added.map .add)).lookup address := by
  have hperm : ((r.withEntries declared).applying address ++ r.joining address added).Perm
      ((r.withEntries others).applying address ++ r.joining address more) :=
    (perm_applying hdeclared r address).append ((hadded.filter _).filter _)
  rw [Untied, applying_withEntries_append] at huntied
  have hothers : r.Apart ((r.withEntries others).applying address ++ r.joining address more) :=
    hperm.pairwise huntied Ne.symm
  have hfirst := applying_serveAll_add (r := r.withEntries declared) huntied
  have hsecond := applying_serveAll_add (r := r.withEntries others) hothers
  refine lookup_eq_of_perm ?_ (hfirst ▸ hsecond ▸ hperm.symm) ?_
  · rw [wildcards_serveAll, wildcards_serveAll]
    rfl
  · rw [Untied, hfirst]
    exact Apart.congr huntied (wildcards_serveAll _ _)

/-! ### The settings of an address -/

/-- What the settings of an address are. -/
structure Ranked (r : SettingsRepository) (address : String) : Prop where
  /-- A field has the value of the greatest entry among those that match and set it. -/
  of_lookup_eq_some_iff : ∀ {α : Type} (field : SettingsField α) (v : α),
    field.of (r.lookup address) = some v ↔
      ∃ e, r.HasLastWord address field e ∧ field.of e.1.settings = some v
  /-- A field is not set if there is no such entry. -/
  of_lookup_eq_none_iff : ∀ {α : Type} (field : SettingsField α),
    field.of (r.lookup address) = none ↔ ∀ e, ¬r.Sets address field e
  /-- Without ties the same entries in any order come to the same. -/
  lookup_withEntries : r.Untied address → ∀ entries : List SettingsEntry, entries.Perm r.entries →
    (r.withEntries entries).lookup address = r.lookup address

/-- **The settings of an address** come field by field from the greatest of the entries that match
the address and set the field, after any additions and removals. If no two of the entries that
were declared or added for the address are equally specific, the order in which that happened
makes no difference. -/
theorem serveAll_ranked (first : SettingsRepository) (requests : List Request)
    (address : String) :
    (first.serveAll requests).Ranked address ∧
      ∀ declared others added more : List SettingsEntry,
        declared.Perm others → added.Perm more →
        (first.withEntries (declared ++ first.accepted added)).Untied address →
        ((first.withEntries others).serveAll (more.map .add)).lookup address =
          ((first.withEntries declared).serveAll (added.map .add)).lookup address :=
  ⟨{ of_lookup_eq_some_iff := fun _ _ => SettingsRepository.of_lookup_eq_some_iff
     of_lookup_eq_none_iff := fun _ => SettingsRepository.of_lookup_eq_none_iff
     lookup_withEntries := fun huntied _ hperm =>
       lookup_eq_of_perm rfl (perm_applying hperm _ address) huntied },
   fun _ _ _ _ hdeclared hadded huntied => lookup_eq_of_reordered hdeclared hadded huntied⟩

/-! ### The settings of prices -/

instance (r : SettingsRepository) (address : String) : Decidable (r.Untied address) :=
  inferInstanceAs (Decidable ((r.applying address).Pairwise fun e f : SettingsEntry =>
    r.specificity e.pattern ≠ r.specificity f.pattern))

/-- Settings for prices, by market. -/
def pricing : SettingsRepository where
  entries :=
    [{ pattern := "prices.#",
       settings := { maxDeliveryAttempts := some 5, deadLetterAddress := some "unpriced" } },
     { pattern := "prices.*", settings := { expiryAddress := some "outdated" } }]

/-- Further settings for prices: those of one market, some that are refused, and those of
everything. -/
def repricing : List SettingsEntry :=
  [{ pattern := "prices.eu", settings := { maxDeliveryAttempts := some 2 } },
   { pattern := "prices.*", settings := { maxDeliveryAttempts := some 0 } },
   { pattern := "#", settings := { deadLetterAddress := some "dead" } }]

/-- The settings of one market, from entries in two orders. -/
theorem serveAll_ranked_pricing :
    (pricing.serveAll (repricing.map .add)).Untied "prices.eu" ∧
    ((pricing.serveAll (repricing.map .add)).withEntries
      (pricing.serveAll (repricing.map .add)).entries.reverse).lookup "prices.eu" =
        (pricing.serveAll (repricing.map .add)).lookup "prices.eu" ∧
    (pricing.withEntries (pricing.entries ++ pricing.accepted repricing)).Untied "prices.eu" ∧
    ((pricing.withEntries pricing.entries.reverse).serveAll
      (repricing.reverse.map .add)).lookup "prices.eu" =
        (pricing.serveAll (repricing.map .add)).lookup "prices.eu" := by
  have huntied : (pricing.serveAll (repricing.map .add)).Untied "prices.eu" := by decide +kernel
  have hall : (pricing.withEntries (pricing.entries ++ pricing.accepted repricing)).Untied
      "prices.eu" := by decide +kernel
  obtain ⟨hranked, hreordered⟩ := serveAll_ranked pricing (repricing.map .add) "prices.eu"
  have hsame := hreordered pricing.entries pricing.entries.reverse repricing repricing.reverse
    (List.reverse_perm _).symm (List.reverse_perm _).symm hall
  exact ⟨huntied, hranked.lookup_withEntries huntied _ (List.reverse_perm _), hall, hsame⟩

end SettingsRepository

end Courier
