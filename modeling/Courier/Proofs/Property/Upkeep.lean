import Courier.Proofs.Property.Checked

/-!
# The Upkeep of Containers

Containers are created, copied, changed and put into one another. Whatever is done to them, each
of them counts its entries and their bytes right, remembers the reserved keys that it has, and
goes on remembering.

## Main definitions

* `Properties.Request`, `Properties.serveAll`: what can be done to several containers.
* `Properties.Upkept`: everything that is said of a container.

## Main results

* `Properties.Change.remembers_apply`: a change makes no container forget a reserved key.
* `Properties.serveAll_upkept`: every container is kept up to date at all times.
-/

namespace Courier

namespace Properties

/-! ### Reserved keys -/

/-- How a container goes on to another one: the latter remembers the reserved keys that it has,
and still remembers those that the former did. -/
structure Remembers (p q : Properties) : Prop where
  latched : ∀ e ∈ q.toList, isInternal e.1 → q.sawInternal
  saw : p.sawInternal → q.sawInternal

namespace Remembers

variable {p q : Properties}

theorem insertEntry (h : p.Remembers q) (key : String) (v : PropertyValue) :
    p.Remembers (q.insertEntry key v) := by
  refine ⟨fun e he hinternal => ?_, fun hsaw => ?_⟩
  · rw [Properties.insertEntry, Bool.or_eq_true]
    rcases Entries.mem_insert he with rfl | he
    · exact .inr hinternal
    · refine .inl (h.latched e ?_ hinternal)
      obtain ⟨_ | d, size, saw, count⟩ := q
      · cases he
      · exact he
  · rw [Properties.insertEntry, h.saw hsaw, Bool.true_or]

theorem eraseEntry (h : p.Remembers q) (key : String) : p.Remembers (q.eraseEntry key) := by
  unfold Properties.eraseEntry
  split
  · next d old hd _ =>
      refine ⟨fun e he hinternal => h.latched e ?_ hinternal, h.saw⟩
      rw [toList, hd]
      exact Entries.mem_of_mem_erase he
  · exact h

theorem recount (h : p.Remembers q) : p.Remembers q.recount := ⟨h.latched, h.saw⟩

theorem decodeEntries {count : Nat} {bytes rest : List UInt8} {q' : Properties}
    (h : p.Remembers q) (hread : Properties.decodeEntries count q bytes = (.ok q', rest)) :
    p.Remembers q' := by
  induction count generalizing q bytes with
  | zero =>
      cases hread
      exact h
  | succ count ih =>
      obtain ⟨e, between, -, hread⟩ := Reader.eq_ok_of_bind hread
      have hentry := h.insertEntry e.1 e.2
      have htally : p.Remembers (q.tally e.1 e.2) := ⟨hentry.latched, hentry.saw⟩
      exact ih htally hread

end Remembers

theorem remembers_decode {q : Properties} {bytes rest : List UInt8}
    (hread : decode bytes = (.ok q, rest)) : Remembers {} q := by
  rcases eq_of_decode hread with rfl | ⟨count, p, between, hentries, rfl⟩
  · exact ⟨nofun, id⟩
  · have hstart : Remembers {} { entries := some .empty } := ⟨nofun, id⟩
    exact (hstart.decodeEntries hentries).recount

theorem Change.remembers_apply {p : Properties} (h : p.Remembers p) (change : Change) :
    p.Remembers (change.apply p) := by
  cases change with
  | put key v => exact (h.insertEntry key v).recount
  | remove key =>
      rw [apply, Properties.remove]
      split
      · exact h
      · exact (h.eraseEntry key).recount
  | clear =>
      rw [apply, Properties.clear]
      split
      · exact ⟨fun e he => absurd he List.not_mem_nil, id⟩
      · exact h.recount
  | clearInternal =>
      exact Remembers.recount (List.foldlRecOn _ _ h fun _ hq key _ => hq.eraseEntry key)
  | putAll other =>
      rw [apply, Properties.putAll]
      split
      · exact Remembers.recount
          (List.foldlRecOn _ _ h fun _ hq e _ => hq.insertEntry e.1 e.2)
      · exact h
  | read bytes =>
      rw [apply, replaceFrom]
      split
      · next q rest hread =>
          refine ⟨fun e he hinternal => ?_, fun hsaw => ?_⟩
          · rw [(remembers_decode hread).latched e he hinternal, Bool.true_or]
          · rw [hsaw, Bool.or_true]
      · exact h

/-! ### Several containers -/

/-- A request to containers, which are told apart by their places. -/
inductive Request where
  /-- A container is created. -/
  | create
  /-- A container is copied. The copy is a container of its own. -/
  | clone (place : Nat)
  /-- A container is changed. -/
  | change (place : Nat) (change : Change)
  /-- The entries of one container are put into another. -/
  | putAll (place other : Nat)
  deriving DecidableEq

/-- The containers after a request. A container is not put into itself. -/
def serve (shelf : List Properties) : Request → List Properties
  | .create => shelf ++ [{}]
  | .clone i => shelf ++ shelf[i]?.toList
  | .change i change => shelf.modify i change.apply
  | .putAll i j =>
    match shelf[j]? with
    | some q => if i = j then shelf else shelf.modify i (Change.putAll q).apply
    | none => shelf

/-- The containers after some requests, when there were none before. -/
def serveAll (requests : List Request) : List Properties :=
  requests.foldl serve []

/-- All containers of a shelf count right and remember the reserved keys that they have. -/
def Tended (shelf : List Properties) : Prop :=
  ∀ (i : Nat) (p : Properties), shelf[i]? = some p → p.Sized ∧ p.Remembers p

/-- Every container is still there and remembers what it remembered. -/
def Lasts (shelf shelf' : List Properties) : Prop :=
  ∀ (i : Nat) (p : Properties), shelf[i]? = some p →
    ∃ q : Properties, shelf'[i]? = some q ∧ (p.sawInternal → q.sawInternal)

theorem Lasts.refl (shelf : List Properties) : Lasts shelf shelf := fun _ p h => ⟨p, h, id⟩

theorem Lasts.trans {shelf shelf' shelf'' : List Properties} (h : Lasts shelf shelf')
    (h' : Lasts shelf' shelf'') : Lasts shelf shelf'' := by
  intro i p hp
  obtain ⟨q, hq, hsaw⟩ := h i p hp
  obtain ⟨r, hr, hsaw'⟩ := h' i q hq
  exact ⟨r, hr, fun hp => hsaw' (hsaw hp)⟩

namespace Tended

variable {shelf : List Properties}

theorem append (h : Tended shelf) {new : List Properties}
    (hnew : ∀ p ∈ new, p.Sized ∧ p.Remembers p) :
    Tended (shelf ++ new) ∧ Lasts shelf (shelf ++ new) := by
  refine ⟨fun i p hp => ?_, fun i p hp => ⟨p, ?_, id⟩⟩
  · rcases List.mem_append.mp (List.mem_of_getElem? hp) with hmem | hmem
    · obtain ⟨j, hj⟩ := List.mem_iff_getElem?.mp hmem
      exact h j p hj
    · exact hnew p hmem
  · rw [List.getElem?_append_left (List.getElem?_eq_some_iff.mp hp).1, hp]

theorem change (h : Tended shelf) (i : Nat) (change : Change) :
    Tended (shelf.modify i change.apply) ∧ Lasts shelf (shelf.modify i change.apply) := by
  have hplace : ∀ (j : Nat) (p : Properties), shelf[j]? = some p →
      ∃ q : Properties, (shelf.modify i change.apply)[j]? = some q ∧ q.Sized ∧
        p.Remembers q := by
    intro j p hp
    obtain ⟨hsized, hremembers⟩ := h j p hp
    rw [List.getElem?_modify, hp]
    refine ⟨_, rfl, ?_⟩
    dsimp only
    split
    · exact ⟨change.sized_apply hsized, change.remembers_apply hremembers⟩
    · exact ⟨hsized, hremembers⟩
  refine ⟨fun j q hq => ?_, fun j p hp => ?_⟩
  · have hlength : j < shelf.length := by
      simpa using (List.getElem?_eq_some_iff.mp hq).1
    obtain ⟨q', hq', hsized, hremembers⟩ :=
      hplace j shelf[j] (List.getElem?_eq_getElem hlength)
    obtain rfl : q' = q := Option.some.inj (hq'.symm.trans hq)
    exact ⟨hsized, hremembers.latched, id⟩
  · obtain ⟨q, hq, -, hremembers⟩ := hplace j p hp
    exact ⟨q, hq, hremembers.saw⟩

theorem serve (h : Tended shelf) (request : Request) :
    Tended (serve shelf request) ∧ Lasts shelf (Properties.serve shelf request) := by
  cases request with
  | create =>
      refine h.append fun p hp => ?_
      obtain rfl := List.mem_singleton.mp hp
      exact ⟨sized_new, nofun, id⟩
  | clone i => exact h.append fun p hp => h i p (Option.mem_toList.mp hp)
  | change i change => exact h.change i change
  | putAll i j =>
      rw [Properties.serve]
      split
      · split
        · exact ⟨h, .refl shelf⟩
        · exact h.change i _
      · exact ⟨h, .refl shelf⟩

theorem serveFrom (h : Tended shelf) (requests : List Request) :
    Tended (requests.foldl Properties.serve shelf) ∧
      Lasts shelf (requests.foldl Properties.serve shelf) := by
  induction requests generalizing shelf with
  | nil => exact ⟨h, .refl shelf⟩
  | cons request requests ih =>
      obtain ⟨hserve, hlasts⟩ := h.serve request
      obtain ⟨hrest, hlasts'⟩ := ih hserve
      exact ⟨hrest, hlasts.trans hlasts'⟩

end Tended

/-- Everything that is said of a container at any time. -/
structure Upkept (p : Properties) : Prop where
  /-- The sizes of all keys and values are counted. -/
  byteSize_eq : p.byteSize = totalSize p.toList
  /-- The number of entries is right. -/
  size_eq : p.size = p.toList.length
  isEmpty_iff : p.isEmpty ↔ p.toList = []
  contains_iff (key : String) : p.contains key ↔ key ∈ p.toList.map Prod.fst
  /-- What is announced is written, in whatever order of the entries. -/
  length_encode : p.encode.length = p.encodeSize
  length_encodeAs {order : List (String × PropertyValue)} (h : order.Perm p.toList) :
    (p.encodeAs order).length = p.encodeSize
  /-- A reserved key that is there is remembered. -/
  sawInternal_of_mem {key : String} (h : key ∈ p.toList.map Prod.fst) :
    isInternal key → p.sawInternal
  /-- No difference is below zero, whatever is done next. -/
  applyChecked?_eq (change : Change) : change.applyChecked? p = some (change.apply p)

theorem mem_keys_iff_stored? {p : Properties} {key : String} :
    key ∈ p.toList.map Prod.fst ↔ (p.stored? key).isSome := by
  obtain ⟨_ | d, size, saw, count⟩ := p
  · simp [toList, stored?]
  · rw [Option.isSome_iff_exists]
    exact Dictionary.mem_keys_iff

theorem Sized.isEmpty_iff {p : Properties} (h : p.Sized) : p.isEmpty ↔ p.toList = [] := by
  rw [isEmpty, decide_eq_true_iff, h.size_eq, List.length_eq_zero_iff]

/-- A container without entries is known to hold no key before the entries are looked at. -/
theorem Sized.contains_iff {p : Properties} (h : p.Sized) (key : String) :
    p.contains key ↔ key ∈ p.toList.map Prod.fst := by
  rw [contains, mem_keys_iff_stored?]
  split
  · next hempty =>
      rw [stored?_eq_none_of_toList (h.isEmpty_iff.mp hempty)]
      rfl
  · rfl

theorem Sized.upkept {p : Properties} (h : p.Sized) (hremembers : p.Remembers p) : p.Upkept where
  byteSize_eq := h.summed
  size_eq := h.size_eq
  isEmpty_iff := h.isEmpty_iff
  contains_iff := h.contains_iff
  length_encode := length_encodeAs h p.canonicalOrder_perm
  length_encodeAs := length_encodeAs h
  sawInternal_of_mem := by
    intro key hkey
    obtain ⟨e, he, rfl⟩ := List.mem_map.mp hkey
    exact hremembers.latched e he
  applyChecked?_eq := Change.applyChecked?_eq h

/-- **Every container is kept up to date** by whatever is done to any of the containers, and
remembers for good that it had a reserved key. -/
theorem serveAll_upkept (requests more : List Request) (i : Nat) (p : Properties)
    (h : (serveAll requests)[i]? = some p) :
    p.Upkept ∧ ∃ q : Properties, (serveAll (requests ++ more))[i]? = some q ∧
      (p.sawInternal → q.sawInternal) := by
  have hnone : Tended [] := nofun
  obtain ⟨htended, -⟩ := hnone.serveFrom requests
  obtain ⟨hsized, hremembers⟩ := htended i p h
  rw [serveAll, List.foldl_append]
  exact ⟨hsized.upkept hremembers, (htended.serveFrom more).2 i p h⟩

/-- Entries, one of them replaced by an absent text and one under a reserved key, are put into a
second container after reading failed in it. -/
def handingOn : List Request :=
  [.create, .change 0 (.put "_HQ_ROUTE_TO" (.string "q1")), .change 0 (.put "qty" (.short (-3))),
    .change 0 (.put "qty" .null), .create, .change 1 (.read [1, 0, 0, 0, 1]), .putAll 1 0, .clone 1]

/-- The second container forgets its reserved key neither when it is taken out nor when another
container is read in its place. -/
theorem serveAll_upkept_handedOn :
    ∃ p, (serveAll handingOn)[1]? = some p ∧ p.size = 2 ∧ p.sawInternal ∧ p.Upkept ∧
      ∃ q : Properties, (serveAll (handingOn ++ [.change 1 .clearInternal,
          .change 1 (.remove "qty"), .change 1 (.read [0])]))[1]? = some q ∧
        (p.sawInternal → q.sawInternal) := by
  have hplace : ((serveAll handingOn)[1]?).any fun p => p.size = 2 ∧ p.sawInternal := by
    decide +kernel
  obtain ⟨p, hp, hsecond⟩ := (Option.any_eq_true ..).mp hplace
  obtain ⟨hsize, hsaw⟩ := of_decide_eq_true hsecond
  exact ⟨p, hp, hsize, hsaw, serveAll_upkept handingOn _ 1 p hp⟩

end Properties

end Courier
