import Courier.Proofs.Queue.History
import Courier.Proofs.Queue.Values

/-!
# How a Last-Value Queue Collapses

A message takes the place of a reference that waits with its value, so that the references of one
value do not become more. A delivery that is cancelled can make two references wait with one value,
of which the last one is indexed and is the one to be replaced. When the last one expires and
another one does not, the index forgets the value while a reference waits with it, and the next
message of the value waits behind it. This is the only way in which collapsing ends: over any
history it is in force at every moment if and only if no sweep strands a reference so.

## Main definitions

* `Queue.waitingWith`: the references that wait with a value.
* `Queue.Collapses`: every message takes the place of a reference that waits with its value.
* `Queue.Strands`, `Queue.NeverStrands`: a sweep takes the last reference of a value and leaves
  another one.
* `Queue.IndexesLast`: the index leads to the last reference of each value.

## Main results

* `Queue.LaidOut.add_eq_added`: a message of a value that no reference waits with is added.
* `Queue.IndexesLast.serve`: the index stays right unless a sweep strands a reference.
* `Queue.collapses_iff_neverStrands`: exactly when collapsing is in force.
-/

namespace Courier

namespace Queue

/-- The references that wait with a value, in order of delivery. -/
def waitingWith (q : Queue) (value : String) : List Reference :=
  q.pendingReferences.filter (·.lastValue = some value)

/-- Every message takes the place of a reference that waits with its value, and no more references
wait with that value than before. -/
def Collapses (q : Queue) : Prop :=
  ∀ m value, q.lastValueOf m = some value → q.waitingWith value ≠ [] →
    (∃ r ∈ q.waitingWith value, (q.add m).1 = .replaced r.message.id) ∧
      ((q.add m).2.waitingWith value).length ≤ (q.waitingWith value).length

/-- A sweep takes the last reference that waits with a value and leaves another one. -/
def Strands (q : Queue) : Request → Prop
  | .expire now => ∃ value r, (q.waitingWith value).getLast? = some r ∧ r.isLate now ∧
      ∃ other ∈ q.waitingWith value, ¬other.isLate now
  | _ => False

/-- No sweep among requests strands a reference. -/
def NeverStrands (q : Queue) : List Request → Prop
  | [] => True
  | request :: requests => ¬q.Strands request ∧ (q.serve request).2.NeverStrands requests

/-- The slots among some that lead to a reference with a value. -/
def slotsWith (q : Queue) (value : String) (slots : List Slot) : List Slot :=
  slots.filter fun slot => (q.pending.get? slot).any (·.lastValue = some value)

/-- The index leads to the last of some slots with each value. -/
def IndexesLast (q : Queue) (slots : List Slot) : Prop :=
  ∀ value, q.lastValues.get? value = (q.slotsWith value slots).getLast?

variable {q q' : Queue} {slots : List Slot} {value : String}

theorem waitingWith_eq (q : Queue) (value : String) :
    q.waitingWith value = (q.slotsWith value q.order).filterMap q.pending.get? :=
  (filterMap_filter_of_eq (fun slot r hr => by rw [hr, Option.any_some]) q.order).symm

theorem mem_slotsWith {slot : Slot} :
    slot ∈ q.slotsWith value slots ↔
      slot ∈ slots ∧ ∃ r, q.pending.get? slot = some r ∧ r.lastValue = some value := by
  simp [slotsWith, Option.any_eq_true]

theorem slotsWith_congr {pending : Dictionary Slot Reference} (hpending : q'.pending = pending)
    (h : ∀ slot ∈ slots, pending.get? slot = q.pending.get? slot) :
    q'.slotsWith value slots = q.slotsWith value slots :=
  List.filter_congr fun slot hslot => by rw [hpending, h slot hslot]

theorem not_mem_slotsWith {slot : Slot} (h : slot ∉ slots) : slot ∉ q.slotsWith value slots :=
  fun hmem => h (mem_slotsWith.mp hmem).1

/-! ### Slots -/

/-- The index forgets the slot that a reference is taken out of. -/
theorem Keyed.lastValues_take? (h : q.Keyed) {slot : Slot} {r : Reference}
    (htake : q.take? slot = some (r, q')) (value : String) :
    q'.lastValues.get? value = (q.lastValues.get? value).filter (· ≠ slot) := by
  obtain ⟨found, hr, heq⟩ := Option.map_eq_some_iff.mp htake
  cases heq
  by_cases hslot : q.lastValues.get? value = some slot
  · have hvalue : r.lastValue = some value := by
      obtain ⟨indexed, hindexed, hvalue⟩ := h.indexed value slot hslot
      rw [hr] at hindexed
      cases hindexed
      exact hvalue
    simp [hvalue, hslot, Dictionary.get?_erase, Option.filter_some]
  · have hkept : (q.lastValues.get? value).filter (· ≠ slot) = q.lastValues.get? value := by
      cases hother : q.lastValues.get? value with
      | none => rfl
      | some other =>
          have hne : other ≠ slot := fun heq => hslot (heq ▸ hother)
          simp [Option.filter_some, hne]
    rw [hkept]
    dsimp only
    split
    · split
      · next hother =>
          exact Dictionary.get?_erase_of_ne fun heq => hslot (heq ▸ hother)
      · rfl
    · rfl

/-- Taking the first slot leaves the index right for the others. -/
theorem IndexesLast.take? {slot : Slot} {r : Reference} (h : q.IndexesLast (slot :: slots))
    (hkeyed : q.Keyed) (hlaid : q.LaidOut (slot :: slots)) (htake : q.take? slot = some (r, q')) :
    q'.IndexesLast slots := by
  intro value
  have hslot := (List.nodup_cons.mp hlaid.nodup).1
  have hsame : q'.slotsWith value slots = q.slotsWith value slots := by
    obtain ⟨found, -, heq⟩ := Option.map_eq_some_iff.mp htake
    cases heq
    exact slotsWith_congr rfl fun other => hlaid.get?_erase
  rw [hkeyed.lastValues_take? htake, hsame, h value]
  have hfree : slot ∉ q.slotsWith value slots := not_mem_slotsWith hslot
  have hcons : q.slotsWith value (slot :: slots) = q.slotsWith value slots ∨
      q.slotsWith value (slot :: slots) = slot :: q.slotsWith value slots := by
    rw [slotsWith, List.filter_cons]
    split
    · exact .inr rfl
    · exact .inl rfl
  generalize q.slotsWith value slots = others at hfree hcons ⊢
  rcases List.eq_nil_or_concat' others with rfl | ⟨front, last, rfl⟩
  · rcases hcons with hcons | hcons <;> simp [hcons]
  · have hne : last ≠ slot := fun heq => hfree (by simp [heq])
    rcases hcons with hcons | hcons <;> simp [hcons, hne, List.getLast?_cons]

/-- Taking some slots makes the index forget them. -/
theorem Keyed.lastValues_takeAll (h : q.Keyed) (taken : List Slot) (value : String) :
    (Queue.takeAll taken q).2.lastValues.get? value =
      (q.lastValues.get? value).filter (· ∉ taken) := by
  induction taken generalizing q with
  | nil => cases hslot : q.lastValues.get? value <;>
      simp [Queue.takeAll, hslot, Option.filter_some]
  | cons slot taken ih =>
      rw [Queue.takeAll]
      split
      · next r q' htake =>
          dsimp only
          rw [ih (h.take? htake).2.keyed, h.lastValues_take? htake, Option.filter_filter]
          simp
      · next hnone =>
          -- Nothing is pending in the slot, so that the index does not lead there.
          have hslot : q.lastValues.get? value ≠ some slot := by
            intro hslot
            obtain ⟨r, hr, -⟩ := h.indexed value slot hslot
            rw [Queue.take?, hr] at hnone
            cases hnone
          rw [ih h]
          cases hindexed : q.lastValues.get? value with
          | none => rfl
          | some other =>
              have hne : other ≠ slot := fun heq => hslot (heq ▸ hindexed)
              simp [Option.filter_some, hne]

/-- The slots with a value when a reference is in a new slot. -/
theorem LaidOut.slotsWith_push (h : q.LaidOut q.order) (r : Reference) (atHead : Bool)
    (value : String) :
    (q.push r atHead).slotsWith value (q.push r atHead).order =
      if r.lastValue = some value then
        if atHead then q.nextSlot :: q.slotsWith value q.order
        else q.slotsWith value q.order ++ [q.nextSlot]
      else q.slotsWith value q.order := by
  have hfree : q.nextSlot ∉ q.order := fun hmem => Nat.lt_irrefl _ (h.slot_lt _ hmem)
  have hold : (q.push r atHead).slotsWith value q.order = q.slotsWith value q.order :=
    slotsWith_congr rfl fun slot hslot =>
      Dictionary.get?_insert_of_ne fun heq => hfree (heq ▸ hslot)
  have hnew : (q.push r atHead).slotsWith value [q.nextSlot] =
      if r.lastValue = some value then [q.nextSlot] else [] := by
    simp [slotsWith, Queue.push, List.filter_cons]
  cases atHead with
  | true =>
      have hsplit : (q.push r true).slotsWith value (q.nextSlot :: q.order) =
          (q.push r true).slotsWith value [q.nextSlot] ++ (q.push r true).slotsWith value q.order :=
        List.filter_append [q.nextSlot] q.order
      rw [show (q.push r true).order = q.nextSlot :: q.order from rfl, hsplit, hold, hnew]
      split <;> simp
  | false =>
      have hsplit : (q.push r false).slotsWith value (q.order ++ [q.nextSlot]) =
          (q.push r false).slotsWith value q.order ++
            (q.push r false).slotsWith value [q.nextSlot] := List.filter_append ..
      rw [show (q.push r false).order = q.order ++ [q.nextSlot] from rfl, hsplit, hold, hnew]
      split <;> simp

theorem lastValues_push (q : Queue) (r : Reference) (atHead : Bool) (value : String) :
    (q.push r atHead).lastValues.get? value =
      if r.lastValue = some value then (q.lastValues.get? value).or (some q.nextSlot)
      else q.lastValues.get? value := by
  simp only [Queue.push]
  cases r.lastValue with
  | none => simp
  | some own =>
      dsimp only
      by_cases hcontains : q.lastValues.contains own
      · rw [if_pos hcontains]
        split
        · next heq =>
            obtain ⟨slot, hslot⟩ := Option.isSome_iff_exists.mp hcontains
            rw [← Option.some.inj heq, hslot, Option.some_or]
        · rfl
      · rw [if_neg hcontains]
        split
        · next heq =>
            have hnone : q.lastValues.get? own = none := Option.not_isSome_iff_eq_none.mp hcontains
            rw [← Option.some.inj heq, Dictionary.get?_insert_self, hnone, Option.none_or]
        · next hne => exact Dictionary.get?_insert_of_ne fun heq => hne (congrArg some heq.symm)

/-- A reference before the others is not the last one of its value unless it is the only one; one
behind the others is the last one, which the index knows if it knew of none. -/
theorem IndexesLast.push (h : q.IndexesLast q.order) (hlaid : q.LaidOut q.order) (r : Reference)
    {atHead : Bool} (hbehind : atHead = false → r.lastValue.bind q.lastValues.get? = none) :
    (q.push r atHead).IndexesLast (q.push r atHead).order := by
  intro value
  rw [lastValues_push, hlaid.slotsWith_push, h value]
  split
  · next hvalue =>
      cases atHead with
      | true =>
          rw [if_pos rfl, List.getLast?_cons]
          cases (q.slotsWith value q.order).getLast? <;> rfl
      | false =>
          have hnone := hbehind rfl
          rw [hvalue, Option.bind_some, h value] at hnone
          simp [hnone]
  · rfl

/-! ### What happens to a queue -/

/-- A message either comes behind the others, when its value is not indexed, or takes the place of
a reference with its value. -/
theorem IndexesLast.add (h : q.IndexesLast q.order) (hkeyed : q.Keyed) (hlaid : q.LaidOut q.order)
    (m : Message) : (q.add m).2.IndexesLast (q.add m).2.order := by
  rw [Queue.add]
  split
  · next slot previous hindexed =>
      obtain ⟨own, hm, hfound⟩ := Option.bind_eq_some_iff.mp hindexed
      obtain ⟨hslot, hprevious⟩ := indexed?_eq_some_iff.mp hfound
      obtain ⟨r, hr, hvalue⟩ := hkeyed.indexed own slot hslot
      obtain rfl : previous = r := Option.some.inj (hprevious.symm.trans hr)
      intro value
      rw [show slotsWith _ value q.order = q.slotsWith value q.order from ?_]
      · exact h value
      · refine List.filter_congr fun other _ => ?_
        dsimp only
        rw [Dictionary.get?_insert]
        split
        · next heq => simp [heq, hprevious, hvalue, hm]
        · rfl
  · next hnone =>
      refine IndexesLast.push (q := { q with counters := _ }) h
        ⟨hlaid.nodup, hlaid.mem_iff, hlaid.slot_lt⟩ _ fun _ => ?_
      refine Option.eq_none_iff_forall_ne_some.mpr fun slot hslot => ?_
      obtain ⟨value, hm, hslot⟩ := Option.bind_eq_some_iff.mp hslot
      obtain ⟨r, hr, -⟩ := hkeyed.indexed value slot hslot
      rw [show q.lastValueOf m = some value from hm, Option.bind_some,
        indexed?_eq_some_iff.mpr ⟨hslot, hr⟩] at hnone
      cases hnone

theorem IndexesLast.pollFrom (h : q.IndexesLast slots) (hkeyed : q.Keyed)
    (hlaid : q.LaidOut slots) (now : Timestamp) :
    (Queue.pollFrom now slots q).2.IndexesLast (Queue.pollFrom now slots q).2.order := by
  induction slots generalizing q with
  | nil => exact h
  | cons slot slots ih =>
      obtain ⟨r, index, hr, htake⟩ := LaidOut.take? hlaid
      have hlast := h.take? hkeyed hlaid htake
      have htaken := (hkeyed.take? htake).2.keyed
      have hrest := hlaid.erase index
      rw [Queue.pollFrom, htake]
      dsimp only
      split
      · next hlate =>
          refine ih (q := { q with
            pending := q.pending.erase slot, lastValues := index, expired := q.expired ++ [r] })
            hlast ⟨htaken.slot_lt, htaken.indexed, htaken.pending_value, htaken.delivering_value,
              fun r' hr' => ?_⟩ ⟨hrest.nodup, hrest.mem_iff, hrest.slot_lt⟩
          rcases List.mem_append.mp hr' with hr' | hr'
          · exact hkeyed.expires r' hr'
          · obtain rfl := List.mem_singleton.mp hr'
            exact Option.isSome_of_any hlate
      · exact hlast

theorem IndexesLast.acknowledge (h : q.IndexesLast q.order) {id : MessageId} {r : Reference}
    (hq' : q.acknowledge id = .ok (r, q')) : q'.IndexesLast q'.order := by
  rw [Queue.acknowledge] at hq'
  split at hq'
  · cases hq'
  · cases hq'
    exact h

theorem IndexesLast.cancel (h : q.IndexesLast q.order) (hlaid : q.LaidOut q.order)
    {id : MessageId} {outcome : CancelOutcome} (hq' : q.cancel id = .ok (outcome, q')) :
    q'.IndexesLast q'.order := by
  rw [Queue.cancel] at hq'
  split at hq'
  · cases hq'
  · dsimp only at hq'
    split at hq'
    · cases hq'
      exact h
    · cases hq'
      exact IndexesLast.push (q := { q with delivering := _ }) h
        ⟨hlaid.nodup, hlaid.mem_iff, hlaid.slot_lt⟩ _ fun hbehind => by cases hbehind

/-- A sweep strands a reference if it takes the last slot with a value and leaves another one. -/
theorem strands_expire_iff {now : Timestamp} :
    q.Strands (.expire now) ↔ ∃ value slot,
      (q.slotsWith value q.order).getLast? = some slot ∧ q.isStale now slot ∧
        ∃ other ∈ q.slotsWith value q.order, ¬q.isStale now other := by
  refine exists_congr fun value => ?_
  rw [waitingWith_eq]
  have hwaiting : ∀ slot ∈ q.slotsWith value q.order, ∃ r, q.pending.get? slot = some r :=
    fun slot hslot => (mem_slotsWith.mp hslot).2.imp fun r hr => hr.1
  generalize q.slotsWith value q.order = same at hwaiting
  rcases List.eq_nil_or_concat' same with rfl | ⟨front, last, rfl⟩
  · simp
  · obtain ⟨r, hr⟩ := hwaiting last (by simp)
    have hothers : (∃ other ∈ (front ++ [last]).filterMap q.pending.get?, ¬other.isLate now) ↔
        ∃ other ∈ front ++ [last], ¬q.isStale now other := by
      constructor
      · rintro ⟨other, hother, hstays⟩
        obtain ⟨slot, hslot, hget⟩ := List.mem_filterMap.mp hother
        exact ⟨slot, hslot, by rwa [isStale_of_get? hget]⟩
      · rintro ⟨slot, hslot, hstays⟩
        obtain ⟨other, hother⟩ := hwaiting slot hslot
        exact ⟨other, List.mem_filterMap.mpr ⟨slot, hslot, hother⟩,
          by rwa [← isStale_of_get? hother]⟩
    rw [hothers]
    simp [List.filterMap_append, hr, isStale_of_get? hr]

/-- The last element that passes a test, if the last of all does unless none does. -/
theorem getLast?_filter_eq {α : Type} {p : α → Bool} {l : List α}
    (h : ∀ last, l.getLast? = some last → ¬p last → ∀ a ∈ l, ¬p a) :
    (l.filter p).getLast? = l.getLast?.filter p := by
  rcases List.eq_nil_or_concat' l with rfl | ⟨front, last, rfl⟩
  · rfl
  · by_cases hlast : p last
    · simp [Option.filter_some, hlast]
    · have hnone := h last List.getLast?_concat hlast
      rw [List.filter_eq_nil_iff.mpr hnone, List.getLast?_concat, Option.filter_some, if_neg hlast]
      rfl

/-- A sweep takes slots from the front and the back of a value alike, so that the index stays
right unless it takes the last one only to leave another. -/
theorem IndexesLast.expire (h : q.IndexesLast q.order) (hkeyed : q.Keyed)
    (hlaid : q.LaidOut q.order) {now : Timestamp} (hsweep : ¬q.Strands (.expire now)) :
    (q.expire now).2.IndexesLast (q.expire now).2.order := by
  have hsplit := hlaid.perm (List.filter_append_perm (q.isStale now) q.order).symm
  obtain ⟨pending, lastValues, htaken, -, hget⟩ := hsplit.takeAll
  intro value
  have hindex := hkeyed.lastValues_takeAll (q.order.filter (q.isStale now)) value
  rw [htaken, h value] at hindex
  rw [Queue.expire, List.partition_eq_filter_filter]
  dsimp only at hindex ⊢
  rw [htaken]
  dsimp only
  have hkept : slotsWith { q with
        order := q.order.filter (not ∘ q.isStale now), pending, lastValues, expired := [] }
      value (q.order.filter (not ∘ q.isStale now)) =
        (q.slotsWith value q.order).filter (not ∘ q.isStale now) := by
    rw [slotsWith_congr rfl hget, slotsWith, slotsWith, List.filter_comm]
  rw [hindex]
  refine Eq.trans ?_ (congrArg List.getLast? hkept).symm
  have hall : ∀ last, (q.slotsWith value q.order).getLast? = some last →
      ¬(not ∘ q.isStale now) last → ∀ slot ∈ q.slotsWith value q.order,
        ¬(not ∘ q.isStale now) slot := by
    intro last hlast hstale slot hslot hfresh
    refine hsweep (strands_expire_iff.mpr ⟨value, last, hlast, ?_, slot, hslot, ?_⟩)
    · simpa using hstale
    · simpa using hfresh
  rw [getLast?_filter_eq hall]
  cases hlast : (q.slotsWith value q.order).getLast? with
  | none => rfl
  | some slot =>
      have hmem := (mem_slotsWith.mp (List.mem_of_getLast? hlast)).1
      simp [Option.filter_some, hmem]

/-- Everything leaves, and the index forgets every value. -/
theorem indexesLast_drain (hkeyed : q.Keyed) (hlaid : q.LaidOut q.order) :
    q.drain.2.IndexesLast q.drain.2.order := by
  intro value
  have hindex := hkeyed.lastValues_takeAll q.order value
  have hnone : (q.lastValues.get? value).filter (· ∉ q.order) = none := by
    cases hslot : q.lastValues.get? value with
    | none => rfl
    | some slot =>
        obtain ⟨r, hr, -⟩ := hkeyed.indexed value slot hslot
        have hmem := (hlaid.mem_iff slot).mpr ⟨r, hr⟩
        simp [Option.filter_some, hmem]
  exact hindex.trans hnone

/-! ### One step -/

theorem Keyed.serve (h : q.Keyed) (request : Request) : (q.serve request).2.Keyed := by
  cases request with
  | add m =>
      obtain ⟨-, _, hyields, -⟩ := h.add m
      exact hyields.keyed
  | poll now => exact (h.poll now).1
  | acknowledge id => exact Answer.of_after h fun r q' hq' => (h.acknowledge hq').keyed
  | cancel id => exact Answer.of_after h fun outcome q' hq' => (h.cancel hq').keyed
  | expire now => exact (h.expire now).keyed
  | drain => exact h.drain

/-- The index leads to the last reference of each value after every request but a sweep that
strands one. -/
theorem IndexesLast.serve (h : q.IndexesLast q.order) (hkeyed : q.Keyed)
    (hlaid : q.LaidOut q.order) {request : Request} (hrequest : ¬q.Strands request) :
    (q.serve request).2.IndexesLast (q.serve request).2.order := by
  cases request with
  | add m => exact h.add hkeyed hlaid m
  | poll now => exact h.pollFrom hkeyed hlaid now
  | acknowledge id =>
      exact Answer.of_after (P := fun q : Queue => q.IndexesLast q.order) h fun _ _ => h.acknowledge
  | cancel id =>
      exact Answer.of_after (P := fun q : Queue => q.IndexesLast q.order) h fun _ _ =>
        h.cancel hlaid
  | expire now => exact h.expire hkeyed hlaid hrequest
  | drain => exact indexesLast_drain hkeyed hlaid

/-! ### Messages that come -/

/-- A message of a value that no reference waits with is added. -/
theorem LaidOut.add_eq_added (hlaid : q.LaidOut q.order) (hkeyed : q.Keyed) {m : Message}
    (hm : q.lastValueOf m = some value) (hnone : q.waitingWith value = []) :
    (q.add m).1 = .added := by
  refine (hlaid.add_behind (Option.eq_none_iff_forall_ne_some.mpr ?_)).2.1
  rintro ⟨slot, r⟩ hindexed
  rw [hm, Option.bind_some] at hindexed
  obtain ⟨hslot, hr⟩ := indexed?_eq_some_iff.mp hindexed
  obtain ⟨found, hfound, hvalue⟩ := hkeyed.indexed value slot hslot
  have hmem : slot ∈ q.slotsWith value q.order :=
    mem_slotsWith.mpr ⟨(hlaid.mem_iff slot).mpr ⟨r, hr⟩, found, hfound, hvalue⟩
  rw [waitingWith_eq] at hnone
  exact absurd (List.mem_filterMap.mpr ⟨slot, hmem, hr⟩) (hnone ▸ List.not_mem_nil)

/-- The reference that the index leads to gives up its place. -/
theorem IndexesLast.collapses (h : q.IndexesLast q.order) (hlaid : q.LaidOut q.order) :
    q.Collapses := by
  intro m value hm hwaiting
  have hsome : q.slotsWith value q.order ≠ [] :=
    fun hnone => hwaiting (by rw [waitingWith_eq, hnone]; rfl)
  obtain ⟨slot, hslot⟩ := Option.isSome_iff_exists.mp (List.getLast?_isSome.mpr hsome)
  obtain ⟨-, r, hr, hvalue⟩ := mem_slotsWith.mp (List.mem_of_getLast? hslot)
  have hindexed : (q.lastValueOf m).bind q.indexed? = some (slot, r) := by
    rw [hm, Option.bind_some]
    exact indexed?_eq_some_iff.mpr ⟨(h value).trans hslot, hr⟩
  obtain ⟨-, hreplaced, before, after, hbefore, hafter⟩ := hlaid.add_inPlace hindexed
  have hbefore : q.pendingReferences = before ++ r :: after := hbefore
  have hafter : (q.add m).2.pendingReferences =
      before ++ { message := m, lastValue := q.lastValueOf m } :: after :=
    congrArg PlainQueue.waiting hafter
  refine ⟨⟨r, ?_, hreplaced⟩, ?_⟩
  · rw [waitingWith, hbefore]
    simp [hvalue]
  · rw [waitingWith, waitingWith, hbefore, hafter]
    simp [hvalue, hm]

/-- After a sweep that strands a reference the index has forgotten its value, and a message that
comes with that value waits behind it. -/
theorem IndexesLast.not_collapses_of_strands (h : q.IndexesLast q.order) (hkeyed : q.Keyed)
    (hlaid : q.LaidOut q.order) {request : Request} (hrequest : q.Strands request) :
    ¬(q.serve request).2.Collapses := by
  cases request with
  | expire now =>
      obtain ⟨value, last, hlast, hstale, other, hother, hfresh⟩ := strands_expire_iff.mp hrequest
      obtain ⟨hmem, r, hr, hvalue⟩ := mem_slotsWith.mp hother
      have hlastMem := (mem_slotsWith.mp (List.mem_of_getLast? hlast)).1
      obtain ⟨hafter, hplain⟩ := hlaid.expire now
      have hwaiting : (q.expire now).2.pendingReferences =
          q.pendingReferences.filter (!·.isLate now) :=
        (congrArg (·.2.waiting) hplain).symm
      have hstays : r ∈ (q.expire now).2.waitingWith value := by
        rw [isStale_of_get? hr] at hfresh
        rw [waitingWith, hwaiting]
        simp only [List.mem_filter, pendingReferences, List.mem_filterMap]
        exact ⟨⟨⟨other, hmem, hr⟩, by simpa using hfresh⟩, by simpa using hvalue⟩
      have hforgotten : (q.expire now).2.lastValues.get? value = none := by
        rw [Queue.expire, List.partition_eq_filter_filter]
        refine (hkeyed.lastValues_takeAll _ value).trans ?_
        rw [h value, hlast]
        simp [Option.filter_some, hlastMem, hstale]
      have hinfo := (hkeyed.expire now).info_eq
      have hm : (q.expire now).2.lastValueOf r.message = some value := by
        rw [hinfo, ← hkeyed.pending_value other r hr, hvalue]
      intro hcollapses
      obtain ⟨⟨taken, -, hreplaced⟩, -⟩ :=
        hcollapses r.message value hm (List.ne_nil_of_mem hstays)
      have hadded : ((q.expire now).2.add r.message).1 = .added := by
        refine (hafter.add_behind ?_).2.1
        rw [hm, Option.bind_some, indexed?, hforgotten]
        rfl
      have habsurd := hadded.symm.trans hreplaced
      cases habsurd
  | _ => exact hrequest.elim

/-! ### Any history -/

theorem indexesLast_empty (info : QueueInfo) : (empty info).IndexesLast [] :=
  fun _ => rfl

/-- As long as no sweep strands a reference, the index leads to the last of each value. -/
theorem IndexesLast.collapses_iff (h : q.IndexesLast q.order) (hkeyed : q.Keyed)
    (hlaid : q.LaidOut q.order) (requests : List Request) :
    (∀ before, before <+: requests → (Queue.serveAll Queue.serve q before).2.Collapses) ↔
      q.NeverStrands requests := by
  induction requests generalizing q with
  | nil =>
      refine ⟨fun _ => trivial, fun _ before hbefore => ?_⟩
      obtain rfl := List.prefix_nil.mp hbefore
      exact h.collapses hlaid
  | cons request requests ih =>
      rw [NeverStrands]
      -- A sweep that strands a reference ends collapsing at once, so the moment after it decides.
      by_cases hrequest : q.Strands request
      · refine iff_of_false (fun hall => ?_) fun hnever => hnever.1 hrequest
        refine h.not_collapses_of_strands hkeyed hlaid hrequest ?_
        exact hall [request] (List.cons_prefix_cons.mpr ⟨rfl, List.nil_prefix⟩)
      · have hnext := ih (h.serve hkeyed hlaid hrequest) (hkeyed.serve request)
          (hlaid.serve request)
        rw [← hnext]
        refine ⟨fun hall => ⟨hrequest, fun before hbefore => ?_⟩, ?_⟩
        · exact hall (request :: before) (List.cons_prefix_cons.mpr ⟨rfl, hbefore⟩)
        · rintro ⟨-, hall⟩ before hbefore
          cases before with
          | nil => exact h.collapses hlaid
          | cons first before =>
              obtain ⟨rfl, hrest⟩ := List.cons_prefix_cons.mp hbefore
              exact hall before hrest

theorem Keyed.serveAll (h : q.Keyed) (requests : List Request) :
    (Queue.serveAll Queue.serve q requests).2.Keyed := by
  induction requests generalizing q with
  | nil => exact h
  | cons request requests ih => exact ih (h.serve request)

/-- **Collapsing is in force unless a sweep strands a reference**: over any history a message whose
value no reference waits with is added, and at every moment a message takes the place of a
reference that waits with its value if and only if no sweep takes the last such reference and
leaves another one. -/
theorem collapses_iff_neverStrands (info : QueueInfo) (requests : List Request) :
    let after := fun before => (Queue.serveAll Queue.serve (.empty info) before).2
    (∀ m value, (after requests).lastValueOf m = some value →
        (after requests).waitingWith value = [] → ((after requests).add m).1 = .added) ∧
      ((∀ before, before <+: requests → (after before).Collapses) ↔
        (empty info).NeverStrands requests) := by
  have hkeyed := keyed_new info
  have hlaid := laidOut_empty info
  refine ⟨fun m value => ?_, ?_⟩
  · exact (hlaid.serveAll requests).add_eq_added (hkeyed.serveAll requests)
  · exact (indexesLast_empty info).collapses_iff hkeyed hlaid requests

/-- A queue of the last quote of each symbol. -/
def quotes : QueueInfo where
  name := "quotes"
  address := ⟨"quotes", by decide⟩
  settings := { lastValueKey := some "symbol" }

/-- A quote of one symbol with a number, which may expire. -/
def quote (number : BitVec 128) (expiration : Option Timestamp := none) : Message where
  id := ⟨number⟩
  address := ⟨"quotes", by decide⟩
  timestamp := .epoch
  expiration
  properties := .ofList [("symbol", .string "ACME")]

/-- A quote is handed out, a second one comes, the first one comes back before it, and the second
one expires: the third one is added although the first one waits. -/
theorem not_collapses_redelivered :
    let after := (Queue.serveAll Queue.serve (.empty quotes)
      [.add (quote 1), .poll .epoch, .add (quote 2 (some (.atMillis 1000 (by decide)))),
        .cancel ⟨1⟩, .expire (.atMillis 2000 (by decide))]).2
    after.lastValueOf (quote 3) = some "ACME" ∧
      (after.waitingWith "ACME").map (·.message) = [quote 1] ∧
      (after.add (quote 3)).1 = .added ∧
      ((after.add (quote 3)).2.waitingWith "ACME").map (·.message) = [quote 1, quote 3] := by
  decide +kernel

end Queue

end Courier
