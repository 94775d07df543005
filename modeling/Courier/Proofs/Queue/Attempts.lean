import Courier.Proofs.Queue.Collapsing
import Mathlib.Data.List.Perm.Subperm

/-!
# Deliveries of a Reference

A reference carries the number of its deliveries through every place where a queue may keep it.
To say that this number is right one has to know which reference is which, because the messages of
several references may have one identifier, and a reference that takes the place of another one is a
new one. A roll is kept beside the queue for this: it gives every reference a number when it comes,
follows it through the queue, and writes down the number whenever the reference is handed out.

## Main definitions

* `Queue.Numbered`: a reference with its number on the roll.
* `Queue.Roll`, `Queue.Roll.serve`: the roll of a queue, and how it is kept.
* `Queue.Roll.Tells`: the roll without the numbers is the queue.
* `Queue.Roll.Counted`: deliveries are counted as the roll has them, up to a limit.

## Main results

* `Queue.Roll.Tells.serve`, `Queue.Roll.Counted.serve`: what one request preserves.
* `Queue.serveAll_counted`: after any history references are handed out up to the limit and given
  up exactly then.
-/

namespace Courier

namespace Queue

/-- A reference with its number on the roll. -/
structure Numbered where
  /-- The number. -/
  number : Nat
  /-- The reference. -/
  reference : Reference
  deriving DecidableEq, Repr

/-- A numbered reference after one more delivery. -/
def Numbered.delivered (x : Numbered) : Numbered :=
  { x with reference := x.reference.delivered }

/-- The references of a queue with their numbers, and the numbers of those that were handed out. -/
structure Roll where
  /-- The references that wait for delivery, in order. -/
  waiting : List Numbered := []
  /-- The references in delivery. -/
  delivering : Dictionary MessageId Numbered := .empty
  /-- The references that were set aside as expired. -/
  setAside : List Numbered := []
  /-- The number of references that came. -/
  issued : Nat := 0
  /-- The numbers of the references that were handed out, the latest first. -/
  handedOut : List Nat := []

/-- Where the reference waits that a message takes the place of. -/
def placeOf (q : Queue) (m : Message) : Option Nat :=
  ((q.lastValueOf m).bind q.indexed?).map fun (slot, _) => q.order.idxOf slot

namespace Roll

/-- A reference comes: in some place or behind the others. -/
def add (roll : Roll) (place : Option Nat) (r : Reference) : Roll :=
  let new : Numbered := { number := roll.issued, reference := r }
  { roll with
    issued := roll.issued + 1
    waiting :=
      match place with
      | some i => roll.waiting.set i new
      | none => roll.waiting ++ [new] }

/-- References are set aside up to the first that is not expired, which is handed out. -/
def poll (roll : Roll) (now : Timestamp) : Roll :=
  let setAside := roll.setAside ++ roll.waiting.takeWhile (·.reference.isLate now)
  match roll.waiting.dropWhile (·.reference.isLate now) with
  | [] => { roll with waiting := [], setAside }
  | x :: rest =>
    { roll with
      waiting := rest
      setAside
      delivering := roll.delivering.insert x.reference.message.id x.delivered
      handedOut := x.number :: roll.handedOut }

/-- A reference in delivery waits before the others, or leaves if it reached the limit. -/
def cancel (roll : Roll) (limit : Nat) (id : MessageId) : Roll :=
  match roll.delivering.get? id with
  | none => roll
  | some x =>
    let delivering := roll.delivering.erase id
    if limit ≤ x.reference.deliveryCount then { roll with delivering }
    else { roll with waiting := x :: roll.waiting, delivering }

/-- The roll after a request to a queue. -/
def serve (q : Queue) (roll : Roll) : Request → Roll
  | .add m => roll.add (q.placeOf m) { message := m, lastValue := q.lastValueOf m }
  | .poll now => roll.poll now
  | .acknowledge id => { roll with delivering := roll.delivering.erase id }
  | .cancel id => roll.cancel q.settings.maxDeliveryAttempts.toNat id
  | .expire now =>
    { roll with waiting := roll.waiting.filter (!·.reference.isLate now), setAside := [] }
  | .drain => { roll with waiting := [], delivering := .empty, setAside := [] }

/-- The roll after requests in turn to a queue. -/
def serveAll (q : Queue) (roll : Roll) : List Request → Roll
  | [] => roll
  | request :: requests => serveAll (q.serve request).2 (roll.serve q request) requests

/-- All references on the roll. -/
def all (roll : Roll) : List Numbered :=
  roll.waiting ++ roll.delivering.values ++ roll.setAside

/-- The roll without the numbers is what a queue holds. -/
structure Tells (roll : Roll) (p : PlainQueue) : Prop where
  waiting : roll.waiting.map Numbered.reference = p.waiting
  delivering : ∀ id, (roll.delivering.get? id).map Numbered.reference = p.delivering.get? id
  setAside : roll.setAside.map Numbered.reference = p.setAside

/-- Numbers are not used twice, every reference counts its deliveries, and it is handed out up to a
limit. -/
structure Counted (roll : Roll) (limit : Nat) : Prop where
  nodup : (roll.all.map Numbered.number).Nodup
  number_lt : ∀ x ∈ roll.all, x.number < roll.issued
  handedOut_lt : ∀ n ∈ roll.handedOut, n < roll.issued
  count_eq : ∀ x ∈ roll.all, x.reference.deliveryCount = roll.handedOut.count x.number
  idle : ∀ x ∈ roll.waiting ++ roll.setAside, x.reference.deliveryCount < limit
  busy : ∀ x ∈ roll.delivering.values,
    1 ≤ x.reference.deliveryCount ∧ x.reference.deliveryCount ≤ limit

variable {roll roll' : Roll} {q : Queue} {p : PlainQueue} {limit : Nat}

/-! ### The roll tells what a queue holds -/

section

variable {d : Dictionary MessageId Numbered} {d' : Dictionary MessageId Reference}

theorem reference_get?_erase (h : ∀ id, (d.get? id).map Numbered.reference = d'.get? id)
    (id other : MessageId) :
    ((d.erase id).get? other).map Numbered.reference = (d'.erase id).get? other := by
  rw [Dictionary.get?_erase, Dictionary.get?_erase, ← h other]
  split <;> rfl

theorem reference_get?_insert (h : ∀ id, (d.get? id).map Numbered.reference = d'.get? id)
    (id : MessageId) (x : Numbered) (other : MessageId) :
    ((d.insert id x).get? other).map Numbered.reference =
      (d'.insert id x.reference).get? other := by
  rw [Dictionary.get?_insert, Dictionary.get?_insert, ← h other]
  split <;> rfl

end

theorem Tells.dropWhile (h : roll.Tells p) (now : Timestamp) :
    p.waiting.dropWhile (·.isLate now) =
      (roll.waiting.dropWhile (·.reference.isLate now)).map Numbered.reference := by
  rw [← h.waiting, List.dropWhile_map]
  rfl

/-- Handing out moves a reference on the roll as it does in the lists. -/
theorem Tells.poll (h : roll.Tells p) (now : Timestamp) : (roll.poll now).Tells (p.poll now).2 := by
  have htake : p.waiting.takeWhile (·.isLate now) =
      (roll.waiting.takeWhile (·.reference.isLate now)).map Numbered.reference := by
    rw [← h.waiting, List.takeWhile_map]
    rfl
  have haside : (roll.setAside ++ roll.waiting.takeWhile (·.reference.isLate now)).map
      Numbered.reference = p.setAside ++ p.waiting.takeWhile (·.isLate now) := by
    rw [List.map_append, h.setAside, htake]
  rw [Roll.poll, PlainQueue.poll, h.dropWhile]
  cases roll.waiting.dropWhile (·.reference.isLate now) with
  | nil => exact ⟨rfl, h.delivering, haside⟩
  | cons x rest => exact ⟨rfl, reference_get?_insert h.delivering _ x.delivered, haside⟩

theorem Tells.cancel (h : roll.Tells p) (id : MessageId) :
    (roll.cancel p.settings.maxDeliveryAttempts.toNat id).Tells (p.serve (.cancel id)).2 := by
  have herase := reference_get?_erase h.delivering id
  rw [Roll.cancel, PlainQueue.serve, PlainQueue.cancel, ← h.delivering id]
  cases roll.delivering.get? id with
  | none => exact h
  | some x =>
      dsimp only [Option.map_some]
      split
      · exact ⟨h.waiting, herase, h.setAside⟩
      · exact ⟨congrArg (x.reference :: ·) h.waiting, herase, h.setAside⟩

/-- The roll is kept as the lists are when no message comes. -/
theorem Tells.serve_of_not_add (h : roll.Tells p) (hp : p.toQueueInfo = q.toQueueInfo)
    {request : Request} (hadd : ∀ m, request ≠ .add m) :
    (roll.serve q request).Tells (p.serve request).2 := by
  cases request with
  | add m => exact absurd rfl (hadd m)
  | poll now => exact h.poll now
  | acknowledge id =>
      rw [Roll.serve, PlainQueue.serve, PlainQueue.acknowledge]
      cases hid : p.delivering.get? id with
      | none =>
          have hnone := h.delivering id
          rw [hid, Option.map_eq_none_iff] at hnone
          rw [Dictionary.erase_eq_self hnone]
          exact h
      | some r => exact ⟨h.waiting, reference_get?_erase h.delivering id, h.setAside⟩
  | cancel id =>
      rw [Roll.serve, ← hp]
      exact h.cancel id
  | expire now =>
      refine ⟨?_, h.delivering, rfl⟩
      dsimp only [Roll.serve, PlainQueue.serve, PlainQueue.expire]
      rw [← h.waiting, List.filter_map]
      rfl
  | drain => exact ⟨rfl, fun _ => rfl, rfl⟩

end Roll

variable {q : Queue}

/-- What slots lead to when one of them gets another reference. -/
theorem filterMap_get?_insert {pending : Dictionary Slot Reference} {slots : List Slot}
    (hnodup : slots.Nodup) (hall : ∀ slot ∈ slots, ∃ r, pending.get? slot = some r) {slot : Slot}
    (hslot : slot ∈ slots) (r : Reference) :
    slots.filterMap (pending.insert slot r).get? =
      (slots.filterMap pending.get?).set (slots.idxOf slot) r := by
  induction slots with
  | nil => cases hslot
  | cons first slots ih =>
      obtain ⟨hfirst, hnodup⟩ := List.nodup_cons.mp hnodup
      obtain ⟨held, hheld⟩ := hall first (.head _)
      by_cases heq : first = slot
      · subst heq
        have hold : slots.filterMap (pending.insert first r).get? = slots.filterMap pending.get? :=
          List.filterMap_congr fun other hother =>
            Dictionary.get?_insert_of_ne fun heq => hfirst (heq ▸ hother)
        rw [List.filterMap_cons_some (Dictionary.get?_insert_self ..),
          List.filterMap_cons_some hheld, List.idxOf_cons_self, List.set_cons_zero, hold]
      · have hget : (pending.insert slot r).get? first = some held :=
          (Dictionary.get?_insert_of_ne heq).trans hheld
        rw [List.filterMap_cons_some hget, List.filterMap_cons_some hheld,
          List.idxOf_cons_ne _ heq, List.set_cons_succ,
          ih hnodup (fun other hother => hall other (.tail _ hother))
            ((List.mem_cons.mp hslot).resolve_left fun h => heq h.symm)]

/-- A message is put in the place that the index has for it, or else behind the others. -/
theorem LaidOut.plain_add (h : q.LaidOut q.order) (m : Message) :
    (q.add m).2.plain = { q.plain with
      waiting :=
        let r : Reference := { message := m, lastValue := q.lastValueOf m }
        match q.placeOf m with
        | some i => q.plain.waiting.set i r
        | none => q.plain.waiting ++ [r] } := by
  cases hindexed : (q.lastValueOf m).bind q.indexed? with
  | none =>
      rw [placeOf, hindexed]
      exact (h.add_behind hindexed).2.2
  | some found =>
      obtain ⟨slot, previous⟩ := found
      obtain ⟨value, -, hvalue⟩ := Option.bind_eq_some_iff.mp hindexed
      obtain ⟨-, hr⟩ := indexed?_eq_some_iff.mp hvalue
      have hslot := (h.mem_iff slot).mpr ⟨previous, hr⟩
      have hwaiting := filterMap_get?_insert h.nodup (fun slot => (h.mem_iff slot).mp) hslot
        { message := m, lastValue := q.lastValueOf m }
      rw [placeOf, hindexed, Queue.add, hindexed]
      exact congrArg (fun waiting => { q.plain with waiting }) hwaiting

namespace Roll

variable {roll roll' : Roll} {limit : Nat}

/-- The roll is kept as a queue serves a request. -/
theorem Tells.serve (h : roll.Tells q.plain) (hlaid : q.LaidOut q.order) (request : Request) :
    (roll.serve q request).Tells (q.serve request).2.plain := by
  by_cases hadd : ∃ m, request = .add m
  · obtain ⟨m, rfl⟩ := hadd
    rw [show (q.serve (.add m)).2 = (q.add m).2 from rfl, hlaid.plain_add]
    refine ⟨?_, h.delivering, h.setAside⟩
    dsimp only [Roll.serve, Roll.add]
    cases q.placeOf m with
    | none => rw [List.map_append, h.waiting]; rfl
    | some i => rw [List.map_set, h.waiting]
  · have hother := fun m hm => hadd ⟨m, hm⟩
    have hplain := hlaid.serve_plain_of_not_add hother
    have hkept := h.serve_of_not_add (q := q) rfl hother
    rwa [hplain] at hkept

/-! ### Deliveries are counted -/

theorem nodup_numbers {l l' : List Numbered} (h : (l.map Numbered.number).Nodup)
    (hsub : l'.Subperm l) : (l'.map Numbered.number).Nodup := by
  obtain ⟨kept, hperm, hsub⟩ := hsub
  exact (hperm.map _).nodup_iff.mp (h.sublist (hsub.map _))

/-- References change their places, or leave. -/
theorem Counted.move (h : roll.Counted limit) (hsub : roll'.all.Subperm roll.all)
    (hissued : roll'.issued = roll.issued) (hhandedOut : roll'.handedOut = roll.handedOut)
    (hidle : ∀ x ∈ roll'.waiting ++ roll'.setAside, x.reference.deliveryCount < limit)
    (hbusy : roll'.delivering.values ⊆ roll.delivering.values) : roll'.Counted limit where
  nodup := nodup_numbers h.nodup hsub
  number_lt x hx := hissued ▸ h.number_lt x (hsub.subset hx)
  handedOut_lt n hn := hissued ▸ h.handedOut_lt n (hhandedOut ▸ hn)
  count_eq x hx := hhandedOut ▸ h.count_eq x (hsub.subset hx)
  idle := hidle
  busy x hx := h.busy x (hbusy hx)

/-- One reference is new or is handed out, and the others are as they were. -/
theorem Counted.renew (h : roll.Counted limit) {x : Numbered} {others : List Numbered}
    (hsub : roll'.all.Subperm (x :: others)) (hothers : others ⊆ roll.all)
    (hnodup : ((x :: others).map Numbered.number).Nodup) (hissued : roll.issued ≤ roll'.issued)
    (hx : x.number < roll'.issued) (hhandedOut : roll'.handedOut ⊆ x.number :: roll.handedOut)
    (hcount : x.reference.deliveryCount = roll'.handedOut.count x.number)
    (hsame : ∀ n ≠ x.number, roll'.handedOut.count n = roll.handedOut.count n)
    (hidle : ∀ y ∈ roll'.waiting ++ roll'.setAside, y.reference.deliveryCount < limit)
    (hbusy : ∀ y ∈ roll'.delivering.values,
      1 ≤ y.reference.deliveryCount ∧ y.reference.deliveryCount ≤ limit) :
    roll'.Counted limit where
  nodup := nodup_numbers hnodup hsub
  number_lt y hy := by
    rcases List.mem_cons.mp (hsub.subset hy) with rfl | hy
    · exact hx
    · exact Nat.lt_of_lt_of_le (h.number_lt y (hothers hy)) hissued
  handedOut_lt n hn := by
    rcases List.mem_cons.mp (hhandedOut hn) with rfl | hn
    · exact hx
    · exact Nat.lt_of_lt_of_le (h.handedOut_lt n hn) hissued
  count_eq y hy := by
    rcases List.mem_cons.mp (hsub.subset hy) with rfl | hy
    · exact hcount
    · have hne : y.number ≠ x.number := fun heq =>
        (List.nodup_cons.mp hnodup).1 (heq ▸ List.mem_map_of_mem hy)
      exact (h.count_eq y (hothers hy)).trans (hsame _ hne).symm
  idle := hidle
  busy := hbusy

/-- A reference comes that was not handed out yet. -/
theorem Counted.add (h : roll.Counted limit) (hlimit : 1 ≤ limit) (place : Option Nat)
    {r : Reference} (hr : r.deliveryCount = 0) : (roll.add place r).Counted limit := by
  let new : Numbered := { number := roll.issued, reference := r }
  have hwaiting : (roll.add place r).waiting.Subperm (new :: roll.waiting) := by
    cases place with
    | none => exact (List.perm_append_singleton ..).subperm
    | some i =>
        rcases Nat.lt_or_ge i roll.waiting.length with hi | hi
        · exact ((List.set_perm_cons_eraseIdx hi new).subperm).trans
            ((List.subperm_cons new).mpr (List.eraseIdx_sublist ..).subperm)
        · rw [Roll.add]
          dsimp only
          rw [List.set_eq_of_length_le hi]
          exact .cons_self
  have hsub : (roll.add place r).all.Subperm (new :: roll.all) := by
    rw [all, all, ← List.cons_append, ← List.cons_append]
    exact (List.subperm_append_right _).mpr ((List.subperm_append_right _).mpr hwaiting)
  have hfresh : new.number ∉ roll.all.map Numbered.number := by
    intro hmem
    obtain ⟨x, hx, heq⟩ := List.mem_map.mp hmem
    exact Nat.lt_irrefl _ (heq ▸ h.number_lt x hx)
  have hnever : roll.handedOut.count new.number = 0 :=
    List.count_eq_zero.mpr fun hmem => Nat.lt_irrefl _ (h.handedOut_lt _ hmem)
  refine h.renew hsub (List.Subset.refl _) (List.nodup_cons.mpr ⟨hfresh, h.nodup⟩)
    (Nat.le_succ _) (Nat.lt_succ_self _) (List.subset_cons_self ..) (hr.trans hnever.symm)
    (fun _ _ => rfl) (fun y hy => ?_) h.busy
  rcases List.mem_append.mp hy with hy | hy
  · rcases List.mem_cons.mp (hwaiting.subset hy) with rfl | hy
    · exact hr ▸ hlimit
    · exact h.idle y (List.mem_append_left _ hy)
  · exact h.idle y (List.mem_append_right _ hy)

theorem values_erase_subperm (d : Dictionary MessageId Numbered) (id : MessageId) :
    (d.erase id).values.Subperm d.values :=
  (List.sublist_append_right ..).subperm.trans (d.values_perm_toList_append id).symm.subperm

/-- A reference that waits is handed out, and those before it are set aside. -/
theorem Counted.handOut (h : roll.Counted limit) {late rest : List Numbered} {x : Numbered}
    (hsplit : late ++ x :: rest = roll.waiting) :
    Counted { roll with
      waiting := rest
      setAside := roll.setAside ++ late
      delivering := roll.delivering.insert x.reference.message.id x.delivered
      handedOut := x.number :: roll.handedOut } limit := by
  have hbelow : x.reference.deliveryCount < limit := h.idle x (by simp [← hsplit])
  let others := late ++ rest ++ roll.delivering.values ++ roll.setAside
  have hall : roll.all.Perm (x :: others) := by
    refine List.perm_iff_count.mpr fun y => ?_
    simp only [all, others, ← hsplit, List.count_append, List.count_cons]
    omega
  have hx : x ∈ roll.all := hall.mem_iff.mpr (.head _)
  -- A reference of the same identifier may leave, whose place in delivery is taken.
  have hinsert := roll.delivering.values_insert_perm x.reference.message.id x.delivered
  have herase := values_erase_subperm roll.delivering x.reference.message.id
  have hsub : (rest ++ (roll.delivering.insert x.reference.message.id x.delivered).values ++
      (roll.setAside ++ late)).Subperm (x.delivered :: others) := by
    refine List.subperm_ext_iff.mpr fun y _ => ?_
    have hinsert := hinsert.count_eq y
    have herase := herase.count_le y
    simp only [others, List.count_append, List.count_cons] at hinsert ⊢
    omega
  refine h.renew hsub (fun y hy => hall.mem_iff.mpr (.tail _ hy))
    ((hall.map Numbered.number).nodup_iff.mp h.nodup) (Nat.le_refl _) (h.number_lt x hx)
    (List.Subset.refl _) ?_ (fun n hn => List.count_cons_of_ne hn.symm) (fun y hy => h.idle y ?_)
    fun y hy => ?_
  · exact (congrArg (· + 1) (h.count_eq x hx)).trans List.count_cons_self.symm
  · rw [← hsplit]
    simp only [List.mem_append, List.mem_cons] at hy ⊢
    tauto
  · rcases List.mem_cons.mp (hinsert.subset hy) with rfl | hy
    · exact ⟨Nat.le_add_left .., hbelow⟩
    · exact h.busy y (herase.subset hy)

theorem Counted.poll (h : roll.Counted limit) (now : Timestamp) :
    (roll.poll now).Counted limit := by
  have hsplit : roll.waiting.takeWhile (·.reference.isLate now) ++
      roll.waiting.dropWhile (·.reference.isLate now) = roll.waiting :=
    List.takeWhile_append_dropWhile
  rw [Roll.poll]
  cases hdrop : roll.waiting.dropWhile (·.reference.isLate now) with
  | nil =>
      rw [hdrop, List.append_nil] at hsplit
      rw [hsplit]
      refine h.move ?_ rfl rfl (fun y hy => h.idle y ?_) (List.Subset.refl _)
      · refine List.Perm.subperm (List.perm_iff_count.mpr fun y => ?_)
        simp only [all, List.count_append, List.count_nil]
        omega
      · exact List.perm_append_comm.mem_iff.mp hy
  | cons x rest => exact h.handOut (hdrop ▸ hsplit)

/-- A reference waits again only if it was not handed out up to the limit. -/
theorem Counted.cancel (h : roll.Counted limit) (id : MessageId) :
    (roll.cancel limit id).Counted limit := by
  have herase := values_erase_subperm roll.delivering id
  rw [Roll.cancel]
  cases hid : roll.delivering.get? id with
  | none => exact h
  | some x =>
      dsimp only
      split
      · exact h.move ((List.subperm_append_right _).mpr ((List.subperm_append_left _).mpr herase))
          rfl rfl h.idle herase.subset
      · next hbelow =>
          refine h.move ?_ rfl rfl (fun y hy => ?_) herase.subset
          · refine List.Perm.subperm (List.perm_iff_count.mpr fun y => ?_)
            have hperm := (Dictionary.values_perm_of_get? hid).count_eq y
            simp only [all, List.count_append, List.count_cons] at hperm ⊢
            omega
          · rcases List.mem_cons.mp hy with rfl | hy
            · exact Nat.lt_of_not_le hbelow
            · exact h.idle y hy

/-- Deliveries stay counted whatever a queue is asked. -/
theorem Counted.serve (h : roll.Counted q.settings.maxDeliveryAttempts.toNat)
    (hlimit : 1 ≤ q.settings.maxDeliveryAttempts.toNat) (request : Request) :
    (roll.serve q request).Counted q.settings.maxDeliveryAttempts.toNat := by
  cases request with
  | add m => exact h.add hlimit _ rfl
  | poll now => exact h.poll now
  | acknowledge id =>
      have herase := values_erase_subperm roll.delivering id
      exact h.move ((List.subperm_append_right _).mpr ((List.subperm_append_left _).mpr herase))
        rfl rfl h.idle herase.subset
  | cancel id => exact h.cancel id
  | expire now =>
      refine h.move ?_ rfl rfl (fun x hx => h.idle x ?_) (List.Subset.refl _)
      · exact ((List.filter_sublist.append_right _).append (List.nil_sublist _)).subperm
      · rw [Roll.serve, List.append_nil] at hx
        exact List.mem_append_left _ (List.mem_filter.mp hx).1
  | drain =>
      exact h.move (List.nil_sublist _).subperm rfl rfl (fun x hx => by cases hx)
        (List.nil_subset _)

end Roll

/-! ### Any history -/

/-- A queue and its roll, which tells what the queue holds and counts its deliveries. -/
structure Enrolled (q : Queue) (roll : Roll) : Prop where
  laid : q.LaidOut q.order
  tells : roll.Tells q.plain
  counted : roll.Counted q.settings.maxDeliveryAttempts.toNat

theorem enrolled_empty (info : QueueInfo) : (empty info).Enrolled {} where
  laid := laidOut_empty info
  tells := ⟨rfl, fun _ => rfl, rfl⟩
  counted := by
    refine ⟨.nil, ?_, ?_, ?_, ?_, ?_⟩ <;> exact fun x hx => by cases hx

namespace Enrolled

variable {roll : Roll}

theorem serve (h : q.Enrolled roll) (hlimit : 1 ≤ q.settings.maxDeliveryAttempts.toNat)
    (request : Request) : (q.serve request).2.Enrolled (roll.serve q request) where
  laid := h.laid.serve request
  tells := h.tells.serve h.laid request
  counted := by
    rw [h.laid.info_serve]
    exact h.counted.serve hlimit request

theorem serveAll (h : q.Enrolled roll) (hlimit : 1 ≤ q.settings.maxDeliveryAttempts.toNat)
    (requests : List Request) :
    (Queue.serveAll Queue.serve q requests).2.Enrolled (roll.serveAll q requests) ∧
      (Queue.serveAll Queue.serve q requests).2.toQueueInfo = q.toQueueInfo := by
  induction requests generalizing q roll with
  | nil => exact ⟨h, rfl⟩
  | cons request requests ih =>
      have hinfo := h.laid.info_serve request
      obtain ⟨hlast, hlastInfo⟩ := ih (h.serve hlimit request) (hinfo ▸ hlimit)
      exact ⟨hlast, hlastInfo.trans hinfo⟩

theorem idle (h : q.Enrolled roll) {r : Reference} (hr : r ∈ q.pending.values ++ q.expired) :
    r.deliveryCount < q.settings.maxDeliveryAttempts.toNat := by
  have hmem : r ∈ (roll.waiting ++ roll.setAside).map Numbered.reference := by
    rw [List.map_append, h.tells.waiting, h.tells.setAside]
    exact ((h.laid.values_perm.append_right _).mem_iff).mp hr
  obtain ⟨x, hx, rfl⟩ := List.mem_map.mp hmem
  exact h.counted.idle x hx

theorem busy (h : q.Enrolled roll) {r : Reference} (hr : r ∈ q.delivering.values) :
    1 ≤ r.deliveryCount ∧ r.deliveryCount ≤ q.settings.maxDeliveryAttempts.toNat := by
  obtain ⟨id, hid⟩ := Dictionary.mem_values_iff.mp hr
  obtain ⟨x, hx, rfl⟩ := Option.map_eq_some_iff.mp ((h.tells.delivering id).trans hid)
  exact h.counted.busy x (Dictionary.mem_values_iff.mpr ⟨id, hx⟩)

/-- Nothing is handed out, or a reference that waited, which counts this delivery. -/
theorem poll (h : q.Enrolled roll) (now : Timestamp) :
    ((q.poll now).1 = none ∧ (roll.poll now).handedOut = roll.handedOut) ∨
      ∃ x ∈ roll.waiting, (q.poll now).1 = some x.reference.delivered ∧
        (roll.poll now).handedOut = x.number :: roll.handedOut ∧
        x.reference.delivered.deliveryCount = roll.handedOut.count x.number + 1 := by
  have hanswer := congrArg Prod.fst (h.laid.poll now).2
  rw [PlainQueue.poll, h.tells.dropWhile] at hanswer
  rw [Roll.poll]
  cases hwaiting : roll.waiting.dropWhile (·.reference.isLate now) with
  | nil =>
      rw [hwaiting] at hanswer
      exact .inl ⟨hanswer.symm, rfl⟩
  | cons x rest =>
      rw [hwaiting] at hanswer
      have hx : x ∈ roll.waiting :=
        (List.dropWhile_sublist _).subset (hwaiting ▸ List.mem_cons_self ..)
      refine .inr ⟨x, hx, hanswer.symm, rfl, congrArg (· + 1) (h.counted.count_eq x ?_)⟩
      exact List.mem_append_left _ (List.mem_append_left _ hx)

/-- A reference whose delivery is cancelled is given up if it was handed out up to the limit, and
waits again if not. -/
theorem cancel (h : q.Enrolled roll) (id : MessageId) :
    (q.cancel id).map Prod.fst =
      match roll.delivering.get? id with
      | none => .error (.notInDelivery q.name id)
      | some x =>
        .ok (if roll.handedOut.count x.number = q.settings.maxDeliveryAttempts.toNat then
          .deadLetter x.reference q.settings.deadLetterAddress
        else .redelivered (roll.handedOut.count x.number)) := by
  have hid : (roll.delivering.get? id).map Numbered.reference = q.delivering.get? id :=
    h.tells.delivering id
  rw [Queue.cancel, ← hid]
  cases hx : roll.delivering.get? id with
  | none => rfl
  | some x =>
      have hmem := Dictionary.mem_values_iff.mpr ⟨id, hx⟩
      have hcount := h.counted.count_eq x
        (List.mem_append_left _ (List.mem_append_right _ hmem))
      have hmost := (h.counted.busy x hmem).2
      dsimp only [Option.map_some]
      rw [← hcount]
      split
      · next hall => rw [if_pos (Nat.le_antisymm hmost hall)]; rfl
      · next hbelow => rw [if_neg fun heq => hbelow (Nat.le_of_eq heq.symm)]; rfl

end Enrolled

/-- **References are handed out up to the limit**: over any history of a queue that permits a
delivery, what waits or was set aside was handed out less often than is permitted, what is in
delivery was handed out at least once and no more often than that. A reference that is handed out
counts one delivery more than the roll has for it, and one whose delivery is cancelled is given up
exactly if the roll has it as often as is permitted. -/
theorem serveAll_counted {info : QueueInfo}
    (hlimit : 1 ≤ info.settings.maxDeliveryAttempts.toNat) (requests : List Request) :
    let q := (Queue.serveAll Queue.serve (.empty info) requests).2
    let roll := Roll.serveAll (.empty info) {} requests
    let limit := info.settings.maxDeliveryAttempts.toNat
    roll.Tells q.plain ∧ (roll.all.map Numbered.number).Nodup ∧
      (∀ r ∈ q.pending.values ++ q.expired, r.deliveryCount < limit) ∧
      (∀ r ∈ q.delivering.values, 1 ≤ r.deliveryCount ∧ r.deliveryCount ≤ limit) ∧
      (∀ now, ((q.poll now).1 = none ∧ (roll.poll now).handedOut = roll.handedOut) ∨
        ∃ x ∈ roll.waiting, (q.poll now).1 = some x.reference.delivered ∧
          (roll.poll now).handedOut = x.number :: roll.handedOut ∧
          x.reference.delivered.deliveryCount = roll.handedOut.count x.number + 1) ∧
      ∀ id, (q.cancel id).map Prod.fst =
        match roll.delivering.get? id with
        | none => .error (.notInDelivery info.name id)
        | some x =>
          .ok (if roll.handedOut.count x.number = limit then
            .deadLetter x.reference info.settings.deadLetterAddress
          else .redelivered (roll.handedOut.count x.number)) := by
  intro q roll limit
  obtain ⟨h, hinfo⟩ := (enrolled_empty info).serveAll hlimit requests
  have hinfo : q.toQueueInfo = info := hinfo
  have hidle := fun r => h.idle (r := r)
  have hbusy := fun r => h.busy (r := r)
  have hcancel := h.cancel
  rw [show (Queue.serveAll Queue.serve (.empty info) requests).2 = q from rfl, hinfo]
    at hidle hbusy hcancel
  exact ⟨h.tells, h.counted.nodup, hidle, hbusy, h.poll, hcancel⟩

/-- On the busy day two references of one ticket are handed out, of which the second one comes back,
is handed out again and is given up. -/
theorem serveAll_counted_busyDay :
    1 ≤ counter.settings.maxDeliveryAttempts.toNat ∧
      (let q := (Queue.serveAll Queue.serve (.empty counter) busyDay).2
      let roll := Roll.serveAll (.empty counter) {} busyDay
      let limit := counter.settings.maxDeliveryAttempts.toNat
      roll.Tells q.plain ∧ (roll.all.map Numbered.number).Nodup ∧
        (∀ r ∈ q.pending.values ++ q.expired, r.deliveryCount < limit) ∧
        (∀ r ∈ q.delivering.values, 1 ≤ r.deliveryCount ∧ r.deliveryCount ≤ limit) ∧
        (∀ now, ((q.poll now).1 = none ∧ (roll.poll now).handedOut = roll.handedOut) ∨
          ∃ x ∈ roll.waiting, (q.poll now).1 = some x.reference.delivered ∧
            (roll.poll now).handedOut = x.number :: roll.handedOut ∧
            x.reference.delivered.deliveryCount = roll.handedOut.count x.number + 1) ∧
        ∀ id, (q.cancel id).map Prod.fst =
          match roll.delivering.get? id with
          | none => .error (.notInDelivery counter.name id)
          | some x =>
            .ok (if roll.handedOut.count x.number = limit then
              .deadLetter x.reference counter.settings.deadLetterAddress
            else .redelivered (roll.handedOut.count x.number))) ∧
      (Roll.serveAll (.empty counter) {} busyDay).handedOut = [5, 3, 3, 2, 0] :=
  have hlimit : 1 ≤ counter.settings.maxDeliveryAttempts.toNat := by decide
  ⟨hlimit, serveAll_counted hlimit busyDay, by decide +kernel⟩

end Queue

end Courier
