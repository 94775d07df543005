import Courier.Proofs.Queue.History

/-!
# What Becomes of the Messages in a Queue

Every message that was added is in the queue, or the queue told that it left: another message took
its place, its delivery was acknowledged, it was given up, or it was taken out. There is one
exception. Deliveries are known by the identifiers of messages, so that a message that is handed
out takes the place of one with its identifier whose delivery has not ended; nobody is told of
that. The account is right as long as this does not happen, and wrong as soon as it does.

## Main definitions

* `Queue.Answer.released`: the identifiers of the messages that left, as a queue tells it.
* `Queue.displaced`: the references in delivery that others took the place of.

## Main results

* `Queue.LaidOut.serve_conserves`: the messages of a queue before and after a request.
* `Queue.displaced_eq_nil_of_nodup`: messages with identifiers of their own are never displaced.
* `Queue.serveAll_conserved`: the messages of a queue after any history.
-/

namespace Courier

/-- The messages that plain lists hold. -/
def PlainQueue.held (p : PlainQueue) : List Message :=
  (p.waiting ++ p.delivering.values ++ p.setAside).map Reference.message

namespace Queue

/-- The messages that a request brings. -/
def Request.came : Request → List Message
  | .add m => [m]
  | _ => []

/-- The identifiers of the messages that left, as a queue tells it. -/
def Answer.released : Answer → List MessageId
  | .added outcome => outcome.replacedIds
  | .acknowledged (.ok r) => [r.message.id]
  | .cancelled (.ok outcome) => outcome.givenUp.map Message.id
  | .removed references => references.map (·.message.id)
  | _ => []

/-- The reference in delivery that another one takes the place of when it is handed out. -/
def displacedBy (q : Queue) : Request → List Reference
  | .poll now => ((q.poll now).1.bind fun r => q.delivering.get? r.message.id).toList
  | _ => []

/-- The references in delivery that others took the place of. -/
def displaced (q : Queue) : List Request → List Reference
  | [] => []
  | request :: requests => q.displacedBy request ++ (q.serve request).2.displaced requests

end Queue

namespace PlainQueue

variable {p p' : PlainQueue}

theorem messageCount_eq_length (p : PlainQueue) : p.messageCount = p.held.length := by
  simp [messageCount, held, Dictionary.size, Dictionary.values, Nat.add_assoc]

/-- What is handed out stays, and what was in delivery under its identifier does not. -/
theorem poll_conserves (p : PlainQueue) (now : Timestamp) :
    (((p.poll now).1.bind fun r => p.delivering.get? r.message.id).toList.map Reference.message ++
      (p.poll now).2.held).Perm p.held := by
  obtain ⟨info, waiting, delivering, setAside⟩ := p
  induction waiting generalizing setAside with
  | nil => simp [poll, held]
  | cons r rest ih =>
      by_cases hlate : r.isLate now
      · rw [poll_of_late rfl hlate]
        refine (ih (setAside ++ [r])).trans (List.perm_iff_count.mpr fun m => ?_)
        simp only [held, List.map_append, List.map_cons, List.map_nil, List.count_append,
          List.count_cons, List.count_nil]
        omega
      · rw [poll_of_not_late rfl hlate]
        have hcame := delivering.values_insert_perm r.message.id r.delivered
        have hleft := delivering.values_perm_toList_append r.message.id
        refine List.perm_iff_count.mpr fun m => ?_
        have hcame := (hcame.map Reference.message).count_eq m
        have hleft := (hleft.map Reference.message).count_eq m
        simp only [held, Option.bind_some, List.map_append, List.map_cons, List.count_append,
          List.count_cons, Reference.message_delivered] at hcame hleft ⊢
        omega

/-- The lists without a reference that was in delivery. -/
theorem held_perm_of_delivering {id : MessageId} {r : Reference}
    (h : p.delivering.get? id = some r) :
    p.held.Perm (r.message :: { p with delivering := p.delivering.erase id }.held) := by
  have hperm := (Dictionary.values_perm_of_get? h).append_left p.waiting
  refine ((hperm.append_right p.setAside).map Reference.message).trans ?_
  exact (List.perm_middle.append_right p.setAside).map Reference.message

theorem acknowledge_conserves {r : Reference} {id : MessageId}
    (h : p.acknowledge id = .ok (r, p')) : (r.message :: p'.held).Perm p.held := by
  rw [acknowledge] at h
  split at h
  · cases h
  · next found hfound =>
      cases h
      exact (held_perm_of_delivering hfound).symm

theorem cancel_conserves {outcome : CancelOutcome} {id : MessageId}
    (h : p.cancel id = .ok (outcome, p')) : (outcome.givenUp ++ p'.held).Perm p.held := by
  rw [cancel] at h
  split at h
  · cases h
  · next found hfound =>
      have hperm := (held_perm_of_delivering hfound).symm
      dsimp only at h
      split at h
      · cases h
        exact hperm
      · cases h
        exact hperm

theorem expire_conserves (p : PlainQueue) (now : Timestamp) :
    ((p.expire now).1.map Reference.message ++ (p.expire now).2.held).Perm p.held := by
  have hsplit := (List.filter_append_perm (·.isLate now) p.waiting).map Reference.message
  refine List.perm_iff_count.mpr fun m => ?_
  have hsplit := hsplit.count_eq m
  simp only [expire, held, List.map_append, List.count_append, List.map_nil, List.count_nil]
    at hsplit ⊢
  omega

theorem drain_conserves (p : PlainQueue) :
    (p.drain.1.map Reference.message ++ p.drain.2.held).Perm p.held := by
  simp [drain, held]

end PlainQueue

namespace Queue

variable {q : Queue}

theorem LaidOut.heldMessages_perm (h : q.LaidOut q.order) : q.heldMessages.Perm q.plain.held :=
  ((h.values_perm.append_right _).append_right _).map _

theorem LaidOut.add_conserves (h : q.LaidOut q.order) (m : Message) :
    ∃ gone, gone.map Message.id = (q.add m).1.replacedIds ∧
      (gone ++ (q.add m).2.plain.held).Perm (m :: q.plain.held) := by
  cases hindexed : (q.lastValueOf m).bind q.indexed? with
  | none =>
      obtain ⟨-, hadded, hplain⟩ := h.add_behind hindexed
      refine ⟨[], by rw [hadded]; rfl, List.perm_iff_count.mpr fun n => ?_⟩
      simp only [hplain, PlainQueue.held, List.nil_append, List.map_append, List.map_cons,
        List.map_nil, List.count_append, List.count_cons, List.count_nil]
      omega
  | some found =>
      obtain ⟨-, hreplaced, before, after, hwaiting, hplain⟩ := h.add_inPlace hindexed
      refine ⟨[found.2.message], by rw [hreplaced]; rfl, List.perm_iff_count.mpr fun n => ?_⟩
      simp only [hplain, PlainQueue.held, hwaiting, List.map_append, List.map_cons,
        List.count_append, List.count_cons, List.count_nil]
      omega

/-- The messages that were there and came are there, or left as the queue tells, or were
displaced. -/
theorem LaidOut.serve_conserves (h : q.LaidOut q.order) (request : Request) :
    ∃ gone, gone.map Message.id = (q.serve request).1.released ∧
      (gone ++ ((q.displacedBy request).map Reference.message ++
        (q.serve request).2.plain.held)).Perm (request.came ++ q.plain.held) := by
  cases request with
  | add m => exact h.add_conserves m
  | poll now =>
      have hconserved := q.plain.poll_conserves now
      rw [(h.poll now).2] at hconserved
      exact ⟨[], rfl, hconserved⟩
  | acknowledge id =>
      rw [Queue.serve]
      rcases hresult : q.acknowledge id with e | ⟨r, q'⟩
      · exact ⟨[], rfl, .refl _⟩
      · have hplain := q.acknowledge_plain id
        rw [hresult] at hplain
        exact ⟨[r.message], rfl, PlainQueue.acknowledge_conserves hplain⟩
  | cancel id =>
      rw [Queue.serve]
      rcases hresult : q.cancel id with e | ⟨outcome, q'⟩
      · exact ⟨[], rfl, .refl _⟩
      · have hplain := h.cancel_plain id
        rw [hresult] at hplain
        exact ⟨outcome.givenUp, rfl, PlainQueue.cancel_conserves hplain⟩
  | expire now =>
      have hconserved := q.plain.expire_conserves now
      rw [(h.expire now).2] at hconserved
      exact ⟨_, List.map_map, hconserved⟩
  | drain =>
      have hconserved := q.plain.drain_conserves
      rw [h.drain.2] at hconserved
      exact ⟨_, List.map_map, hconserved⟩

/-- What a history does to the messages of a queue. -/
theorem LaidOut.serveAll_conserves (h : q.LaidOut q.order) (requests : List Request) :
    ∃ gone, gone.map Message.id =
        (Queue.serveAll Queue.serve q requests).1.flatMap Answer.released ∧
      (gone ++ ((q.displaced requests).map Reference.message ++
        (Queue.serveAll Queue.serve q requests).2.plain.held)).Perm
          (requests.flatMap Request.came ++ q.plain.held) := by
  induction requests generalizing q with
  | nil => exact ⟨[], rfl, .refl _⟩
  | cons request requests ih =>
      obtain ⟨first, hfirst, hserved⟩ := h.serve_conserves request
      obtain ⟨others, hothers, hrest⟩ := ih (h.serve request)
      refine ⟨first ++ others, ?_, List.perm_iff_count.mpr fun m => ?_⟩
      · rw [List.map_append, hfirst, hothers]
        rfl
      · have hserved := hserved.count_eq m
        have hrest := hrest.count_eq m
        simp only [displaced, Queue.serveAll, List.flatMap_cons, List.map_append,
          List.count_append] at hserved hrest ⊢
        omega

/-! ### Messages with identifiers of their own -/

theorem Sound.laidOut (h : q.Sound) : q.LaidOut q.order :=
  ⟨h.nodup, h.mem_slots, h.slot_lt⟩

/-- A queue that was withdrawn holds nothing. -/
theorem Sound.of_drain (h : q.Sound) : q.drain.2.Sound := by
  obtain ⟨hlaid, hplain⟩ := h.laidOut.drain
  have hempty : q.drain.2.plain = q.plain.drain.2 := (congrArg Prod.snd hplain).symm
  have hnone : q.drain.2.heldMessages = [] := by
    have hperm := hlaid.heldMessages_perm
    rw [hempty] at hperm
    exact hperm.eq_nil
  refine ⟨hlaid.nodup, hlaid.mem_iff, hlaid.slot_lt, fun id r hr => ?_, ?_⟩
  · simp [Queue.drain] at hr
  · rw [hnone]
    exact .nil

/-- What comes under an identifier of its own is held once. -/
theorem Sound.serve (h : q.Sound) {request : Request}
    (hids : ∀ m ∈ request.came, m.id ∉ q.heldMessages.map Message.id) :
    (q.serve request).2.Sound := by
  cases request with
  | add m =>
      obtain ⟨_, -, hbecomes⟩ := h.add (hids m (.head _))
      exact hbecomes.sound
  | poll now => exact (h.poll now).sound
  | acknowledge id => exact Answer.of_after h fun r q' hq' => (h.acknowledge hq').2.sound
  | cancel id => exact Answer.of_after h fun outcome q' hq' => (h.cancel hq').sound
  | expire now => exact (h.expire now).sound
  | drain => exact h.of_drain

/-- Where no identifier comes twice, handing out displaces nothing. -/
theorem Sound.displacedBy_eq_nil (h : q.Sound) (request : Request) :
    q.displacedBy request = [] := by
  cases request with
  | poll now =>
      -- All messages stay, so that none is left that could have been displaced.
      have hlaid := h.laidOut
      obtain ⟨gone, hgone, hperm⟩ := hlaid.serve_conserves (.poll now)
      obtain rfl : gone = [] := List.map_eq_nil_iff.mp hgone
      have hheld := (hlaid.serve (.poll now)).heldMessages_perm
      have hsame := (hheld.symm.trans (h.poll now).perm).trans hlaid.heldMessages_perm
      have hlength := hperm.length_eq
      rw [List.nil_append, List.length_append, List.length_map, hsame.length_eq] at hlength
      exact List.length_eq_zero_iff.mp (Nat.add_eq_right.mp hlength)
  | _ => rfl

/-- Messages that come with identifiers of their own are never displaced. -/
theorem Sound.displaced_eq_nil (h : q.Sound) {requests : List Request}
    (hids : ((requests.flatMap Request.came ++ q.heldMessages).map Message.id).Nodup) :
    q.displaced requests = [] := by
  induction requests generalizing q with
  | nil => rfl
  | cons request requests ih =>
      have hlaid := h.laidOut
      obtain ⟨gone, -, hserved⟩ := hlaid.serve_conserves request
      have hafter := (hlaid.serve request).heldMessages_perm
      have hbefore := hlaid.heldMessages_perm
      have hall : (requests.flatMap Request.came ++
          (gone ++ ((q.displacedBy request).map Reference.message ++
            (q.serve request).2.heldMessages))).Perm
          ((request :: requests).flatMap Request.came ++ q.heldMessages) := by
        refine List.perm_iff_count.mpr fun m => ?_
        have hserved := hserved.count_eq m
        have hafter := hafter.count_eq m
        have hbefore := hbefore.count_eq m
        simp only [List.flatMap_cons, List.count_append] at hserved ⊢
        omega
      have hrest : (requests.flatMap Request.came ++ (q.serve request).2.heldMessages).Sublist
          (requests.flatMap Request.came ++ (gone ++ ((q.displacedBy request).map
            Reference.message ++ (q.serve request).2.heldMessages))) :=
        .append (.refl _) ((List.sublist_append_right _ _).trans (List.sublist_append_right _ _))
      have hnodup := (hall.map Message.id).nodup_iff.mpr hids
      have hfresh : ∀ m ∈ request.came, m.id ∉ q.heldMessages.map Message.id := by
        rw [List.flatMap_cons, List.map_append, List.nodup_append] at hids
        intro m hm hmem
        exact hids.2.2 _ (List.mem_map_of_mem (List.mem_append_left _ hm)) _ hmem rfl
      rw [displaced, h.displacedBy_eq_nil, List.nil_append]
      exact ih (h.serve hfresh) (hnodup.sublist (hrest.map Message.id))

/-- Where every message has an identifier of its own, none is displaced. -/
theorem displaced_eq_nil_of_nodup (info : QueueInfo) {requests : List Request}
    (hids : ((requests.flatMap Request.came).map Message.id).Nodup) :
    (empty info).displaced requests = [] :=
  (sound_new info).displaced_eq_nil (by rwa [show heldMessages _ = [] from rfl, List.append_nil])

/-! ### Histories -/

/-- **What a queue took in it holds or has reported**, apart from what was displaced: the messages
that are held, those that the queue told to have left and those that were displaced are together
those that were added, and the numbers that the queue tells agree if and only if nothing was
displaced. Nothing is where every message has an identifier of its own. -/
theorem serveAll_conserved (info : QueueInfo) (requests : List Request) :
    let q : Queue := .empty info
    let run := Queue.serveAll Queue.serve q requests
    (∃ gone, gone.map Message.id = run.1.flatMap Answer.released ∧
      (gone ++ ((q.displaced requests).map Reference.message ++ run.2.heldMessages)).Perm
        (requests.flatMap Request.came)) ∧
    (run.2.messageCount + (run.1.flatMap Answer.released).length =
        (requests.flatMap Request.came).length ↔ q.displaced requests = []) ∧
    (((requests.flatMap Request.came).map Message.id).Nodup → q.displaced requests = []) := by
  have hnew := laidOut_empty info
  have hlast := hnew.serveAll requests
  obtain ⟨gone, hgone, hperm⟩ := hnew.serveAll_conserves requests
  intro q run
  have hempty : q.plain.held = [] := rfl
  rw [hempty, List.append_nil] at hperm
  have hheld : (gone ++ ((q.displaced requests).map Reference.message ++
      run.2.heldMessages)).Perm (requests.flatMap Request.came) :=
    ((hlast.heldMessages_perm.append_left _).append_left _).trans hperm
  refine ⟨⟨gone, hgone, hheld⟩, ?_, displaced_eq_nil_of_nodup info⟩
  have hcount : run.2.messageCount = run.2.heldMessages.length := by
    rw [hlast.messageCount_eq, PlainQueue.messageCount_eq_length,
      hlast.heldMessages_perm.length_eq]
  have hlength := hheld.length_eq
  rw [← hgone, hcount, ← List.length_eq_zero_iff]
  simp only [List.length_append, List.length_map] at hlength ⊢
  omega

/-- Of two tickets with identifiers of their own, one is acknowledged and one is still in delivery
when both were handed out. -/
theorem serveAll_conserved_twoTickets :
    let requests := [.add (ticket 1), .add (ticket 2), .poll .epoch, .poll .epoch,
      .acknowledge (ticket 1).id]
    let run := Queue.serveAll Queue.serve (.empty counter) requests
    ((requests.flatMap Request.came).map Message.id).Nodup ∧ run.2.messageCount = 1 ∧
      run.2.messageCount + (run.1.flatMap Answer.released).length =
        (requests.flatMap Request.came).length := by
  intro requests run
  have hids : ((requests.flatMap Request.came).map Message.id).Nodup := by decide
  obtain ⟨-, hcount, hdisplaced⟩ := serveAll_conserved counter requests
  exact ⟨hids, by decide +kernel, hcount.mpr (hdisplaced hids)⟩

/-- A ticket that is added twice and handed out twice: the second delivery takes the place of the
first, and nobody is told. -/
theorem serveAll_not_conserved_handedOutTwice :
    let requests := [.add (ticket 1), .add (ticket 1), .poll .epoch, .poll .epoch]
    let run := Queue.serveAll Queue.serve (.empty counter) requests
    run.2.messageCount + (run.1.flatMap Answer.released).length = 1 ∧
      (requests.flatMap Request.came).length = 2 := by
  decide +kernel

end Queue

end Courier
