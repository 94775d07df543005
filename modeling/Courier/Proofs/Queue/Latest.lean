import Courier.Proofs.Queue.Collapsing
import Courier.Proofs.Queue.Conservation
import Mathlib.Data.List.Induction

/-!
# What a Last-Value Queue Shows

As long as no delivery is cancelled, what a queue shows is a list of entries. A message is put
behind the entries, unless one of them has its value: then the message takes the place of that
entry, which keeps its position. Handing out and sweeping take entries out. The index, the slots
and their order, by which a queue finds the place of a message, do what the list does over any
history, so that each value is shown once, by the last message that came with it, at the place
where its entry began.

## Conventions

Requests are counted from the start of the history. The time of a request is the number of requests
before it.

## Main definitions

* `QueueInfo.Replaces`: a message takes the place of another one.
* `Queue.Entry`, `Queue.entriesAfter`: the list of entries after requests in turn.
* `Queue.Began`: an entry began at a time, and kept its position since.
* `Queue.Single`: a queue in which no two messages that wait have one value.

## Main results

* `Queue.LaidOut.browse_serve`: what remains of what a queue shows when nothing comes.
* `Queue.Single.add_cases`: where a message is put.
* `Queue.Shows.serve`: a queue and its entries in one step.
* `Queue.browse_eq_entriesAfter`: what a queue shows after any history without cancelled
  deliveries.
-/

namespace Courier

/-- A message takes the place of another one: both have the same value. -/
def QueueInfo.Replaces (info : QueueInfo) (m n : Message) : Prop :=
  ∃ value, info.lastValueOf m = some value ∧ info.lastValueOf n = some value

instance (info : QueueInfo) (m n : Message) : Decidable (info.Replaces m n) :=
  decidable_of_iff ((info.lastValueOf m).isSome ∧ info.lastValueOf m = info.lastValueOf n) <| by
    rw [QueueInfo.Replaces]
    cases info.lastValueOf m <;> simp [eq_comm]

theorem QueueInfo.Replaces.symm {info : QueueInfo} {m n : Message} (h : info.Replaces m n) :
    info.Replaces n m :=
  h.imp fun _ => And.symm

theorem QueueInfo.Replaces.trans {info : QueueInfo} {m n l : Message} (h : info.Replaces m n)
    (h' : info.Replaces n l) : info.Replaces m l := by
  obtain ⟨value, hm, hn⟩ := h
  obtain ⟨value', hn', hl⟩ := h'
  rw [hn] at hn'
  exact ⟨value, hm, hl.trans hn'.symm⟩

namespace Queue

/-- An entry of the list that a queue shows. -/
structure Entry where
  /-- The time at which the entry was put behind the others. -/
  since : Nat
  /-- The message that is shown. -/
  message : Message
  deriving DecidableEq, Repr

/-- What remains of those that wait when a queue is asked anything but to take a message. -/
def Request.remaining {α : Type} (message : α → Message) (waiting : List α) : Request → List α
  | .poll now => (waiting.dropWhile fun a => (message a).isExpired now).tail
  | .expire now => waiting.filter fun a => !(message a).isExpired now
  | .drain => []
  | .add _ | .acknowledge _ | .cancel _ => waiting

/-- Entries with a message in place of the one that has its value, or else behind the others. -/
def place (info : QueueInfo) (entries : List Entry) (time : Nat) (m : Message) : List Entry :=
  if ∃ entry ∈ entries, info.Replaces m entry.message then
    entries.map fun entry =>
      if info.Replaces m entry.message then { entry with message := m } else entry
  else entries ++ [{ since := time, message := m }]

/-- The entries after a request at a time. -/
def follow (info : QueueInfo) (entries : List Entry) : Request × Nat → List Entry
  | (.add m, time) => place info entries time m
  | (request, _) => request.remaining Entry.message entries

/-- The entries after requests in turn. -/
def entriesAfter (info : QueueInfo) (requests : List Request) : List Entry :=
  requests.zipIdx.foldl (follow info) []

/-- An entry began at its time, with its message or one of the same value, and whatever came with
that value since took the place of what it showed. -/
structure Began (info : QueueInfo) (requests : List Request) (answers : List Answer)
    (entry : Entry) : Prop where
  added : ∃ first, requests[entry.since]? = some (.add first) ∧
    answers[entry.since]? = some (.added .added) ∧
    (first = entry.message ∨ info.Replaces entry.message first)
  replaced : ∀ time m, entry.since < time → requests[time]? = some (.add m) →
    info.Replaces m entry.message → ∃ id, answers[time]? = some (.added (.replaced id))

/-- A queue in which no two messages that wait have one value. -/
structure Single (q : Queue) : Prop where
  keyed : q.Keyed
  laid : q.LaidOut q.order
  index : q.IndexesLast q.order
  lone : q.browse.Pairwise fun m n => ¬q.Replaces m n

variable {q : Queue} {info : QueueInfo}

/-! ### Those that wait -/

theorem Request.remaining_sublist {α : Type} (message : α → Message) (waiting : List α)
    (request : Request) : (request.remaining message waiting).Sublist waiting := by
  cases request with
  | poll now => exact (List.tail_sublist _).trans (List.dropWhile_sublist _)
  | expire now => exact List.filter_sublist
  | drain => exact List.nil_sublist _
  | _ => exact .refl _

theorem Request.map_remaining {α : Type} (message : α → Message) (waiting : List α)
    (request : Request) :
    (request.remaining message waiting).map message =
      request.remaining id (waiting.map message) := by
  cases request with
  | poll now =>
      rw [remaining, remaining, List.map_tail, List.dropWhile_map]
      rfl
  | expire now =>
      rw [remaining, remaining, List.filter_map]
      rfl
  | _ => rfl

end Queue

/-- Lists that are asked for anything but to take a message or to take one back. -/
theorem PlainQueue.waiting_serve {p : PlainQueue} {request : Queue.Request}
    (hadd : ∀ m, request ≠ .add m) (hcancel : ∀ id, request ≠ .cancel id) :
    (p.serve request).2.waiting = request.remaining Reference.message p.waiting := by
  cases request with
  | add m => exact absurd rfl (hadd m)
  | cancel id => exact absurd rfl (hcancel id)
  | poll now =>
      rw [serve, poll]
      dsimp only
      split <;> next heq => exact (congrArg List.tail heq).symm
  | acknowledge id =>
      rw [serve, acknowledge]
      split <;> rfl
  | expire now => rfl
  | drain => rfl

namespace Queue

variable {q : Queue} {info : QueueInfo}

/-- What remains of what a queue shows when nothing comes and no delivery is cancelled. -/
theorem LaidOut.browse_serve (h : q.LaidOut q.order) {request : Request}
    (hadd : ∀ m, request ≠ .add m) (hcancel : ∀ id, request ≠ .cancel id) :
    (q.serve request).2.browse = request.remaining id q.browse := by
  have hplain := congrArg (·.2.waiting) (h.serve_plain_of_not_add hadd)
  dsimp only at hplain
  rw [PlainQueue.waiting_serve hadd hcancel] at hplain
  have hmap := congrArg (List.map Reference.message) hplain
  rw [Request.map_remaining] at hmap
  exact hmap.symm

theorem single_empty (info : QueueInfo) : (empty info).Single :=
  ⟨keyed_new info, laidOut_empty info, indexesLast_empty info, .nil⟩

namespace Single

theorem value_of_mem (h : q.Single) {r : Reference} (hr : r ∈ q.pendingReferences) :
    r.lastValue = q.lastValueOf r.message := by
  obtain ⟨slot, -, hslot⟩ := List.mem_filterMap.mp hr
  exact h.keyed.pending_value slot r hslot

/-- At most one reference waits with each value. -/
theorem eq_of_mem_waitingWith (h : q.Single) {value : String} {r s : Reference}
    (hr : r ∈ q.waitingWith value) (hs : s ∈ q.waitingWith value) : r = s := by
  have hlone := (List.pairwise_map.mp h.lone).sublist
    (List.filter_sublist (p := (·.lastValue = some value)))
  have hvalue : ∀ t ∈ q.waitingWith value, q.lastValueOf t.message = some value := by
    intro t ht
    obtain ⟨hmem, hlast⟩ := List.mem_filter.mp ht
    exact (h.value_of_mem hmem).symm.trans (of_decide_eq_true hlast)
  have hpair : (q.waitingWith value).Pairwise fun _ _ => False :=
    hlone.imp_of_mem fun ha hb hne => hne ⟨value, hvalue _ ha, hvalue _ hb⟩
  generalize q.waitingWith value = same at hr hs hpair
  match same with
  | [] => cases hr
  | [t] => rw [List.mem_singleton.mp hr, List.mem_singleton.mp hs]
  | a :: b :: rest => exact (List.rel_of_pairwise_cons hpair (.head _)).elim

theorem not_strands (h : q.Single) (request : Request) : ¬q.Strands request := by
  cases request with
  | expire now =>
      rintro ⟨value, r, hr, hlate, other, hother, hstays⟩
      rw [h.eq_of_mem_waitingWith hother (List.mem_of_getLast? hr)] at hstays
      exact hstays hlate
  | _ => exact id

/-- A message is put behind the others if none of them has its value, and else in the place of the
only one that has it. -/
theorem add_cases (h : q.Single) (m : Message) :
    ((q.add m).1 = .added ∧ (q.add m).2.browse = q.browse ++ [m] ∧
      ∀ n ∈ q.browse, ¬q.Replaces m n) ∨
    ∃ before previous after, (q.add m).1 = .replaced previous.id ∧
      q.browse = before ++ previous :: after ∧ (q.add m).2.browse = before ++ m :: after ∧
      q.Replaces m previous ∧ ∀ n ∈ before ++ after, ¬q.Replaces m n := by
  cases hindexed : (q.lastValueOf m).bind q.indexed? with
  | none =>
      obtain ⟨-, hadded, hplain⟩ := h.laid.add_behind hindexed
      refine .inl ⟨hadded, ?_, fun n hn => ?_⟩
      · rw [browse_eq, hplain, PlainQueue.browse, List.map_append]
        rfl
      · rintro ⟨value, hm, hvalue⟩
        obtain ⟨r, hr, rfl⟩ := List.mem_map.mp hn
        have hwaiting : q.waitingWith value ≠ [] := List.ne_nil_of_mem <|
          List.mem_filter.mpr ⟨hr, decide_eq_true ((h.value_of_mem hr).trans hvalue)⟩
        obtain ⟨⟨_, -, hreplaced⟩, -⟩ := h.index.collapses h.laid m value hm hwaiting
        cases hadded.symm.trans hreplaced
  | some found =>
      obtain ⟨slot, previous⟩ := found
      obtain ⟨-, hreplaced, before, after, hbefore, hplain⟩ := h.laid.add_inPlace hindexed
      obtain ⟨value, hm, hvalue⟩ := Option.bind_eq_some_iff.mp hindexed
      obtain ⟨hslot, hprevious⟩ := indexed?_eq_some_iff.mp hvalue
      obtain ⟨r, hr, hsame⟩ := h.keyed.indexed value slot hslot
      obtain rfl : previous = r := Option.some.inj (hprevious.symm.trans hr)
      rw [h.keyed.pending_value slot previous hr] at hsame
      have hshown : q.browse =
          before.map Reference.message ++ previous.message :: after.map Reference.message := by
        rw [browse_eq, PlainQueue.browse, hbefore, List.map_append, List.map_cons]
      refine .inr ⟨_, _, _, hreplaced, hshown, ?_, ⟨value, hm, hsame⟩, fun n hn hsame' => ?_⟩
      · rw [browse_eq, hplain, PlainQueue.browse, List.map_append, List.map_cons]
      · have hlone := h.lone
        rw [hshown, List.pairwise_middle fun hne hsame => hne hsame.symm] at hlone
        exact List.rel_of_pairwise_cons hlone hn
          (QueueInfo.Replaces.trans ⟨value, hsame, hm⟩ hsame')

theorem add_replaced (h : q.Single) {m n : Message} (hn : n ∈ q.browse) (hsame : q.Replaces m n) :
    ∃ id, (q.add m).1 = .replaced id := by
  rcases h.add_cases m with ⟨-, -, hnone⟩ | ⟨-, previous, -, hreplaced, -⟩
  · exact absurd hsame (hnone n hn)
  · exact ⟨_, hreplaced⟩

theorem add_added (h : q.Single) {m : Message} (hnone : ∀ n ∈ q.browse, ¬q.Replaces m n) :
    (q.add m).1 = .added := by
  rcases h.add_cases m with ⟨hadded, -⟩ | ⟨_, previous, _, -, hbefore, -, hsame, -⟩
  · exact hadded
  · exact absurd hsame (hnone previous (by simp [hbefore]))

theorem serve (h : q.Single) {request : Request} (hcancel : ∀ id, request ≠ .cancel id) :
    (q.serve request).2.Single := by
  refine ⟨h.keyed.serve request, h.laid.serve request,
    h.index.serve h.keyed h.laid (h.not_strands request), ?_⟩
  rw [h.laid.info_serve]
  by_cases hadd : ∃ m, request = .add m
  · obtain ⟨m, rfl⟩ := hadd
    have hlone := h.lone
    rcases h.add_cases m with ⟨-, hshown, hnone⟩ | ⟨before, previous, after, -, hbefore, hshown,
      hsame, hnone⟩
    · rw [show (q.serve (.add m)).2.browse = _ from hshown, List.pairwise_append]
      refine ⟨hlone, List.pairwise_singleton .., fun n hn m' hm' hsame => ?_⟩
      obtain rfl := List.mem_singleton.mp hm'
      exact hnone n hn hsame.symm
    · rw [hbefore, List.pairwise_middle fun hne hsame => hne hsame.symm] at hlone
      rw [show (q.serve (.add m)).2.browse = _ from hshown,
        List.pairwise_middle fun hne hsame => hne hsame.symm]
      exact List.pairwise_cons.mpr ⟨hnone, (List.pairwise_cons.mp hlone).2⟩
  · rw [h.laid.browse_serve (fun m hm => hadd ⟨m, hm⟩) hcancel]
    exact h.lone.sublist (Request.remaining_sublist ..)

end Single

/-! ### Entries -/

/-- The messages of entries among which a message was put. -/
theorem map_place (info : QueueInfo) (entries : List Entry) (time : Nat) (m : Message) :
    (place info entries time m).map Entry.message =
      if ∃ n ∈ entries.map Entry.message, info.Replaces m n then
        (entries.map Entry.message).map fun n => if info.Replaces m n then m else n
      else entries.map Entry.message ++ [m] := by
  simp only [place, List.mem_map, exists_exists_and_eq_and]
  split
  · simp only [List.map_map, List.map_inj_left, Function.comp_apply]
    intro entry _
    split <;> rfl
  · simp

/-- The times of entries stay when a message takes the place of one of them. -/
theorem since_place (info : QueueInfo) (entries : List Entry) (time : Nat) (m : Message) :
    (place info entries time m).map Entry.since =
      if ∃ entry ∈ entries, info.Replaces m entry.message then entries.map Entry.since
      else entries.map Entry.since ++ [time] := by
  rw [place]
  split
  · simp only [List.map_map, List.map_inj_left, Function.comp_apply]
    intro entry _
    split <;> rfl
  · rw [List.map_append]
    rfl

/-- An entry after a message was put among entries: an old one with another value, an old one that
the message took the place of, or a new one. -/
theorem mem_place {entries : List Entry} {time : Nat} {m : Message} {entry : Entry}
    (h : entry ∈ place info entries time m) :
    (entry ∈ entries ∧ ¬info.Replaces m entry.message) ∨
      (∃ old ∈ entries, info.Replaces m old.message ∧ entry = { old with message := m }) ∨
      (entry = { since := time, message := m } ∧
        ∀ old ∈ entries, ¬info.Replaces m old.message) := by
  rw [place] at h
  split at h
  · obtain ⟨old, hold, rfl⟩ := List.mem_map.mp h
    split
    · next hsame => exact .inr (.inl ⟨old, hold, hsame, rfl⟩)
    · next hother => exact .inl ⟨hold, hother⟩
  · next hnone =>
      have hothers : ∀ old ∈ entries, ¬info.Replaces m old.message :=
        fun old hold hsame => hnone ⟨old, hold, hsame⟩
      rcases List.mem_append.mp h with hold | hnew
      · exact .inl ⟨hold, hothers entry hold⟩
      · exact .inr (.inr ⟨List.mem_singleton.mp hnew, hothers⟩)

/-- A queue puts a message where the entries have it. -/
theorem Single.browse_add (h : q.Single) {entries : List Entry}
    (hentries : q.browse = entries.map Entry.message) (time : Nat) (m : Message) :
    (q.add m).2.browse = (place q.toQueueInfo entries time m).map Entry.message := by
  rw [map_place, ← hentries]
  rcases h.add_cases m with ⟨-, hshown, hnone⟩ | ⟨before, previous, after, -, hbefore, hshown,
    hsame, hnone⟩
  · rw [if_neg fun ⟨n, hn, hsame⟩ => hnone n hn hsame, hshown]
  · have hothers : ∀ l ⊆ before ++ after,
        l.map (fun n => if q.Replaces m n then m else n) = l := fun l hl =>
      (List.map_congr_left fun n hn => if_neg (hnone n (hl hn))).trans (List.map_id l)
    rw [if_pos ⟨previous, by simp [hbefore], hsame⟩, hbefore, hshown, List.map_append,
      List.map_cons, if_pos hsame, hothers before (by simp), hothers after (by simp)]

namespace Began

variable {requests : List Request} {answers : List Answer} {entry : Entry}

theorem since_lt (h : Began info requests answers entry) : entry.since < requests.length := by
  obtain ⟨first, hfirst, -⟩ := h.added
  exact (List.getElem?_eq_some_iff.mp hfirst).1

/-- An entry after one more request, which does not add a second entry with its value. -/
theorem concat (h : Began info requests answers entry) (hlength : answers.length = requests.length)
    {request : Request} {answer : Answer}
    (hnext : ∀ m, request = .add m → info.Replaces m entry.message →
      ∃ id, answer = .added (.replaced id)) :
    Began info (requests ++ [request]) (answers ++ [answer]) entry where
  added := by
    obtain ⟨first, hfirst, hanswer, hsame⟩ := h.added
    refine ⟨first, ?_, ?_, hsame⟩
    · rwa [List.getElem?_append_left h.since_lt]
    · rwa [List.getElem?_append_left (hlength.symm ▸ h.since_lt)]
  replaced time m htime hm hsame := by
    rcases Nat.lt_or_ge time requests.length with hold | hnew
    · rw [List.getElem?_append_left hold] at hm
      rw [List.getElem?_append_left (hlength.symm ▸ hold)]
      exact h.replaced time m htime hm hsame
    · have hlast : time = requests.length := by
        have hlt := (List.getElem?_eq_some_iff.mp hm).1
        rw [List.length_append, List.length_singleton] at hlt
        omega
      subst hlast
      rw [List.getElem?_concat_length] at hm
      obtain ⟨id, hid⟩ := hnext m (Option.some.inj hm) hsame
      exact ⟨id, by rw [← hlength, List.getElem?_concat_length, hid]⟩

/-- An entry whose message another one took the place of. -/
theorem withMessage (h : Began info requests answers entry) {m : Message}
    (hm : info.Replaces m entry.message) :
    Began info requests answers { entry with message := m } where
  added := by
    obtain ⟨first, hfirst, hanswer, hsame⟩ := h.added
    refine ⟨first, hfirst, hanswer, .inr ?_⟩
    rcases hsame with rfl | hsame
    · exact hm
    · exact hm.trans hsame
  replaced time n htime hn hsame := h.replaced time n htime hn (hsame.trans hm)

/-- An entry that begins. -/
theorem last (hlength : answers.length = requests.length) (m : Message) :
    Began info (requests ++ [.add m]) (answers ++ [.added .added])
      { since := requests.length, message := m } where
  added := ⟨m, List.getElem?_concat_length, hlength ▸ List.getElem?_concat_length, .inl rfl⟩
  replaced time n htime hn _ := by
    have hlt := (List.getElem?_eq_some_iff.mp hn).1
    rw [List.length_append, List.length_singleton] at hlt
    dsimp only at htime
    omega

end Began

/-! ### A queue and its entries -/

/-- The last of some requests' messages that has a value. -/
def lastWith (info : QueueInfo) (requests : List Request) (value : String) : Option Message :=
  ((requests.flatMap Request.came).filter (info.lastValueOf · = some value)).getLast?

/-- A queue shows entries after requests that it gave answers to. -/
structure Shows (info : QueueInfo) (requests : List Request) (answers : List Answer) (q : Queue)
    (entries : List Entry) : Prop where
  single : q.Single
  info_eq : q.toQueueInfo = info
  length_eq : answers.length = requests.length
  browse_eq : q.browse = entries.map Entry.message
  sorted : entries.Pairwise (·.since < ·.since)
  began : ∀ entry ∈ entries, Began info requests answers entry
  latest : ∀ entry ∈ entries, ∀ value, info.lastValueOf entry.message = some value →
    lastWith info requests value = some entry.message

theorem lastWith_of_came (info : QueueInfo) (requests : List Request) {request : Request}
    (hcame : request.came = []) (value : String) :
    lastWith info (requests ++ [request]) value = lastWith info requests value := by
  rw [lastWith, List.flatMap_append, List.flatMap_singleton, hcame, List.append_nil]
  rfl

theorem lastWith_add (info : QueueInfo) (requests : List Request) (m : Message) (value : String) :
    lastWith info (requests ++ [.add m]) value =
      if info.lastValueOf m = some value then some m else lastWith info requests value := by
  rw [lastWith, List.flatMap_append, List.filter_append, List.getLast?_append]
  split <;> next hvalue => simp [lastWith, Request.came, hvalue]

namespace Shows

variable {requests : List Request} {answers : List Answer} {entries : List Entry}

/-- Entries began one after another, also when a message is put among them. -/
theorem sorted_place (h : Shows info requests answers q entries) (m : Message) :
    (place info entries requests.length m).Pairwise (·.since < ·.since) := by
  refine List.pairwise_map.mp ?_
  rw [since_place]
  have htimes := List.pairwise_map.mpr h.sorted
  split
  · exact htimes
  · refine List.pairwise_append.mpr
      ⟨htimes, List.pairwise_singleton .., fun time htime last hlast => ?_⟩
    obtain ⟨entry, hentry, rfl⟩ := List.mem_map.mp htime
    exact List.mem_singleton.mp hlast ▸ (h.began entry hentry).since_lt

/-- Every entry began at its time after a message was put among the entries. -/
theorem began_place (h : Shows info requests answers q entries) (m : Message) {entry : Entry}
    (hentry : entry ∈ place info entries requests.length m) :
    Began info (requests ++ [.add m]) (answers ++ [.added (q.add m).1]) entry := by
  obtain ⟨hsingle, rfl, hlength, hshown, -, hbegan, -⟩ := h
  rcases mem_place hentry with ⟨hold, hother⟩ | ⟨old, hold, hsame, rfl⟩ | ⟨rfl, hnone⟩
  · refine (hbegan entry hold).concat hlength fun n hn hsame => ?_
    cases hn
    exact absurd hsame hother
  · refine ((hbegan old hold).concat hlength fun n _ _ => ?_).withMessage hsame
    have hmem : old.message ∈ q.browse := hshown ▸ List.mem_map_of_mem hold
    exact (hsingle.add_replaced hmem hsame).imp fun _ => congrArg Answer.added
  · rw [hsingle.add_added (hshown ▸ List.forall_mem_map.mpr hnone)]
    exact .last hlength m

/-- Every entry shows the last message of its value after a message was put among the entries. -/
theorem latest_place (h : Shows info requests answers q entries) (m : Message) {entry : Entry}
    (hentry : entry ∈ place info entries requests.length m) {value : String}
    (hvalue : info.lastValueOf entry.message = some value) :
    lastWith info (requests ++ [.add m]) value = some entry.message := by
  rw [lastWith_add]
  rcases mem_place hentry with ⟨hold, hother⟩ | ⟨old, hold, hsame, rfl⟩ | ⟨rfl, hnone⟩
  · rw [if_neg fun hm => hother ⟨value, hm, hvalue⟩]
    exact h.latest entry hold value hvalue
  · exact if_pos hvalue
  · exact if_pos hvalue

/-- A message is put among the entries. -/
theorem add (h : Shows info requests answers q entries) (m : Message) :
    Shows info (requests ++ [.add m]) (answers ++ [.added (q.add m).1]) (q.add m).2
      (place info entries requests.length m) where
  single := show (q.serve (.add m)).2.Single from h.single.serve (by simp)
  info_eq := (h.single.laid.info_serve (.add m)).trans h.info_eq
  length_eq := by simp [h.length_eq]
  browse_eq := h.info_eq ▸ h.single.browse_add h.browse_eq _ m
  sorted := h.sorted_place m
  began _ hentry := h.began_place m hentry
  latest _ hentry _ hvalue := h.latest_place m hentry hvalue

/-- Entries remain or are taken out. -/
theorem serve_of_not_add (h : Shows info requests answers q entries) {request : Request}
    (hadd : ∀ m, request ≠ .add m) (hcancel : ∀ id, request ≠ .cancel id) :
    Shows info (requests ++ [request]) (answers ++ [(q.serve request).1]) (q.serve request).2
      (request.remaining Entry.message entries) := by
  have hsub := request.remaining_sublist Entry.message entries
  have hcame : request.came = [] := by
    cases request with
    | add m => exact absurd rfl (hadd m)
    | _ => rfl
  refine ⟨h.single.serve hcancel, ?_, by simp [h.length_eq], ?_, h.sorted.sublist hsub,
    fun entry hentry => ?_, fun entry hentry value hvalue => ?_⟩
  · rw [h.single.laid.info_serve, h.info_eq]
  · rw [h.single.laid.browse_serve hadd hcancel, h.browse_eq, Request.map_remaining]
  · exact (h.began entry (hsub.subset hentry)).concat h.length_eq fun m hm => absurd hm (hadd m)
  · rw [lastWith_of_came info requests hcame]
    exact h.latest entry (hsub.subset hentry) value hvalue

/-- A queue and its entries after one more request. -/
theorem serve (h : Shows info requests answers q entries) {request : Request}
    (hcancel : ∀ id, request ≠ .cancel id) :
    Shows info (requests ++ [request]) (answers ++ [(q.serve request).1]) (q.serve request).2
      (follow info entries (request, requests.length)) := by
  cases request with
  | add m => exact h.add m
  | _ => exact h.serve_of_not_add (by simp) hcancel

end Shows

/-! ### Any history -/

theorem entriesAfter_concat (info : QueueInfo) (requests : List Request) (request : Request) :
    entriesAfter info (requests ++ [request]) =
      follow info (entriesAfter info requests) (request, requests.length) := by
  simp [entriesAfter, List.zipIdx_append]

theorem shows_serveAll {info : QueueInfo} {requests : List Request}
    (hcancel : ∀ id, .cancel id ∉ requests) :
    Shows info requests (Queue.serveAll Queue.serve (.empty info) requests).1
      (Queue.serveAll Queue.serve (.empty info) requests).2 (entriesAfter info requests) := by
  -- Times count from the start, so that requests come one by one at the end.
  induction requests using List.reverseRecOn with
  | nil =>
      refine ⟨single_empty info, rfl, rfl, rfl, .nil, ?_, ?_⟩ <;>
        exact fun entry hentry => absurd hentry List.not_mem_nil
  | append_singleton requests request ih =>
      rw [serveAll_concat, entriesAfter_concat]
      refine (ih fun id hid => hcancel id (List.mem_append_left _ hid)).serve fun id hid => ?_
      exact hcancel id (List.mem_append_right _ (hid ▸ .head _))

/-- **A queue shows the list of entries**: over any history without cancelled deliveries, a message
is put behind the entries or in place of the one with its value, and handing out and sweeping take
entries out. So those that are pending are shown in the order of their entries, no two of them
with one value; each is the last message that came with its value, and stands where its entry was
first put. -/
theorem browse_eq_entriesAfter {info : QueueInfo} {requests : List Request}
    (hcancel : ∀ id, .cancel id ∉ requests) :
    let run := Queue.serveAll Queue.serve (.empty info) requests
    let entries := entriesAfter info requests
    run.2.browse = entries.map Entry.message ∧
      (run.2.pending.values.map Reference.message).Perm run.2.browse ∧
      run.2.browse.Pairwise (fun m n => ¬info.Replaces m n) ∧
      (∀ m ∈ run.2.browse, ∀ value, info.lastValueOf m = some value →
        lastWith info requests value = some m) ∧
      entries.Pairwise (·.since < ·.since) ∧
      ∀ entry ∈ entries, Began info requests run.1 entry := by
  intro run entries
  have h : Shows info requests run.1 run.2 entries := shows_serveAll hcancel
  refine ⟨h.browse_eq, h.single.laid.values_perm.map _, h.info_eq ▸ h.single.lone, ?_, h.sorted,
    h.began⟩
  intro m hm value hvalue
  rw [h.browse_eq] at hm
  obtain ⟨entry, hentry, rfl⟩ := List.mem_map.mp hm
  exact h.latest entry hentry value hvalue

/-- A note without a symbol. -/
def note (number : BitVec 128) : Message :=
  { quote number with properties := .ofList [] }

/-- A day of quotes: the second quote takes the place of the first one before a note, and is handed
out; the next quote stands behind the note, keeps its place when a later one comes, and the sweep
takes it out before the last one comes behind everything. -/
def quotedDay : List Request :=
  [.add (quote 1), .add (note 7), .add (quote 2), .poll .epoch, .add (quote 3), .add (note 8),
    .add (quote 4 (some (.atMillis 700 (by decide)))), .acknowledge ⟨2⟩,
    .expire (.atMillis 900 (by decide)), .add (note 7), .add (quote 5)]

theorem browse_eq_entriesAfter_quotedDay :
    (∀ id, .cancel id ∉ quotedDay) ∧
      (let run := Queue.serveAll Queue.serve (.empty quotes) quotedDay
      let entries := entriesAfter quotes quotedDay
      run.2.browse = entries.map Entry.message ∧
        (run.2.pending.values.map Reference.message).Perm run.2.browse ∧
        run.2.browse.Pairwise (fun m n => ¬quotes.Replaces m n) ∧
        (∀ m ∈ run.2.browse, ∀ value, quotes.lastValueOf m = some value →
          lastWith quotes quotedDay value = some m) ∧
        entries.Pairwise (·.since < ·.since) ∧
        ∀ entry ∈ entries, Began quotes quotedDay run.1 entry) ∧
      entriesAfter quotes quotedDay = [⟨1, note 7⟩, ⟨5, note 8⟩, ⟨9, note 7⟩, ⟨10, quote 5⟩] := by
  have hcancel : ∀ id, .cancel id ∉ quotedDay := by simp [quotedDay]
  exact ⟨hcancel, browse_eq_entriesAfter hcancel, by decide +kernel⟩

end Queue

end Courier
