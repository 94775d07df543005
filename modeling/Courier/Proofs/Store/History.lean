import Mathlib.Data.List.Forall2
import Courier.Proofs.Store.Compaction

/-!
# Histories of a Log

A log in memory is compared with the plain list of the messages that were appended to it and not
removed afterwards. A record outlives everything but a removal of its identifier, and compaction
is meant to be invisible.

The two agree as long as no identifier is removed and a message with that identifier appended
later, to stay. The note of the removal hides such a message as well, until the log is compacted,
so that a removal of an identifier that is not stored is not without effect, and compaction shows.

## Main definitions

* `LogAction`, `MessageLog.performAll`, `MessageLog.loadAfter`: histories of a log.
* `LogAction.survivors`: the messages that a history appends and does not remove afterwards.
* `LogAction.visible`: the same list as the log loads it.
* `MessageLog.Refines`: a log with a given history behaves like the list.

## Main results

* `MessageLog.loadAfter_eq`: what a log loads after a history.
* `MessageLog.refines_iff`: the histories with which a log behaves like the list.
-/

namespace Courier

/-! ### Histories -/

/-- An operation on a log. -/
inductive LogAction where
  /-- Appends a message. -/
  | append (m : Message)
  /-- Removes the messages with an identifier. -/
  | remove (id : MessageId)
  /-- Writes the log anew. -/
  | compact
  deriving DecidableEq, Repr

namespace LogAction

/-- The messages that are appended and not removed afterwards, in order. -/
def survivors : List LogAction → List Message
  | [] => []
  | .append m :: rest => if .remove m.id ∈ rest then survivors rest else m :: survivors rest
  | .remove _ :: rest => survivors rest
  | .compact :: rest => survivors rest

/-- The messages that are appended and loaded at the end, if the notes of some removals stand in
the log at the start. -/
def visible (gone : List MessageId) : List LogAction → List Message
  | [] => []
  | .append m :: rest =>
    if m.id ∈ gone ∨ .remove m.id ∈ rest then visible gone rest else m :: visible gone rest
  | .remove id :: rest => visible (id :: gone) rest
  | .compact :: rest => visible [] rest

/-- The messages of a list that a history does not remove. -/
def outliving (actions : List LogAction) (messages : List Message) : List Message :=
  messages.filter fun m => .remove m.id ∉ actions

/-- The operations other than compaction. -/
def withoutCompact (actions : List LogAction) : List LogAction :=
  actions.filter (· ≠ .compact)

/-- No message that outlives the history was removed before it was appended. -/
def NeverRevives (actions : List LogAction) : Prop :=
  ∀ before m after, actions = before ++ .append m :: after →
    .remove m.id ∉ after → .remove m.id ∉ before

/-- The same for a history that starts with the notes of some removals. -/
def NeverRevivesFrom (gone : List MessageId) (actions : List LogAction) : Prop :=
  ∀ before m after, actions = before ++ .append m :: after →
    .remove m.id ∉ after → m.id ∉ gone ∧ .remove m.id ∉ before

@[simp] theorem outliving_nil (messages : List Message) : outliving [] messages = messages :=
  List.filter_eq_self.mpr fun _ _ => decide_eq_true List.not_mem_nil

@[simp] theorem outliving_compact (rest : List LogAction) (messages : List Message) :
    outliving (.compact :: rest) messages = outliving rest messages :=
  List.filter_congr fun _ _ => by simp

theorem outliving_map_asRead (actions : List LogAction) (messages : List Message) :
    outliving actions (messages.map Message.asRead) =
      (outliving actions messages).map Message.asRead :=
  List.filter_map

/-- What is visible depends only on which removals are noted. -/
theorem visible_congr {gone gone' : List MessageId} (h : ∀ id, id ∈ gone ↔ id ∈ gone')
    (actions : List LogAction) : visible gone actions = visible gone' actions := by
  induction actions generalizing gone gone' with
  | nil => rfl
  | cons action rest ih =>
      cases action with
      | append m => simp only [visible, h, ih h]
      | remove id => exact ih fun other => by simp only [List.mem_cons, h]
      | compact => rfl

/-! ### The two lists compared -/

/-- What survives was appended. -/
theorem append_mem_of_mem_survivors {actions : List LogAction} {m : Message}
    (h : m ∈ survivors actions) : .append m ∈ actions := by
  induction actions with
  | nil => cases h
  | cons action rest ih =>
      cases action with
      | append n =>
          rw [survivors] at h
          split at h
          · exact .tail _ (ih h)
          · rcases List.mem_cons.mp h with rfl | h
            · exact .head _
            · exact .tail _ (ih h)
      | remove id => exact .tail _ (ih h)
      | compact => exact .tail _ (ih h)

/-- Later operations remove survivors and add their own. -/
theorem survivors_append (before after : List LogAction) :
    survivors (before ++ after) = outliving after (survivors before) ++ survivors after := by
  induction before with
  | nil => rfl
  | cons action before ih =>
      cases action with
      | append m =>
          simp only [List.cons_append, survivors, List.mem_append, ih, outliving]
          by_cases hbefore : .remove m.id ∈ before <;> by_cases hafter : .remove m.id ∈ after <;>
            simp [hbefore, hafter]
      | remove id => exact ih
      | compact => exact ih

/-- A removal takes away nothing but messages with its identifier. -/
theorem outliving_remove {id : MessageId} {messages : List Message}
    (h : ∀ m ∈ messages, m.id ≠ id) (after : List LogAction) :
    outliving (.remove id :: after) messages = outliving after messages :=
  List.filter_congr fun m hm => by simp [h m hm]

@[simp] theorem survivors_withoutCompact (actions : List LogAction) :
    survivors (withoutCompact actions) = survivors actions := by
  induction actions with
  | nil => rfl
  | cons action rest ih =>
      cases action with
      | append m => simp_all [withoutCompact, survivors]
      | remove id => exact ih
      | compact => exact ih

theorem visible_sublist (gone : List MessageId) (actions : List LogAction) :
    (visible gone actions).Sublist (survivors actions) := by
  induction actions generalizing gone with
  | nil => exact .slnil
  | cons action rest ih =>
      cases action with
      | append m =>
          rw [visible, survivors]
          by_cases hlater : .remove m.id ∈ rest
          · simpa [hlater] using ih gone
          · by_cases hgone : m.id ∈ gone
            · simpa [hgone, hlater] using (ih gone).cons m
            · simpa [hgone, hlater] using ih gone
      | remove id => exact ih (id :: gone)
      | compact => exact ih []

theorem neverRevivesFrom_append {gone : List MessageId} {m : Message} {rest : List LogAction} :
    NeverRevivesFrom gone (.append m :: rest) ↔
      (.remove m.id ∉ rest → m.id ∉ gone) ∧ NeverRevivesFrom gone rest := by
  constructor
  · intro h
    refine ⟨fun hlater => (h [] m rest rfl hlater).1, fun before m' after heq hafter => ?_⟩
    obtain ⟨hgone, hbefore⟩ := h (.append m :: before) m' after (by rw [heq]; rfl) hafter
    exact ⟨hgone, fun hmem => hbefore (.tail _ hmem)⟩
  · rintro ⟨hfirst, hrest⟩ before m' after heq hafter
    cases before with
    | nil =>
        cases heq
        exact ⟨hfirst hafter, List.not_mem_nil⟩
    | cons action before =>
        cases heq
        obtain ⟨hgone, hbefore⟩ := hrest before m' after rfl hafter
        exact ⟨hgone, by simpa using hbefore⟩

theorem neverRevivesFrom_remove {gone : List MessageId} {id : MessageId}
    {rest : List LogAction} :
    NeverRevivesFrom gone (.remove id :: rest) ↔ NeverRevivesFrom (id :: gone) rest := by
  constructor
  · intro h before m after heq hafter
    obtain ⟨hgone, hbefore⟩ := h (.remove id :: before) m after (by rw [heq]; rfl) hafter
    simp only [List.mem_cons, not_or, LogAction.remove.injEq] at hbefore
    exact ⟨by simp [hgone, hbefore.1], hbefore.2⟩
  · intro h before m after heq hafter
    cases before with
    | nil => cases heq
    | cons action before =>
        cases heq
        obtain ⟨hgone, hbefore⟩ := h before m after rfl hafter
        simp only [List.mem_cons, not_or] at hgone
        exact ⟨hgone.2, by simp [hgone.1, hbefore]⟩

theorem neverRevivesFrom_nil_iff {actions : List LogAction} :
    NeverRevivesFrom [] actions ↔ NeverRevives actions := by
  simp [NeverRevivesFrom, NeverRevives]

/-- A history that revives nothing loads the survivors, wherever the log is compacted. -/
theorem visible_eq_survivors {gone : List MessageId} {actions : List LogAction}
    (h : NeverRevivesFrom gone actions) : visible gone actions = survivors actions := by
  induction actions generalizing gone with
  | nil => rfl
  | cons action rest ih =>
      cases action with
      | append m =>
          obtain ⟨hfirst, hrest⟩ := neverRevivesFrom_append.mp h
          rw [visible, survivors, ih hrest]
          by_cases hlater : .remove m.id ∈ rest
          · simp [hlater]
          · simp [hlater, hfirst hlater]
      | remove id => exact ih (neverRevivesFrom_remove.mp h)
      | compact =>
          refine ih fun before m after heq hafter => ⟨List.not_mem_nil, fun hmem => ?_⟩
          exact (h (.compact :: before) m after (by rw [heq]; rfl) hafter).2 (.tail _ hmem)

/-- A history without compaction that loads the survivors revives nothing. -/
theorem neverRevivesFrom_of_visible {gone : List MessageId} {actions : List LogAction}
    (hfree : .compact ∉ actions) (h : visible gone actions = survivors actions) :
    NeverRevivesFrom gone actions := by
  induction actions generalizing gone with
  | nil => simp [NeverRevivesFrom]
  | cons action rest ih =>
      have hrest : .compact ∉ rest := fun hmem => hfree (.tail _ hmem)
      cases action with
      | append m =>
          rw [visible, survivors] at h
          by_cases hlater : .remove m.id ∈ rest
          · simp only [hlater, or_true, if_true] at h
            exact neverRevivesFrom_append.mpr ⟨fun hnot => absurd hlater hnot, ih hrest h⟩
          · by_cases hgone : m.id ∈ gone
            · have hshort := (visible_sublist gone rest).length_le
              simp only [hgone, hlater, or_false, if_true, if_false] at h
              rw [h, List.length_cons] at hshort
              omega
            · simp only [hgone, hlater, or_self, if_false, List.cons.injEq, true_and] at h
              exact neverRevivesFrom_append.mpr ⟨fun _ => hgone, ih hrest h⟩
      | remove id => exact neverRevivesFrom_remove.mpr (ih hrest h)
      | compact => exact absurd (.head _) hfree

theorem mem_withoutCompact {action : LogAction} {actions : List LogAction} :
    action ∈ withoutCompact actions ↔ action ∈ actions ∧ action ≠ .compact := by
  simp [withoutCompact]

/-- Whether a history revives a message does not depend on where the log is compacted. -/
theorem neverRevives_withoutCompact {actions : List LogAction} :
    NeverRevives (withoutCompact actions) ↔ NeverRevives actions := by
  constructor
  · rintro h before m after rfl hafter hbefore
    refine h (withoutCompact before) m (withoutCompact after) (by simp [withoutCompact]) ?_ ?_
    · simpa [mem_withoutCompact] using hafter
    · simpa [mem_withoutCompact] using hbefore
  · intro h before m after heq hafter hbefore
    obtain ⟨first, second, rfl, rfl, hsecond⟩ := List.filter_eq_append_iff.mp heq
    obtain ⟨between, last, rfl, -, -, rfl⟩ := List.filter_eq_cons_iff.mp hsecond
    refine h (first ++ between) m last (by simp) ?_ ?_
    · simpa using hafter
    · exact List.mem_append_left _ (List.mem_filter.mp hbefore).1

/-- A removal of an identifier that is not stored can be left out of a history that revives
nothing. -/
theorem NeverRevives.of_remove {before after : List LogAction} {id : MessageId}
    (h : NeverRevives (before ++ .remove id :: after))
    (hunstored : ∀ m ∈ survivors before, m.id ≠ id) : NeverRevives (before ++ after) := by
  intro start m last heq hlast hstart
  rcases List.append_eq_append_iff.mp heq with ⟨rest, rfl, hrest⟩ | ⟨rest, rfl, hrest⟩
  · refine h (before ++ .remove id :: rest) m last (by simp [hrest]) hlast ?_
    rcases List.mem_append.mp hstart with hmem | hmem
    · exact List.mem_append_left _ hmem
    · exact List.mem_append_right _ (.tail _ hmem)
  · rcases List.cons_eq_append_iff.mp hrest with ⟨rfl, hafter⟩ | ⟨rest', rfl, rfl⟩
    · refine h (start ++ [.remove id]) m last (by simp [hafter]) hlast ?_
      exact List.mem_append_left _ hstart
    · have hlater : .remove m.id ∉ rest' := fun hmem => hlast (List.mem_append_left _ hmem)
      have hne : m.id ≠ id := hunstored m (by
        simp [survivors_append, survivors, hlater])
      refine h start m (rest' ++ .remove id :: after) (by simp) ?_ hstart
      simpa [hne] using hlast

end LogAction

namespace MessageLog

open LogAction

/-- The log after an operation. -/
def perform (s : MessageLog) : LogAction → Except WireError MessageLog
  | .append m => s.append m
  | .remove id => .ok (s.remove id)
  | .compact => s.compact

/-- The log after some operations, one after another. -/
def performAll (s : MessageLog) (actions : List LogAction) : Except WireError MessageLog :=
  actions.foldlM perform s

/-- What is loaded from a log that was empty before some operations. -/
def loadAfter (actions : List LogAction) : Except WireError (List Message) :=
  performAll {} actions >>= load

/-- Every message that a history appends can be read back, has its times in whole milliseconds,
and is not too large. -/
def Appendable (actions : List LogAction) : Prop :=
  ∀ m, .append m ∈ actions → m.Readable ∧ m.TimesWhole ∧ ∃ record, m.toRecord = .ok record

/-- The messages that are not hidden after some operations are those of before that are not
removed, and those that became visible. -/
theorem performAll_holds {s : MessageLog} {messages : List Message} {actions : List LogAction}
    (h : s.Holds messages) (hactions : Appendable actions) :
    ∃ s' messages', performAll s actions = .ok s' ∧ s'.Holds messages' ∧
      (s'.unhidden messages').map Message.asRead =
        (outliving actions (s.unhidden messages) ++ visible s.removed actions).map
          Message.asRead := by
  induction actions generalizing s messages with
  | nil => exact ⟨s, messages, rfl, h, by rw [outliving_nil, visible, List.append_nil]⟩
  | cons action rest ih =>
      have hrest : Appendable rest := fun m hm => hactions m (.tail _ hm)
      cases action with
      | append m =>
          obtain ⟨hm, -, record, hw⟩ := hactions m (.head _)
          obtain ⟨s₁, happend, hholds, hremoved⟩ := h.append hm hw
          obtain ⟨s', messages', hrun, hholds', heq⟩ := ih hholds hrest
          refine ⟨s', messages', ?_, hholds', heq.trans (congrArg _ ?_)⟩
          · rw [performAll, List.foldlM_cons, perform, happend]
            exact hrun
          · simp only [unhidden, outliving, visible, hremoved, List.filter_append,
              List.filter_cons, List.filter_nil, List.mem_cons, reduceCtorEq, false_or]
            by_cases hgone : m.id ∈ s.removed <;> by_cases hlater : .remove m.id ∈ rest <;>
              simp [hgone, hlater]
      | remove id =>
          obtain ⟨s', messages', hrun, hholds', heq⟩ := ih (h.remove id) hrest
          refine ⟨s', messages', ?_, hholds', heq.trans (congrArg _ ?_)⟩
          · rw [performAll, List.foldlM_cons, perform]
            exact hrun
          · have hgone : ∀ other, other ∈ (s.remove id).removed ↔ other ∈ id :: s.removed :=
              fun other => by rw [mem_removed_remove, List.mem_cons]
            rw [visible, visible_congr hgone]
            congr 1
            simp only [unhidden, outliving, List.filter_filter]
            refine List.filter_congr fun m _ => ?_
            have := mem_removed_remove s id m.id
            grind
      | compact =>
          obtain ⟨s₁, hcompact, hholds, hremoved⟩ := h.compact
          obtain ⟨s', messages', hrun, hholds', heq⟩ := ih hholds hrest
          refine ⟨s', messages', ?_, hholds', heq.trans ?_⟩
          · rw [performAll, List.foldlM_cons, perform, hcompact]
            exact hrun
          · have hall : s₁.unhidden ((s.unhidden messages).map Message.asRead) =
                (s.unhidden messages).map Message.asRead := by
              rw [unhidden, hremoved]
              exact List.filter_eq_self.mpr fun _ _ => rfl
            rw [hall, hremoved, visible, outliving_compact, outliving_map_asRead]
            simp only [List.map_append, List.map_map, Function.comp_def, Message.asRead_asRead]

/-- **What a log loads after a history**: the operations do not fail, and the visible messages
are loaded in the order in which they were appended. -/
theorem loadAfter_eq {actions : List LogAction} (hactions : Appendable actions) :
    loadAfter actions = .ok ((visible [] actions).map Message.asRead) := by
  obtain ⟨s, messages, hrun, hholds, heq⟩ := performAll_holds .empty hactions
  rw [loadAfter, hrun]
  exact hholds.load_eq.trans (congrArg Except.ok heq)

/-- What the list of messages promises of a history. -/
structure Refines (actions : List LogAction) : Prop where
  /-- The messages are loaded that were appended and not removed afterwards. -/
  loads : ∃ loaded, loadAfter actions = .ok loaded ∧
    List.Forall₂ (fun l m => l.sameContent m) loaded (survivors actions)
  /-- A removal of an identifier that is not stored has no effect. -/
  remove_unstored : ∀ before id after, actions = before ++ .remove id :: after →
    (∀ m ∈ survivors before, m.id ≠ id) → loadAfter (before ++ after) = loadAfter actions
  /-- Compaction does not change what is loaded. -/
  compact_unseen : ∀ others, withoutCompact others = withoutCompact actions →
    loadAfter others = loadAfter actions

theorem Appendable.of_withoutCompact_eq {actions others : List LogAction}
    (hactions : Appendable actions) (h : withoutCompact others = withoutCompact actions) :
    Appendable others := by
  intro m hm
  have hmem : .append m ∈ withoutCompact others := mem_withoutCompact.mpr ⟨hm, nofun⟩
  rw [h] at hmem
  exact hactions m (mem_withoutCompact.mp hmem).1

theorem loadAfter_eq_of_neverRevives {actions : List LogAction} (hactions : Appendable actions)
    (h : NeverRevives actions) :
    loadAfter actions = .ok ((survivors actions).map Message.asRead) := by
  rw [loadAfter_eq hactions, visible_eq_survivors (neverRevivesFrom_nil_iff.mpr h)]

theorem forall₂_asRead {messages : List Message} (h : ∀ m ∈ messages, m.TimesWhole) :
    List.Forall₂ (fun l m => l.sameContent m) (messages.map Message.asRead) messages := by
  induction messages with
  | nil => exact .nil
  | cons m messages ih =>
      exact .cons (h m (.head _)).sameContent_asRead (ih fun n hn => h n (.tail _ hn))

/-- A history that appends a message, to stay, after a removal of its identifier shows the
difference: without compaction the message is hidden. -/
theorem neverRevives_of_refines {actions : List LogAction} (hactions : Appendable actions)
    (h : Refines actions) : NeverRevives actions := by
  obtain ⟨loaded, hloaded, hsame⟩ := h.loads
  have hunseen := h.compact_unseen (withoutCompact actions) (by simp [withoutCompact])
  rw [loadAfter_eq (hactions.of_withoutCompact_eq (by simp [withoutCompact])), hloaded,
    Except.ok.injEq] at hunseen
  have hlength := hsame.length_eq
  rw [← hunseen, List.length_map, ← survivors_withoutCompact] at hlength
  have hvisible := (visible_sublist [] (withoutCompact actions)).eq_of_length hlength
  refine neverRevives_withoutCompact.mp (neverRevivesFrom_nil_iff.mp ?_)
  exact neverRevivesFrom_of_visible (by simp [mem_withoutCompact]) hvisible

theorem refines_of_neverRevives {actions : List LogAction} (hactions : Appendable actions)
    (h : NeverRevives actions) : Refines actions := by
  have hload := loadAfter_eq_of_neverRevives hactions h
  have htimes : ∀ m ∈ survivors actions, m.TimesWhole := fun m hm =>
    (hactions m (append_mem_of_mem_survivors hm)).2.1
  refine ⟨⟨_, hload, forall₂_asRead htimes⟩, ?_, ?_⟩
  · rintro before id after rfl hunstored
    have hfewer : Appendable (before ++ after) := by
      intro m hm
      refine hactions m ?_
      rcases List.mem_append.mp hm with hm | hm
      · exact List.mem_append_left _ hm
      · exact List.mem_append_right _ (.tail _ hm)
    rw [hload, loadAfter_eq_of_neverRevives hfewer (h.of_remove hunstored), survivors_append,
      survivors_append, outliving_remove hunstored]
    rfl
  · intro others hothers
    have hsame : survivors others = survivors actions := by
      rw [← survivors_withoutCompact others, hothers, survivors_withoutCompact]
    have hrevives : NeverRevives others := by
      rw [← neverRevives_withoutCompact, hothers]
      exact neverRevives_withoutCompact.mpr h
    rw [hload, loadAfter_eq_of_neverRevives (hactions.of_withoutCompact_eq hothers) hrevives,
      hsame]

/-- **The log behaves like the list of messages** with exactly those histories that append no
message, to stay, whose identifier was removed before. -/
theorem refines_iff {actions : List LogAction} (hactions : Appendable actions) :
    Refines actions ↔ NeverRevives actions :=
  ⟨neverRevives_of_refines hactions, refines_of_neverRevives hactions⟩

/-- A durable message with an empty body. -/
def sample : Message where
  id := ⟨1⟩
  address := ⟨"stock", by decide⟩
  durable := true
  timestamp := .epoch

theorem appendable_sample {actions : List LogAction} (h : ∀ m, .append m ∈ actions → m = sample) :
    Appendable actions := by
  intro m hm
  obtain rfl := h m hm
  exact ⟨⟨by decide, .new⟩, ⟨by decide, by decide⟩, _,
    Record.toRecordAs_eq_ok_iff.mpr ⟨by decide, rfl⟩⟩

/-- A history that removes the message in the end. -/
theorem refines_iff_removed :
    Appendable [.append sample, .compact, .remove sample.id] ∧
      (Refines [.append sample, .compact, .remove sample.id] ↔
        NeverRevives [.append sample, .compact, .remove sample.id]) := by
  have h : Appendable [.append sample, .compact, .remove sample.id] :=
    appendable_sample (by simp)
  exact ⟨h, refines_iff h⟩

/-- A removal of an identifier that is not stored hides a message that is appended later. -/
theorem remove_append_not_refines :
    Appendable [.remove sample.id, .append sample] ∧
      loadAfter [.remove sample.id, .append sample] = .ok [] ∧
      ¬Refines [.remove sample.id, .append sample] := by
  have h : Appendable [.remove sample.id, .append sample] := appendable_sample (by simp)
  refine ⟨h, loadAfter_eq h, fun hrefines => ?_⟩
  exact neverRevives_of_refines h hrefines [.remove sample.id] sample [] rfl (by simp) (by simp)

end MessageLog

end Courier
