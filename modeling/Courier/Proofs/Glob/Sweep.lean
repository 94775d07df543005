import Courier.Glob

/-!
# A Sweep over Marked Positions

Instead of the remainders that a pattern can leave of a list of items, one can keep a mark for each
position in the list: the positions that the parts read so far can reach. There is one position more
than there are items. A literal and a single-item wildcard move marks on by one position, a run
spreads the first mark over all positions behind it, and the sweep can stop as soon as no position
is marked.

The marked positions and the remainders of the matcher are the same thing: the remainders behind
the marks, in the order of the marks, are the list that the matcher keeps, part after part.

## Main definitions

* `Glob.Part.mark`: what one part makes of the marks.
* `Glob.sweep`: whether a pattern reaches the last position.
* `Glob.reached`: the positions that a pattern reaches, when the sweep does not stop early.
* `Glob.marked`: the remainders behind the marks.

## Main results

* `Glob.marked_mark`: a part changes marks as it changes remainders.
* `Glob.matches_eq_sweep`: the sweep decides as the matcher does.
* `Glob.matches_eq_getLastD_reached`: so does the last position that is reached.
-/

namespace Courier.Glob

variable {α : Type} {items : List α} {marks : List Bool}

/-- Marks every position from the first marked one on. -/
def spread : Bool → List Bool → List Bool
  | _, [] => []
  | seen, here :: marks => (seen || here) :: spread (seen || here) marks

/-- The positions that are reached by one part more. -/
def Part.mark [DecidableEq α] (items : List α) (marks : List Bool) : Part α → List Bool
  | .literal a => false :: marks.zipWith (fun here item => here && decide (a = item)) items
  | .single => false :: marks.dropLast
  | .run => spread false marks

/-- Whether the parts reach the last position from those that are marked. -/
def sweep [DecidableEq α] (items : List α) : List (Part α) → List Bool → Bool
  | [], marks => marks.getLastD false
  | part :: parts, marks =>
    let next := part.mark items marks
    if next.contains true then sweep items parts next else false

/-- The positions that the parts reach from those that are marked. -/
def reached [DecidableEq α] (items : List α) (parts : List (Part α)) (marks : List Bool) :
    List Bool :=
  parts.foldl (fun marks part => part.mark items marks) marks

/-- The remainders behind the marked positions. -/
def marked : List α → List Bool → List (List α)
  | _, [] => []
  | items, mark :: marks => (if mark then [items] else []) ++ marked items.tail marks

/-! ### One part -/

/-- A part that takes one item moves a mark on to the position behind an item that it takes. -/
theorem marked_zipWith {takes : α → Bool} {leave : List α → List (List α)} (hnil : leave [] = [])
    (hcons : ∀ a rest, leave (a :: rest) = if takes a then [rest] else [])
    (h : marks.length = items.length + 1) :
    marked items.tail (marks.zipWith (fun here item => here && takes item) items) =
      (marked items marks).flatMap leave := by
  induction items generalizing marks with
  | nil =>
      obtain ⟨mark, rfl⟩ := List.length_eq_one_iff.mp h
      cases mark <;> simp [marked, hnil]
  | cons a rest ih =>
      obtain ⟨mark, marks, rfl⟩ := List.exists_cons_of_length_eq_add_one h
      have hlength : marks.length = rest.length + 1 := by simpa using h
      cases mark <;> simp [marked, hcons, ih hlength]

theorem zipWith_eq_dropLast (h : marks.length = items.length + 1) :
    marks.zipWith (fun here _ => here && true) items = marks.dropLast := by
  induction items generalizing marks with
  | nil =>
      obtain ⟨mark, rfl⟩ := List.length_eq_one_iff.mp h
      rfl
  | cons a rest ih =>
      obtain ⟨mark, marks, rfl⟩ := List.exists_cons_of_length_eq_add_one h
      obtain ⟨next, more, rfl⟩ := List.exists_cons_of_length_eq_add_one (by simpa using h)
      rw [List.zipWith_cons_cons, ih (by simpa using h), Bool.and_true, List.dropLast_cons_cons]

theorem marked_spread_true (h : marks.length = items.length + 1) :
    marked items (spread true marks) = suffixes items := by
  induction items generalizing marks with
  | nil =>
      obtain ⟨mark, rfl⟩ := List.length_eq_one_iff.mp h
      rfl
  | cons a rest ih =>
      obtain ⟨mark, marks, rfl⟩ := List.exists_cons_of_length_eq_add_one h
      rw [spread, marked, Bool.true_or, List.tail_cons, ih (by simpa using h)]
      rfl

variable [DecidableEq α]

/-- The first mark is the longest remainder, and a run leaves all suffixes of it. -/
theorem marked_spread_false (h : marks.length = items.length + 1) :
    marked items (spread false marks) = Part.run.advance (marked items marks) := by
  induction items generalizing marks with
  | nil =>
      obtain ⟨mark, rfl⟩ := List.length_eq_one_iff.mp h
      cases mark <;> rfl
  | cons a rest ih =>
      obtain ⟨mark, marks, rfl⟩ := List.exists_cons_of_length_eq_add_one h
      have hlength : marks.length = rest.length + 1 := by simpa using h
      rw [spread, marked, marked, Bool.false_or, List.tail_cons]
      cases mark with
      | false => exact ih hlength
      | true =>
          rw [marked_spread_true hlength]
          rfl

/-- **A part changes marks as it changes remainders.** -/
theorem marked_mark (h : marks.length = items.length + 1) (part : Part α) :
    marked items (part.mark items marks) = part.advance (marked items marks) := by
  cases part with
  | literal a => exact marked_zipWith rfl (fun b rest => by simp [Part.remainders]) h
  | single =>
      rw [Part.mark, ← zipWith_eq_dropLast h]
      exact marked_zipWith rfl (fun b rest => by simp [Part.remainders]) h
  | run => exact marked_spread_false h

/-! ### The sweep -/

theorem length_mark (h : marks.length = items.length + 1) (part : Part α) :
    (part.mark items marks).length = items.length + 1 := by
  have hspread : ∀ (seen : Bool) (marks : List Bool),
      (spread seen marks).length = marks.length := by
    intro seen marks
    induction marks generalizing seen with
    | nil => rfl
    | cons mark marks ih => rw [spread, List.length_cons, ih, List.length_cons]
  cases part with
  | literal a => simp [Part.mark, h]
  | single => simp [Part.mark, h]
  | run => rw [Part.mark, hspread, h]

omit [DecidableEq α] in
theorem contains_true_eq (items : List α) (marks : List Bool) :
    marks.contains true = !(marked items marks).isEmpty := by
  induction marks generalizing items with
  | nil => rfl
  | cons mark marks ih =>
      rw [marked, List.contains_cons, ih items.tail]
      cases mark <;> simp

omit [DecidableEq α] in
theorem getLastD_eq (h : marks.length = items.length + 1) :
    marks.getLastD false = (marked items marks).any List.isEmpty := by
  induction items generalizing marks with
  | nil =>
      obtain ⟨mark, rfl⟩ := List.length_eq_one_iff.mp h
      cases mark <;> rfl
  | cons a rest ih =>
      obtain ⟨mark, marks, rfl⟩ := List.exists_cons_of_length_eq_add_one h
      obtain ⟨next, more, rfl⟩ := List.exists_cons_of_length_eq_add_one (by simpa using h)
      have hlength : (next :: more).length = rest.length + 1 := by simpa using h
      cases mark <;> simpa [marked] using ih hlength

/-- What has no remainder left gets none from the parts behind it. -/
theorem foldl_advance_nil (parts : List (Part α)) :
    parts.foldl (fun remainders part => part.advance remainders) [] = [] := by
  induction parts with
  | nil => rfl
  | cons part parts ih => cases part <;> exact ih

theorem sweep_eq (h : marks.length = items.length + 1) (parts : List (Part α)) :
    sweep items parts marks =
      (parts.foldl (fun remainders part => part.advance remainders) (marked items marks)).any
        List.isEmpty := by
  induction parts generalizing marks with
  | nil => exact getLastD_eq h
  | cons part parts ih =>
      rw [sweep, List.foldl_cons, ← marked_mark h, contains_true_eq items]
      split
      · exact ih (length_mark h part)
      · next hempty =>
          have hnone : marked items (part.mark items marks) = [] := by simpa using hempty
          rw [hnone, foldl_advance_nil]
          rfl

omit [DecidableEq α] in
/-- The first position leaves all items. -/
theorem marked_first (items : List α) (n : Nat) :
    marked items (true :: List.replicate n false) = [items] := by
  have hnone : ∀ (others : List α) (n : Nat), marked others (List.replicate n false) = [] := by
    intro others n
    induction n generalizing others with
    | zero => rfl
    | succ n ih => exact ih others.tail
  rw [marked, hnone]
  rfl

/-- **The sweep decides as the matcher does**, from the first position alone. -/
theorem matches_eq_sweep (parts : List (Part α)) (items : List α) :
    «matches» parts items = sweep items parts (true :: List.replicate items.length false) := by
  rw [sweep_eq (by simp), marked_first]
  rfl

theorem length_reached (h : marks.length = items.length + 1) (parts : List (Part α)) :
    (reached items parts marks).length = items.length + 1 := by
  induction parts generalizing marks with
  | nil => exact h
  | cons part parts ih => exact ih (length_mark h part)

theorem marked_reached (h : marks.length = items.length + 1) (parts : List (Part α)) :
    marked items (reached items parts marks) =
      parts.foldl (fun remainders part => part.advance remainders) (marked items marks) := by
  induction parts generalizing marks with
  | nil => rfl
  | cons part parts ih =>
      rw [List.foldl_cons, ← marked_mark h]
      exact ih (length_mark h part)

/-- **The last position is reached if and only if the matcher says so**, also when the sweep goes
on with no position marked. -/
theorem matches_eq_getLastD_reached (parts : List (Part α)) (items : List α) :
    «matches» parts items =
      (reached items parts (true :: List.replicate items.length false)).getLastD false := by
  have hfirst : (true :: List.replicate items.length false).length = items.length + 1 := by simp
  rw [getLastD_eq (length_reached hfirst parts), marked_reached hfirst, marked_first]
  rfl

end Courier.Glob
