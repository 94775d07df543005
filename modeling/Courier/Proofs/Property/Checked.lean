import Courier.Proofs.Property.Accounting

/-!
# Changes with Checked Differences

A container takes sizes off its count of bytes in three places: where a value is replaced, where
an entry is taken out, and where a key comes again while a container is read. The differences
there are differences of natural numbers, which would hide one below zero. The changes are
therefore stated once more with differences that give no result below zero, and these give the
results of the changes themselves.

## Main definitions

* `Properties.Change`, `Properties.Change.apply`: what can be done to a container.
* `Properties.Change.applyChecked?`: the same with checked differences.

## Main results

* `Properties.agrees_decode`: reading with checked differences, on whatever bytes.
* `Properties.Change.applyChecked?_eq`: no difference is below zero.
-/

namespace Courier

namespace Properties

/-! ### Counting with checked differences -/

/-- The difference of two numbers, if it is not below zero. -/
def checkedSub (n m : Nat) : Option Nat :=
  if m ≤ n then some (n - m) else none

theorem checkedSub_of_le {n m : Nat} (h : m ≤ n) : checkedSub n m = some (n - m) := if_pos h

/-- Sets the value under a key within a change, with a checked difference. -/
def insertEntryChecked? (p : Properties) (key : String) (v : PropertyValue) : Option Properties :=
  match p.stored? key with
  | some old => (checkedSub p.byteSize old.encodedSize).map fun rest =>
      { p.insertEntry key v with byteSize := rest + v.encodedSize }
  | none => some (p.insertEntry key v)

/-- Takes out the entry under a key within a change, with a checked difference. -/
def eraseEntryChecked? (p : Properties) (key : String) : Option Properties :=
  match p.stored? key with
  | some old => (checkedSub p.byteSize (entrySize key old)).map fun rest =>
      { p.eraseEntry key with byteSize := rest }
  | none => some (p.eraseEntry key)

/-- The container with an entry set that was read, with a checked difference. -/
def tallyChecked? (p : Properties) (key : String) (v : PropertyValue) : Option Properties :=
  match p.stored? key with
  | some old => (checkedSub (p.byteSize + entrySize key v) (entrySize key old)).map fun rest =>
      { p.tally key v with byteSize := rest }
  | none => some (p.tally key v)

/-- Reads a number of entries into a container, and gives no container once a difference is below
zero. -/
def decodeEntriesChecked : Nat → Properties → Reader (Option Properties)
  | 0, p => pure (some p)
  | count + 1, p => do
    let e ← decodeEntry
    match p.tallyChecked? e.1 e.2 with
    | some q => decodeEntriesChecked count q
    | none => pure none

/-- Reads a container, and gives none once a difference is below zero. -/
def decodeChecked : Reader (Option Properties) := do
  let marker ← Wire.getUInt8
  if marker = 0 then pure (some {})
  else if marker = 1 then
    let count ← Wire.getLength
    let p ← decodeEntriesChecked count { entries := some .empty }
    pure (p.map recount)
  else Reader.fail (.unknownMarker marker)

section Checked

variable {p : Properties}

theorem Summed.insertEntryChecked?_eq (h : p.Summed) (key : String) (v : PropertyValue) :
    p.insertEntryChecked? key v = some (p.insertEntry key v) := by
  rw [insertEntryChecked?]
  cases hs : p.stored? key with
  | none => rfl
  | some old =>
      have hle : old.encodedSize ≤ p.byteSize := by
        rw [h.byteSize_eq_add hs, entrySize]
        omega
      simp only [checkedSub_of_le hle, Option.map_some, Properties.insertEntry, hs]

theorem Summed.eraseEntryChecked?_eq (h : p.Summed) (key : String) :
    p.eraseEntryChecked? key = some (p.eraseEntry key) := by
  rw [eraseEntryChecked?]
  cases hs : p.stored? key with
  | none => rfl
  | some old =>
      have hle : entrySize key old ≤ p.byteSize := by
        rw [h.byteSize_eq_add hs]
        exact Nat.le_add_right ..
      obtain ⟨_ | d, size, saw, count⟩ := p
      · cases hs
      · simp only [checkedSub_of_le hle, Option.map_some, Properties.eraseEntry, hs]

theorem Summed.tallyChecked?_eq (h : p.Summed) (key : String) (v : PropertyValue) :
    p.tallyChecked? key v = some (p.tally key v) := by
  rw [tallyChecked?]
  cases hs : p.stored? key with
  | none => rfl
  | some old =>
      have hle : entrySize key old ≤ p.byteSize + entrySize key v := by
        rw [h.byteSize_eq_add hs, Nat.add_assoc]
        exact Nat.le_add_right ..
      simp only [checkedSub_of_le hle, Option.map_some, tally, hs]

/-- Checked steps give what the steps give, as long as the bytes are counted right. -/
theorem Summed.foldlM_eq {α : Type} {step : Properties → α → Properties}
    {stepChecked? : Properties → α → Option Properties}
    (hkeeps : ∀ (p : Properties) a, p.Summed → (step p a).Summed)
    (heq : ∀ (p : Properties) a, p.Summed → stepChecked? p a = some (step p a))
    (h : p.Summed) (items : List α) :
    items.foldlM stepChecked? p = some (items.foldl step p) := by
  induction items generalizing p with
  | nil => rfl
  | cons a items ih =>
      rw [List.foldlM_cons, heq p a h]
      exact ih (hkeeps p a h)

end Checked

/-! ### Reading with checked differences -/

/-- The checked reader gives what the reader gives, or fails as it fails, on whatever bytes. -/
def Agrees {α : Type} (checked : Reader (Option α)) (read : Reader α) : Prop :=
  ∀ bytes, checked bytes = ((read bytes).1.map some, (read bytes).2)

namespace Agrees

variable {α β : Type}

theorem pure (a : α) : Agrees (Pure.pure (some a)) (Pure.pure a) := fun _ => rfl

theorem fail (e : WireError) : Agrees (Reader.fail e) (Reader.fail e : Reader α) := fun _ => rfl

/-- After the same first step the two go on alike. -/
theorem bind {next : β → Reader (Option α)} {next' : β → Reader α}
    (h : ∀ b, Agrees (next b) (next' b)) (read : Reader β) :
    Agrees (read >>= next) (read >>= next') := by
  intro bytes
  change Reader.bind read next bytes =
    ((Reader.bind read next' bytes).1.map some, (Reader.bind read next' bytes).2)
  rw [Reader.bind, Reader.bind]
  split
  · exact h _ _
  · rfl

theorem map {checked : Reader (Option α)} {read : Reader α} (h : Agrees checked read)
    (f : α → β) :
    Agrees (checked >>= fun a => Pure.pure (a.map f)) (read >>= fun a => Pure.pure (f a)) := by
  intro bytes
  change Reader.bind checked _ bytes =
    ((Reader.bind read _ bytes).1.map some, (Reader.bind read _ bytes).2)
  rw [Reader.bind, Reader.bind, h bytes]
  rcases read bytes with ⟨_ | a, rest⟩ <;> rfl

end Agrees

theorem Summed.agrees_decodeEntries {p : Properties} (h : p.Summed) (count : Nat) :
    Agrees (decodeEntriesChecked count p) (Properties.decodeEntries count p) := by
  induction count generalizing p with
  | zero => exact .pure p
  | succ count ih =>
      refine Agrees.bind (fun e => ?_) decodeEntry
      rw [h.tallyChecked?_eq]
      refine ih ?_
      rw [h.tally_eq_insertEntry]
      exact h.insertEntry e.1 e.2

theorem agrees_decode : Agrees decodeChecked decode := by
  refine Agrees.bind (fun marker => ?_) Wire.getUInt8
  split
  · exact .pure ({} : Properties)
  · split
    · refine Agrees.bind (fun count => ?_) Wire.getLength
      have hsummed : Summed { entries := some .empty } := rfl
      exact (hsummed.agrees_decodeEntries count).map recount
    · exact .fail (.unknownMarker marker)

/-! ### What can be done to a container -/

/-- A change of a container. -/
inductive Change where
  /-- The value under a key is set. -/
  | put (key : String) (v : PropertyValue)
  /-- The entry under a key is taken out. -/
  | remove (key : String)
  /-- All entries are taken out. -/
  | clear
  /-- The entries under reserved keys are taken out. -/
  | clearInternal
  /-- The entries of another container are put in. -/
  | putAll (other : Properties)
  /-- A container is read in the place of this one. -/
  | read (bytes : List UInt8)
  deriving DecidableEq

namespace Change

/-- The container after a change. -/
def apply : Change → Properties → Properties
  | put key v, p => p.put key v
  | remove key, p => p.remove key
  | clear, p => p.clear
  | clearInternal, p => p.clearInternal
  | putAll other, p => p.putAll other
  | read bytes, p => (p.replaceFrom bytes).1

/-- The container after a change, with checked differences. -/
def applyChecked? : Change → Properties → Option Properties
  | put key v, p => (p.insertEntryChecked? key v).map recount
  | remove key, p => if p.isEmpty then some p else (p.eraseEntryChecked? key).map recount
  | clear, p => some p.clear
  | clearInternal, p =>
    ((p.names.filter isInternal).foldlM eraseEntryChecked? p).map recount
  | putAll other, p =>
    match other.entries with
    | some d =>
      (d.entries.foldlM (fun (p : Properties) e => p.insertEntryChecked? e.1 e.2) p).map recount
    | none => some p
  | read bytes, p =>
    match decodeChecked bytes with
    | (.ok q, _) => q.map fun q => { q with sawInternal := q.sawInternal || p.sawInternal }
    | (.error _, _) => some p

/-- **No difference is below zero**: with checks the changes give what they give without. -/
theorem applyChecked?_eq {p : Properties} (h : p.Sized) (change : Change) :
    change.applyChecked? p = some (change.apply p) := by
  cases change with
  | put key v =>
      rw [applyChecked?, h.summed.insertEntryChecked?_eq]
      rfl
  | remove key =>
      rw [applyChecked?, apply, Properties.remove]
      split
      · rfl
      · rw [h.summed.eraseEntryChecked?_eq]
        rfl
  | clear => rfl
  | clearInternal =>
      rw [applyChecked?, h.summed.foldlM_eq (fun _ key h => h.eraseEntry key)
        fun _ key h => h.eraseEntryChecked?_eq key]
      rfl
  | putAll other =>
      rw [applyChecked?, apply, Properties.putAll]
      cases other.entries with
      | none => rfl
      | some d =>
          dsimp only
          rw [h.summed.foldlM_eq (fun _ (e : String × PropertyValue) h => h.insertEntry e.1 e.2)
            fun _ e h => h.insertEntryChecked?_eq e.1 e.2]
          rfl
  | read bytes =>
      rw [applyChecked?, agrees_decode, apply, replaceFrom]
      rcases decode bytes with ⟨_ | q, rest⟩ <;> rfl

/-- The counts stay right. -/
theorem sized_apply {p : Properties} (h : p.Sized) (change : Change) : (change.apply p).Sized := by
  cases change with
  | put key v => exact h.put key v
  | remove key => exact h.remove key
  | clear => exact h.clear
  | clearInternal => exact h.clearInternal
  | putAll other => exact h.putAll other
  | read bytes => exact h.replaceFrom bytes

end Change

end Properties

end Courier
