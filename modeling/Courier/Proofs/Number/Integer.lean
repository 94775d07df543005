import Courier.Number.Integer

/-!
# Which Texts Are Integers

An integer text is an optional sign and at least one digit. Reading such a text goes digit by digit
and stops at the first value out of range, but values only grow from digit to digit, so the text is
read exactly if the integer that it stands for is in range. Leading zeros, and a minus sign in front
of zero, make no difference.

## Main definitions

* `Integer.Denotes`: the integer that a text stands for, in whatever range.

## Main results

* `Integer.read_of_denotes`, `Integer.read_eq_ok_iff`: integer texts are read, within the range.
* `Integer.denotes_toString`: the decimal form of an integer stands for it.
-/

namespace Courier.Integer

/-! ### Digits -/

/-- Digits, of which there is one at least. -/
def IsMagnitude (digits : List Char) : Prop := digits ≠ [] ∧ ∀ c ∈ digits, c.isDigit

/-- The number that digits stand for. -/
def magnitude (digits : List Char) : Nat := Nat.ofDigitChars 10 digits 0

theorem digit?_eq (c : Char) :
    digit? c = if c.isDigit then some (c.toNat - '0'.toNat) else none := by
  simp [digit?, Char.isDigit, Char.le_def]

/-- A value does not become smaller by further digits. -/
theorem le_ofDigitChars (digits : List Char) (value : Nat) :
    value ≤ Nat.ofDigitChars 10 digits value := by
  induction digits generalizing value with
  | nil => exact Nat.le_refl _
  | cons c digits ih =>
      rw [Nat.ofDigitChars_cons]
      have := ih (10 * value + (c.toNat - '0'.toNat))
      omega

theorem readUpTo_of_isDigit {bound value : Nat} {digits : List Char}
    (hdigits : ∀ c ∈ digits, c.isDigit) (hvalue : value ≤ bound) :
    readUpTo bound value digits =
      if Nat.ofDigitChars 10 digits value ≤ bound then .ok (Nat.ofDigitChars 10 digits value)
      else .error .tooLarge := by
  induction digits generalizing value with
  | nil => simp [readUpTo, hvalue]
  | cons c digits ih =>
      have hle := le_ofDigitChars digits (10 * value + (c.toNat - '0'.toNat))
      rw [readUpTo, digit?_eq, if_pos (hdigits c (.head _)), Nat.ofDigitChars_cons,
        Nat.mul_comm value]
      simp only
      split
      · next hnext => exact ih (fun d hd => hdigits d (.tail _ hd)) hnext
      · next hnext => rw [if_neg (by omega)]

theorem isDigit_of_readUpTo {bound value n : Nat} {digits : List Char}
    (h : readUpTo bound value digits = .ok n) : ∀ c ∈ digits, c.isDigit := by
  induction digits generalizing value with
  | nil => exact fun c hc => absurd hc List.not_mem_nil
  | cons c digits ih =>
      rw [readUpTo, digit?_eq] at h
      by_cases hc : c.isDigit
      · rw [if_pos hc] at h
        simp only at h
        split at h
        · exact List.forall_mem_cons.mpr ⟨hc, ih h⟩
        · cases h
      · rw [if_neg hc] at h
        cases h

theorem readMagnitude_of_ne_nil {bound : Nat} {digits : List Char} (h : digits ≠ []) :
    readMagnitude bound digits = readUpTo bound 0 digits := by
  cases digits with
  | nil => exact absurd rfl h
  | cons c digits => rfl

theorem readMagnitude_of_isMagnitude {bound : Nat} {digits : List Char}
    (h : IsMagnitude digits) :
    readMagnitude bound digits =
      if magnitude digits ≤ bound then .ok (magnitude digits) else .error .tooLarge := by
  rw [readMagnitude_of_ne_nil h.1]
  exact readUpTo_of_isDigit h.2 (Nat.zero_le _)

theorem readMagnitude_eq_ok_iff {bound n : Nat} {digits : List Char} :
    readMagnitude bound digits = .ok n ↔
      IsMagnitude digits ∧ magnitude digits = n ∧ n ≤ bound := by
  constructor
  · intro h
    have hdigits : IsMagnitude digits := by
      cases digits with
      | nil => cases h
      | cons c digits => exact ⟨List.cons_ne_nil _ _, isDigit_of_readUpTo h⟩
    rw [readMagnitude_of_isMagnitude hdigits] at h
    split at h
    · next hle =>
        cases h
        exact ⟨hdigits, rfl, hle⟩
    · cases h
  · rintro ⟨hdigits, rfl, hle⟩
    rw [readMagnitude_of_isMagnitude hdigits, if_pos hle]

/-! ### Signs -/

/-- A text stands for an integer. -/
inductive Denotes : List Char → Int → Prop
  | bare {digits : List Char} : IsMagnitude digits → Denotes digits (magnitude digits)
  | plus {digits : List Char} : IsMagnitude digits → Denotes ('+' :: digits) (magnitude digits)
  | minus {digits : List Char} : IsMagnitude digits → Denotes ('-' :: digits) (-magnitude digits)

section Read

variable {below above : Nat} {text : List Char} {n : Int}

/-- Without a sign the digits are read as they are. -/
theorem read_bare (h : IsMagnitude text) :
    read below above text = (readMagnitude above text).map Int.ofNat := by
  obtain ⟨hne, hdigits⟩ := h
  unfold read
  split
  · exact absurd rfl hne
  · exact absurd (hdigits '-' (.head _)) (by decide)
  · exact absurd (hdigits '+' (.head _)) (by decide)
  · rw [readMagnitude_of_ne_nil hne]

/-- Digits without a minus sign are below no range. -/
theorem map_readMagnitude (h : IsMagnitude text) :
    (readMagnitude above text).map Int.ofNat =
      if (magnitude text : Int) < -below then .error .tooSmall
      else if above < (magnitude text : Int) then .error .tooLarge
      else .ok (magnitude text : Int) := by
  have hlow : ¬(magnitude text : Int) < -below := by omega
  rw [readMagnitude_of_isMagnitude h, if_neg hlow]
  split
  · rw [if_neg (by omega)]
    rfl
  · rw [if_pos (by omega)]
    rfl

/-- **An integer text is read** if the integer is in range, and otherwise the side of the range that
it lies on is reported. -/
theorem read_of_denotes (h : Denotes text n) :
    read below above text =
      if n < -below then .error .tooSmall else if above < n then .error .tooLarge else .ok n := by
  cases h with
  | bare h => rw [read_bare h, map_readMagnitude h]
  | plus h => rw [read, map_readMagnitude h]
  | @minus digits h =>
      rw [read, readMagnitude_of_isMagnitude h]
      by_cases hle : magnitude digits ≤ below
      · rw [if_pos hle, if_neg (by omega), if_neg (by omega)]
      · rw [if_neg hle, if_pos (by omega)]

theorem isMagnitude_of_map_readMagnitude (h : (readMagnitude above text).map Int.ofNat = .ok n) :
    IsMagnitude text ∧ (magnitude text : Int) = n := by
  cases hm : readMagnitude above text with
  | error => simp [hm, Except.map] at h
  | ok m =>
      obtain ⟨hdigits, rfl, -⟩ := readMagnitude_eq_ok_iff.mp hm
      rw [hm] at h
      exact ⟨hdigits, Except.ok.inj h⟩

theorem denotes_of_read (h : read below above text = .ok n) : Denotes text n := by
  unfold read at h
  split at h
  · cases h
  · split at h
    · next hm =>
        cases h
        obtain ⟨hdigits, rfl, -⟩ := readMagnitude_eq_ok_iff.mp hm
        exact .minus hdigits
    · cases h
    · cases h
  · obtain ⟨hdigits, rfl⟩ := isMagnitude_of_map_readMagnitude h
    exact .plus hdigits
  · next hne _ _ =>
      rw [← readMagnitude_of_ne_nil hne] at h
      obtain ⟨hdigits, rfl⟩ := isMagnitude_of_map_readMagnitude h
      exact .bare hdigits

/-- **A text is read as an integer** if and only if it stands for that integer, and the integer is
in range. -/
theorem read_eq_ok_iff :
    read below above text = .ok n ↔ Denotes text n ∧ -below ≤ n ∧ n ≤ above := by
  constructor
  · intro h
    have hdenotes := denotes_of_read h
    rw [read_of_denotes hdenotes] at h
    split at h
    · cases h
    · split at h
      · cases h
      · exact ⟨hdenotes, by omega, by omega⟩
  · rintro ⟨hdenotes, hlow, hhigh⟩
    rw [read_of_denotes hdenotes, if_neg (by omega), if_neg (by omega)]

end Read

/-- Decimal digits of a number are digits, of which there is one at least. -/
theorem isMagnitude_toDigits (n : Nat) : IsMagnitude (Nat.toDigits 10 n) :=
  ⟨Nat.toDigits_ne_nil, fun _ => Nat.isDigit_of_mem_toDigits (by decide) (by decide)⟩

/-- Decimal digits of a number stand for it. -/
theorem magnitude_toDigits (n : Nat) : magnitude (Nat.toDigits 10 n) = n :=
  Nat.ofDigitChars_ten_toDigits

/-- The decimal form of an integer that is not negative has no sign. -/
theorem toList_toString_of_nonneg {n : Int} (h : 0 ≤ n) :
    (toString n).toList = Nat.toDigits 10 n.toNat := by
  rw [Int.toString_eq_repr, Int.repr_eq_if, if_pos h, Nat.toList_repr]

/-- **The decimal form of an integer stands for it.** -/
theorem denotes_toString (n : Int) : Denotes (toString n).toList n := by
  by_cases h : 0 ≤ n
  · have hbare := Denotes.bare (isMagnitude_toDigits n.toNat)
    rwa [magnitude_toDigits, Int.toNat_of_nonneg h, ← toList_toString_of_nonneg h] at hbare
  · have hminus := Denotes.minus (isMagnitude_toDigits (-n).toNat)
    rw [magnitude_toDigits, Int.toNat_of_nonneg (by omega), Int.neg_neg, ← Nat.toList_repr]
      at hminus
    rwa [Int.toString_eq_repr, Int.repr_eq_if, if_neg h, String.toList_append]

end Courier.Integer
