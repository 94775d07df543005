import Courier.Proofs.Wire.Spelling

/-!
# The One Form of a Text in Bytes

A text is read from bytes if and only if they start with a length that is not negative and even,
and that many bytes follow which are units without a lone surrogate. The bytes that were taken are
then those that the text is written as, so a text stands in bytes in one form only, and two texts
in different forms.

## Main definitions

* `Utf16.Paired`: units in which no surrogate is alone.
* `Wire.StartsWithUnits`: bytes that start with the length of units and these units.

## Main results

* `Utf16.isSome_decode?_iff`: units are those of a text if and only if no surrogate is alone.
* `Wire.exists_getText_iff`: which bytes start with a text.
* `Wire.getText_eq_ok_iff`: which text they start with.
-/

namespace Courier

namespace Utf16

/-- A unit is a high surrogate exactly if a low one comes next. -/
def Linked (units : List UInt16) : Prop :=
  ∀ i, units[i]?.any isHigh = units[i + 1]?.any isLow

/-- No surrogate is alone: the first unit is no low one, and each unit is a high one exactly if a
low one comes next. -/
def Paired (units : List UInt16) : Prop :=
  units[0]?.any isLow = false ∧ Linked units

variable {u v : UInt16} {units : List UInt16}

theorem isLow_eq_false_of_isHigh (h : isHigh u) : isLow u = false := by
  rw [Bool.eq_false_iff, ne_eq, isLow_iff]
  have := isHigh_iff.mp h
  omega

theorem linked_nil : Linked [] := fun _ => rfl

theorem linked_cons :
    Linked (u :: units) ↔ units[0]?.any isLow = isHigh u ∧ Linked units := by
  constructor
  · intro h
    exact ⟨(h 0).symm, fun i => h (i + 1)⟩
  · rintro ⟨hfirst, hrest⟩ i
    cases i with
    | zero => exact hfirst.symm
    | succ i => exact hrest i

theorem paired_nil : Paired [] := ⟨rfl, linked_nil⟩

/-- A unit that is no surrogate leaves the others as they are. -/
theorem paired_cons_of_not_surrogate (hhigh : ¬isHigh u) (hlow : ¬isLow u) :
    Paired (u :: units) ↔ Paired units := by
  have hhigh : isHigh u = false := by simpa using hhigh
  simp [Paired, linked_cons, hhigh, hlow]

/-- A low surrogate is alone without one before it. -/
theorem not_paired_cons_of_isLow (h : isLow u) : ¬Paired (u :: units) := by
  simp [Paired, h]

/-- A high surrogate and a low one leave the others as they are. -/
theorem paired_cons_cons (hu : isHigh u) (hv : isLow v) :
    Paired (u :: v :: units) ↔ Paired units := by
  have hfirst : isLow u = false := isLow_eq_false_of_isHigh hu
  have hsecond : isHigh v = false := by
    rw [Bool.eq_false_iff]
    intro h
    simp [isLow_eq_false_of_isHigh h] at hv
  simp [Paired, linked_cons, hu, hv, hfirst, hsecond]

/-- A high surrogate is alone without a low one behind it. -/
theorem not_paired_of_isHigh (hu : isHigh u) (h : units[0]?.any isLow = false) :
    ¬Paired (u :: units) := by
  simp [Paired, linked_cons, hu, h]

/-- **Units are those of a text** if and only if no surrogate is alone. -/
theorem isSome_decode?_iff : (decode? units).isSome ↔ Paired units := by
  fun_induction decode? units with
  | case1 => simp [paired_nil]
  | case2 u hhigh v rest hlow ih => simp [paired_cons_cons hhigh hlow, ih]
  | case3 u hhigh v rest hlow => simp [not_paired_of_isHigh hhigh, hlow]
  | case4 u hhigh => simp [not_paired_of_isHigh hhigh]
  | case5 u rest hhigh hlow => simp [not_paired_cons_of_isLow hlow]
  | case6 u rest hhigh hlow ih => simp [paired_cons_of_not_surrogate hhigh hlow, ih]

end Utf16

namespace Wire

/-- Bytes start with a length of four bytes that is not negative, and with as many bytes as it
says: units without a lone surrogate, each with its low byte first, so that the length is even. -/
def StartsWithUnits (bytes : List UInt8) : Prop :=
  ∃ length units rest, bytes = putLength length ++ (unitBytes units ++ rest) ∧
    FitsPrefix length ∧ length = 2 * units.length ∧ Utf16.Paired units

/-- **Which text bytes start with**: the one that they start with in its written form, provided that
its length fits the prefix. -/
theorem getText_eq_ok_iff {bytes rest : List UInt8} {s : String} :
    getText bytes = (.ok s, rest) ↔ bytes = putText s ++ rest ∧ FitsPrefix (textLength s) := by
  constructor
  · intro h
    obtain ⟨_, hbytes, rfl, hfits⟩ := finds_getText h
    exact ⟨hbytes, hfits⟩
  · rintro ⟨rfl, hfits⟩
    exact reads_getText hfits rest

/-- **Bytes start with a text** if and only if they start with a length and units in which no
surrogate is alone. -/
theorem exists_getText_iff {bytes : List UInt8} :
    (∃ s rest, getText bytes = (.ok s, rest)) ↔ StartsWithUnits bytes := by
  constructor
  · rintro ⟨s, rest, h⟩
    obtain ⟨rfl, hfits⟩ := getText_eq_ok_iff.mp h
    refine ⟨textLength s, Utf16.encode s.toList, rest, ?_, hfits, ?_, ?_⟩
    · rw [putText, List.append_assoc]
    · rw [← length_textUnits, length_unitBytes]
    · rw [← Utf16.isSome_decode?_iff, Utf16.decode?_encode]
      rfl
  · rintro ⟨_, units, rest, rfl, hfits, rfl, hpaired⟩
    obtain ⟨text, htext⟩ := Option.isSome_iff_exists.mp (Utf16.isSome_decode?_iff.mpr hpaired)
    have hunits : Utf16.encode (String.ofList text).toList = units := by
      rw [String.toList_ofList, Utf16.encode_of_decode? htext]
    have hlength : textLength (String.ofList text) = 2 * units.length := by
      rw [← length_textUnits, hunits, length_unitBytes]
    refine ⟨String.ofList text, rest, getText_eq_ok_iff.mpr ⟨?_, hlength ▸ hfits⟩⟩
    rw [putText, hlength, hunits, List.append_assoc]

/-- **A text stands in bytes in one form only.** -/
theorem getText_unique (bytes : List UInt8) :
    ((∃ s rest, getText bytes = (.ok s, rest)) ↔ StartsWithUnits bytes) ∧
      ∀ s rest, getText bytes = (.ok s, rest) ↔
        bytes = putText s ++ rest ∧ textLength s < 0x80000000 :=
  ⟨exists_getText_iff, fun _ _ => getText_eq_ok_iff⟩

end Wire

end Courier
