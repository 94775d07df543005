import Courier.Proofs.Number.Integer
import Courier.Proofs.Property.Accounting

/-!
# Integers of Four Widths

An integer property may be asked for as a byte, a short, an int or a long. A stored integer is given
under its own type and all wider ones; a text is given under every type whose range holds the
integer that it stands for. So asking for a wider type never changes an answer, asking for a
narrower one is refused exactly where the integer does not fit, and the text of an integer can be
stored in place of the integer.

## Main definitions

* `IntegerType`: the four types, with `IntegerType.Fits` for their ranges.
* `PropertyValue.integer?`, `PropertyValue.toInteger?`, `Properties.getInteger`: the integers among
  the values, and the four conversions and getters as one family.

## Main results

* `PropertyValue.toInteger?_eq_ok_iff`: what converts to an integer of a type.
* `Properties.getInteger_agrees`: the answers under the four types agree with one another.
-/

namespace Courier

/-! ### The types of integers -/

/-- The types of integer properties. -/
inductive IntegerType where
  | byte
  | short
  | int
  | long
  deriving DecidableEq, Repr

namespace IntegerType

/-- The number of bits of a type. -/
def bits : IntegerType → Nat
  | byte => 8
  | short => 16
  | int => 32
  | long => 64

/-- The type among all types of properties. -/
def propertyType : IntegerType → PropertyType
  | byte => .byte
  | short => .short
  | int => .int
  | long => .long

/-- The number of negative integers of a type. -/
def limit (w : IntegerType) : Nat := 1 <<< (w.bits - 1)

/-- Whether an integer is in the range of a type. -/
def Fits (w : IntegerType) (n : Int) : Prop := -w.limit ≤ n ∧ n < w.limit

instance (w : IntegerType) (n : Int) : Decidable (w.Fits n) :=
  inferInstanceAs (Decidable (_ ∧ _))

theorem limit_pos (w : IntegerType) : 0 < w.limit := by
  cases w <;> decide

theorem limit_le {w w' : IntegerType} (h : w.bits ≤ w'.bits) : w.limit ≤ w'.limit := by
  revert h
  cases w <;> cases w' <;> decide

theorem Fits.widen {w w' : IntegerType} {n : Int} (h : w.Fits n) (hbits : w.bits ≤ w'.bits) :
    w'.Fits n := by
  have := limit_le hbits
  obtain ⟨hlow, hhigh⟩ := h
  exact ⟨by omega, by omega⟩

end IntegerType

namespace PropertyValue

variable {v : PropertyValue} {w w' : IntegerType} {n : Int}

/-- The integer that a value is, with its type. -/
def integer? : PropertyValue → Option (IntegerType × Int)
  | byte n => some (.byte, n.toInt)
  | short n => some (.short, n.toInt)
  | int n => some (.int, n.toInt)
  | long n => some (.long, n.toInt)
  | _ => none

/-- The integer that a value converts to under a type. -/
def toInteger? : IntegerType → PropertyValue → Except ConversionFault Int
  | .byte, v => v.toByte?.map Int8.toInt
  | .short, v => v.toShort?.map Int16.toInt
  | .int, v => v.toInt?.map Int32.toInt
  | .long, v => v.toLong?.map Int64.toInt

theorem fits_of_integer? (h : v.integer? = some (w, n)) : w.Fits n := by
  cases v <;> cases h
  case byte n => exact ⟨n.le_toInt, n.toInt_lt⟩
  case short n => exact ⟨n.le_toInt, n.toInt_lt⟩
  case int n => exact ⟨n.le_toInt, n.toInt_lt⟩
  case long n => exact ⟨n.le_toInt, n.toInt_lt⟩

theorem text_of_integer? (h : v.integer? = some (w, n)) : v.text = toString n := by
  cases v <;> cases h <;> rfl

/-! ### Texts -/

/-- A text that stands for an integer is read if the integer fits, and otherwise it is said on which
side of the range the integer lies. -/
theorem readInteger_of_denotes {s : String} (h : Integer.Denotes s.toList n) (w : IntegerType)
    (type : PropertyType) :
    readInteger w.bits type s =
      if w.Fits n then .ok n
      else .error (.unreadable s type (.integer (if n < 0 then .tooSmall else .tooLarge))) := by
  have hlimit := w.limit_pos
  change (Integer.read w.limit (w.limit - 1) s.toList).mapError _ = _
  rw [Integer.read_of_denotes h]
  by_cases hfits : w.Fits n
  · obtain ⟨hlow, hhigh⟩ := id hfits
    rw [if_neg (by omega), if_neg (by omega), if_pos hfits]
    rfl
  · rw [if_neg hfits]
    have hout : n < -w.limit ∨ w.limit ≤ n := by
      by_contra hin
      exact hfits ⟨by omega, by omega⟩
    rcases hout with hlow | hhigh
    · rw [if_pos hlow, if_pos (by omega)]
      rfl
    · rw [if_neg (by omega), if_pos (by omega), if_neg (by omega)]
      rfl

/-- A text is read as an integer of a type if and only if it stands for one that fits. -/
theorem readInteger_eq_ok_iff {s : String} {type : PropertyType} :
    readInteger w.bits type s = .ok n ↔ Integer.Denotes s.toList n ∧ w.Fits n := by
  have hlimit := w.limit_pos
  have hread : readInteger w.bits type s = .ok n ↔
      Integer.read w.limit (w.limit - 1) s.toList = .ok n := by
    change (Integer.read w.limit (w.limit - 1) s.toList).mapError _ = _ ↔ _
    cases Integer.read w.limit (w.limit - 1) s.toList <;> simp [Except.mapError]
  have hrange : -w.limit ≤ n ∧ n ≤ (w.limit - 1 : Nat) ↔ w.Fits n :=
    and_congr_right fun _ => by omega
  rw [hread, Integer.read_eq_ok_iff, hrange]

/-- An integer that was read of a text is the same as an integer of its type. -/
theorem map_toInt_map_ofInt {α : Type} {ofInt : Int → α} {toInt : α → Int}
    (h : ∀ n, w.Fits n → toInt (ofInt n) = n) (type : PropertyType) (s : String) :
    ((readInteger w.bits type s).map ofInt).map toInt = readInteger w.bits type s := by
  cases hread : readInteger w.bits type s with
  | error => rfl
  | ok n => exact congrArg Except.ok (h n (readInteger_eq_ok_iff.mp hread).2)

theorem toInteger?_string (w : IntegerType) (s : String) :
    toInteger? w (string s) = readInteger w.bits w.propertyType s := by
  cases w with
  | byte => exact map_toInt_map_ofInt (w := .byte) (fun _ h => Int8.toInt_ofInt_of_le h.1 h.2) ..
  | short => exact map_toInt_map_ofInt (w := .short) (fun _ h => Int16.toInt_ofInt_of_le h.1 h.2) ..
  | int => exact map_toInt_map_ofInt (w := .int) (fun _ h => Int32.toInt_ofInt_of_le h.1 h.2) ..
  | long => exact map_toInt_map_ofInt (w := .long) (fun _ h => Int64.toInt_ofInt_of_le h.1 h.2) ..

/-- **What converts to an integer of a type**: the integers of types that are not wider, and the
texts of integers that fit. -/
theorem toInteger?_eq_ok_iff :
    toInteger? w v = .ok n ↔
      (∃ w', v.integer? = some (w', n) ∧ w'.bits ≤ w.bits) ∨
        ∃ s, v = string s ∧ Integer.Denotes s.toList n ∧ w.Fits n := by
  cases v with
  | string s => simp [toInteger?_string, readInteger_eq_ok_iff, integer?]
  | _ =>
      cases w <;> simp [toInteger?, toByte?, toShort?, toInt?, toLong?, integer?, Except.map,
        IntegerType.bits]

/-- A text may be asked for under a narrower type: it converts if the integer fits there. -/
theorem toInteger?_of_wider {s : String} (h : toInteger? w' (string s) = .ok n) :
    toInteger? w (string s) =
      if w.Fits n then .ok n
      else .error
        (.unreadable s w.propertyType (.integer (if n < 0 then .tooSmall else .tooLarge))) := by
  rw [toInteger?_string] at h ⊢
  exact readInteger_of_denotes (readInteger_eq_ok_iff.mp h).1 w _

/-- A value converts to the same integer under a wider type. -/
theorem toInteger?_widen (h : toInteger? w v = .ok n) (hbits : w.bits ≤ w'.bits) :
    toInteger? w' v = .ok n := by
  rcases toInteger?_eq_ok_iff.mp h with ⟨stored, hv, hstored⟩ | ⟨s, hv, hdenotes, hfits⟩
  · exact toInteger?_eq_ok_iff.mpr (.inl ⟨stored, hv, Nat.le_trans hstored hbits⟩)
  · exact toInteger?_eq_ok_iff.mpr (.inr ⟨s, hv, hdenotes, hfits.widen hbits⟩)

/-- The text of an integer converts as the integer does. -/
theorem toInteger?_text (h : v.integer? = some (w, n)) (hbits : w.bits ≤ w'.bits) :
    toInteger? w' (string v.text) = .ok n := by
  refine toInteger?_eq_ok_iff.mpr (.inr ⟨v.text, rfl, ?_, (fits_of_integer? h).widen hbits⟩)
  rw [text_of_integer? h]
  exact Integer.denotes_toString n

end PropertyValue

/-! ### Getters -/

namespace Properties

variable {p : Properties} {key : String} {v : PropertyValue}

/-- Reads an integer under a type. -/
def getInteger (p : Properties) : IntegerType → String → Except ConversionError Int
  | .byte, key => (p.getByte key).map Int8.toInt
  | .short, key => (p.getShort key).map Int16.toInt
  | .int, key => (p.getInt key).map Int32.toInt
  | .long, key => (p.getLong key).map Int64.toInt

theorem map_require {α β : Type} (convert : PropertyValue → Except ConversionFault α) (f : α → β)
    (p : Properties) (key : String) :
    (p.require convert key).map f = p.require (fun v => (convert v).map f) key := by
  rw [require, require]
  cases p.get? key with
  | none => rfl
  | some v =>
      simp only
      cases convert v <;> rfl

theorem getInteger_eq (p : Properties) (w : IntegerType) (key : String) :
    p.getInteger w key = p.require (PropertyValue.toInteger? w) key := by
  cases w <;> exact map_require ..

theorem getInteger_of_get? (h : p.get? key = some v) (w : IntegerType) :
    p.getInteger w key = (v.toInteger? w).mapError (⟨key, ·⟩) := by
  rw [getInteger_eq, require, h]

theorem getInteger_eq_ok_iff {w : IntegerType} {n : Int} :
    p.getInteger w key = .ok n ↔ ∃ v, p.get? key = some v ∧ v.toInteger? w = .ok n := by
  cases h : p.get? key with
  | none => simp [getInteger_eq, require, h]
  | some v =>
      rw [getInteger_of_get? h]
      cases hconvert : v.toInteger? w <;> simp [Except.mapError, hconvert]

theorem get?_of_stored? (h : p.stored? key = some v) (hv : v ≠ .null) : p.get? key = some v := by
  cases v <;> first | exact absurd rfl hv | simp [get?, h, PropertyValue.isNull]

/-- **The answers under the four types agree.** A wider type gives the same integer. A stored text
is given under the types that its integer fits into, and under the others the error says on which
side of the range it lies. A stored integer has a text that is given, wherever it is stored, as that
integer under its type and all wider ones. -/
theorem getInteger_agrees (p : Properties) (key : String) :
    (∀ w w' n, w.bits ≤ w'.bits → p.getInteger w key = .ok n → p.getInteger w' key = .ok n) ∧
      (∀ s, p.stored? key = some (.string s) →
        (∀ w n, p.getInteger w key = .ok n ↔ Integer.Denotes s.toList n ∧ w.Fits n) ∧
          ∀ w w' n, p.getInteger w' key = .ok n →
            p.getInteger w key =
              if w.Fits n then .ok n
              else .error ⟨key, .unreadable s w.propertyType
                (.integer (if n < 0 then .tooSmall else .tooLarge))⟩) ∧
        ∀ v w n, p.stored? key = some v → v.integer? = some (w, n) →
          ∃ text, p.getText key = .ok (some text) ∧
            ∀ (q : Properties) (key' : String) (w' : IntegerType), w.bits ≤ w'.bits →
              (q.put key' (.string text)).getInteger w' key' = .ok n := by
  refine ⟨?widen, ?narrow, ?textual⟩
  case widen =>
    intro w w' n hbits h
    obtain ⟨v, hv, hn⟩ := getInteger_eq_ok_iff.mp h
    exact getInteger_eq_ok_iff.mpr ⟨v, hv, PropertyValue.toInteger?_widen hn hbits⟩
  case narrow =>
    intro s hs
    have hget := get?_of_stored? hs (by simp)
    have hiff (w : IntegerType) (n : Int) :
        p.getInteger w key = .ok n ↔ Integer.Denotes s.toList n ∧ w.Fits n := by
      simp [getInteger_eq_ok_iff, hget, PropertyValue.toInteger?_string,
        PropertyValue.readInteger_eq_ok_iff]
    refine ⟨hiff, fun w w' n h => ?_⟩
    have hwider : PropertyValue.toInteger? w' (.string s) = .ok n := by
      simpa [getInteger_eq_ok_iff, hget] using h
    rw [getInteger_of_get? hget, PropertyValue.toInteger?_of_wider hwider]
    split <;> rfl
  case textual =>
    intro v w n hv hn
    have hget := get?_of_stored? hv (by rintro rfl; cases hn)
    refine ⟨v.text, ?_, fun q key' w' hbits => ?_⟩
    · rw [getText, optional, hget]
      cases v <;> cases hn <;> rfl
    · have hput : (q.put key' (.string v.text)).get? key' = some (.string v.text) := by
        simp [get?_put, PropertyValue.isNull]
      exact getInteger_eq_ok_iff.mpr ⟨_, hput, PropertyValue.toInteger?_text hn hbits⟩

/-- An order whose amount is a text with a sign and zeros in front, and whose serial number is the
least of all integers. -/
def orderForm : Properties :=
  .ofList [("amount", .string "+00128"), ("serial", .long Int64.minValue)]

/-- The amount is a short but not a byte, and so it is an int; the serial number is given as text
and read back. -/
theorem getInteger_agrees_orderForm :
    orderForm.getInteger .short "amount" = .ok 128 ∧
      orderForm.getInteger .int "amount" = .ok 128 ∧
        orderForm.getInteger .byte "amount" =
          .error ⟨"amount", .unreadable "+00128" .byte (.integer .tooLarge)⟩ ∧
          ∃ text, orderForm.getText "serial" = .ok (some text) ∧
            (orderForm.put "copy" (.string text)).getInteger .long "copy" =
              .ok (-9223372036854775808) := by
  have hshort : orderForm.getInteger .short "amount" = .ok 128 := by decide +kernel
  have hamount : orderForm.stored? "amount" = some (.string "+00128") := by decide +kernel
  have hserial : orderForm.stored? "serial" = some (.long Int64.minValue) := by decide +kernel
  obtain ⟨hwiden, hnarrow, -⟩ := getInteger_agrees orderForm "amount"
  obtain ⟨-, -, htextual⟩ := getInteger_agrees orderForm "serial"
  obtain ⟨text, htext, hback⟩ := htextual _ .long (-9223372036854775808) hserial (by decide)
  exact ⟨hshort, hwiden .short .int 128 (by decide) hshort,
    (hnarrow _ hamount).2 .byte .short 128 hshort, text, htext,
    hback orderForm "copy" .long (by decide)⟩

end Properties

end Courier
