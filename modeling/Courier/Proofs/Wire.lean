import Courier.Wire

/-!
# Reading Back What Was Written

A written value is read back when the reader takes exactly the value's bytes off the front,
whatever follows them. This relation, `Reader.Reads`, composes along the steps of a reader, so
the round trip of a whole format is put together from those of its fields.

## Main results

* `Reader.Reads.bind`: the fields of a format, one after another.
* `Reader.Reads.bind_fails`: a field that is refused behind others that are read.
* `Wire.reads_getNat` and the readers of the fixed-width numbers.
* `Utf16.decode?_encode`: the units of a text are read as that text.
* `Wire.reads_getBytes`, `Wire.reads_getText`: byte arrays and texts, as long as their lengths
  fit the signed prefix.
-/

namespace Courier

variable {α β : Type}

namespace Reader

/-- The reader takes these bytes off the front, whatever follows them, and gives this value. -/
def Reads (read : Reader α) (bytes : List UInt8) (a : α) : Prop :=
  ∀ rest, read (bytes ++ rest) = (.ok a, rest)

theorem Reads.pure (a : α) : Reads (Pure.pure a) [] a := fun _ => rfl

/-- Two readers one after another take the bytes of both. -/
theorem Reads.bind {read : Reader α} {k : α → Reader β} {xs ys : List UInt8} {a : α} {b : β}
    (h : read.Reads xs a) (hnext : (k a).Reads ys b) :
    Reads (read >>= k) (xs ++ ys) b := by
  intro rest
  change Reader.bind read k (xs ++ ys ++ rest) = _
  rw [Reader.bind, List.append_assoc, h]
  exact hnext rest

/-- The last step of a reader may take no bytes of its own. -/
theorem Reads.bind_nil {read : Reader α} {k : α → Reader β} {xs : List UInt8} {a : α} {b : β}
    (h : read.Reads xs a) (hnext : (k a).Reads [] b) : Reads (read >>= k) xs b := by
  have := h.bind hnext
  rwa [List.append_nil] at this

/-- A reader that only converts what another one read. -/
theorem Reads.map {read : Reader α} {xs : List UInt8} {a : α} (h : read.Reads xs a)
    (f : α → β) : Reads (read >>= fun a => Pure.pure (f a)) xs (f a) :=
  h.bind_nil (k := fun a => Pure.pure (f a)) (.pure (f a))

/-- A reader applied to exactly the bytes that it takes leaves none. -/
theorem Reads.eq {read : Reader α} {xs : List UInt8} {a : α} (h : read.Reads xs a) :
    read xs = (.ok a, []) := by
  simpa only [List.append_nil] using h []

theorem reads_take (bytes : List UInt8) : (take bytes.length).Reads bytes bytes := by
  intro rest
  simp [take]

/-- The reader fails on bytes that start with these, whatever follows them. -/
def Fails (read : Reader α) (bytes : List UInt8) (e : WireError) : Prop :=
  ∀ rest, ∃ left, read (bytes ++ rest) = (.error e, left)

theorem Fails.fail (e : WireError) : (Reader.fail e : Reader α).Fails [] e :=
  fun rest => ⟨rest, rfl⟩

theorem Fails.append {read : Reader α} {xs : List UInt8} {e : WireError} (h : read.Fails xs e)
    (ys : List UInt8) : read.Fails (xs ++ ys) e := by
  intro rest
  rw [List.append_assoc]
  exact h (ys ++ rest)

/-- What would come next does not matter to a reader that failed. -/
theorem Fails.bind {read : Reader α} {xs : List UInt8} {e : WireError} (h : read.Fails xs e)
    (k : α → Reader β) : (read >>= k).Fails xs e := by
  intro rest
  obtain ⟨left, hleft⟩ := h rest
  refine ⟨left, ?_⟩
  change Reader.bind read k (xs ++ rest) = _
  rw [Reader.bind, hleft]

/-- A reader may fail after it has read something. -/
theorem Reads.bind_fails {read : Reader α} {k : α → Reader β} {xs ys : List UInt8} {a : α}
    {e : WireError} (h : read.Reads xs a) (hnext : (k a).Fails ys e) :
    (read >>= k).Fails (xs ++ ys) e := by
  intro rest
  obtain ⟨left, hleft⟩ := hnext rest
  refine ⟨left, ?_⟩
  change Reader.bind read k (xs ++ ys ++ rest) = _
  rw [Reader.bind, List.append_assoc, h]
  exact hleft

/-- A reader applied to exactly the bytes on which it fails. -/
theorem Fails.eq {read : Reader α} {xs : List UInt8} {e : WireError} (h : read.Fails xs e) :
    ∃ left, read xs = (.error e, left) := by
  simpa only [List.append_nil] using h []

/-- Each of two readers one after another gave a value if both together did. -/
theorem eq_ok_of_bind {read : Reader α} {k : α → Reader β} {bytes rest : List UInt8} {b : β}
    (h : (read >>= k) bytes = (.ok b, rest)) :
    ∃ a between, read bytes = (.ok a, between) ∧ k a between = (.ok b, rest) := by
  change Reader.bind read k bytes = _ at h
  rw [Reader.bind] at h
  split at h
  · next a between hread => exact ⟨a, between, hread, h⟩
  · cases h

end Reader

namespace Wire

open Reader

/-! ### Numbers -/

@[simp] theorem length_bigEndian (count n : Nat) : (bigEndian count n).length = count := by
  induction count with
  | zero => rfl
  | succ count ih => rw [bigEndian, List.length_cons, ih]

theorem foldl_bigEndian (count n start : Nat) :
    (bigEndian count n).foldl (fun n b => n * 256 + b.toNat) start =
      start * (1 <<< (8 * count)) + n % (1 <<< (8 * count)) := by
  induction count generalizing start with
  | zero => simp [bigEndian, Nat.mod_one]
  | succ count ih =>
      have hnext : 1 <<< (8 * (count + 1)) = (1 <<< (8 * count)) * 256 := by
        rw [Nat.mul_succ, Nat.shiftLeft_add, Nat.shiftLeft_eq _ 8]
      have hfirst : n >>> (8 * count) = n / (1 <<< (8 * count)) := by
        rw [Nat.shiftRight_eq_div_pow, Nat.shiftLeft_eq, Nat.one_mul]
      rw [bigEndian, List.foldl_cons, ih, hfirst, hnext]
      generalize 1 <<< (8 * count) = width
      have hbyte : (UInt8.ofNat (n / width)).toNat = n / width % 256 := by simp
      rw [hbyte, Nat.mod_mul, Nat.add_mul, Nat.mul_assoc, Nat.mul_comm 256 width,
        Nat.mul_comm (n / width % 256)]
      omega

/-- The bytes of a number that fits them are read as that number. -/
theorem ofBigEndian_bigEndian {count n : Nat} (h : n < 1 <<< (8 * count)) :
    ofBigEndian (bigEndian count n) = n := by
  rw [ofBigEndian, foldl_bigEndian, Nat.zero_mul, Nat.zero_add, Nat.mod_eq_of_lt h]

theorem reads_getNat {count n : Nat} (h : n < 1 <<< (8 * count)) :
    (getNat count).Reads (bigEndian count n) n := by
  have htake := reads_take (bigEndian count n)
  rw [length_bigEndian] at htake
  have hmap := htake.map ofBigEndian
  rwa [ofBigEndian_bigEndian h] at hmap

theorem bigEndian_one (b : UInt8) : bigEndian 1 b.toNat = [b] := by
  simp [bigEndian]

theorem reads_getUInt8 (b : UInt8) : getUInt8.Reads [b] b := by
  have hnat : (getNat 1).Reads (bigEndian 1 b.toNat) b.toNat := reads_getNat b.toNat_lt
  have h := hnat.map UInt8.ofNat
  rwa [bigEndian_one, UInt8.ofNat_toNat] at h

theorem reads_getUInt16 (n : UInt16) : getUInt16.Reads (bigEndian 2 n.toNat) n := by
  have hnat : (getNat 2).Reads (bigEndian 2 n.toNat) n.toNat := reads_getNat n.toNat_lt
  have h := hnat.map UInt16.ofNat
  rwa [UInt16.ofNat_toNat] at h

theorem reads_getUInt32 (n : UInt32) : getUInt32.Reads (bigEndian 4 n.toNat) n := by
  have hnat : (getNat 4).Reads (bigEndian 4 n.toNat) n.toNat := reads_getNat n.toNat_lt
  have h := hnat.map UInt32.ofNat
  rwa [UInt32.ofNat_toNat] at h

theorem reads_getUInt64 (n : UInt64) : getUInt64.Reads (bigEndian 8 n.toNat) n := by
  have hnat : (getNat 8).Reads (bigEndian 8 n.toNat) n.toNat := reads_getNat n.toNat_lt
  have h := hnat.map UInt64.ofNat
  rwa [UInt64.ofNat_toNat] at h

theorem reads_getInt8 (n : Int8) : getInt8.Reads [n.toUInt8] n :=
  (reads_getUInt8 n.toUInt8).map UInt8.toInt8

theorem reads_getInt16 (n : Int16) : getInt16.Reads (bigEndian 2 n.toUInt16.toNat) n :=
  (reads_getUInt16 n.toUInt16).map UInt16.toInt16

theorem reads_getInt32 (n : Int32) : getInt32.Reads (bigEndian 4 n.toUInt32.toNat) n :=
  (reads_getUInt32 n.toUInt32).map UInt32.toInt32

theorem reads_getInt64 (n : Int64) : getInt64.Reads (bigEndian 8 n.toUInt64.toNat) n :=
  (reads_getUInt64 n.toUInt64).map UInt64.toInt64

theorem reads_getBool (b : Bool) : getBool.Reads (putBool b) b := by
  have h := (reads_getUInt8 (if b then 1 else 0)).map (fun b : UInt8 => decide (b ≠ 0))
  have hb : decide ((if b then (1 : UInt8) else 0) ≠ 0) = b := by cases b <;> rfl
  rwa [hb] at h

/-! ### Byte arrays -/

/-- The lengths that a signed prefix can tell. -/
def FitsPrefix (n : Nat) : Prop :=
  n < 0x80000000

theorem reads_getLength {n : Nat} (h : FitsPrefix n) : getLength.Reads (putLength n) n := by
  have hint : (Int32.ofNat n).toInt = n := Int32.toInt_ofNat_of_lt h
  have hclamp : (Int32.ofNat n).toNatClampNeg = n := Int32.toNatClampNeg_ofNat_of_lt h
  have hbits : (Int32.ofNat n).toUInt32.toNat = n := by
    rw [Int32.toUInt32_ofNat', UInt32.toNat_ofNat_of_lt']
    exact Nat.lt_trans h (by decide)
  have hpos : ¬Int32.ofNat n < 0 := by
    rw [Int32.lt_iff_toInt_lt, hint]
    simp
  have hread := reads_getInt32 (Int32.ofNat n)
  rw [hbits] at hread
  refine hread.bind_nil ?_
  rw [if_neg hpos, hclamp]
  exact .pure n

theorem reads_getBytes {bytes : List UInt8} (h : FitsPrefix bytes.length) :
    getBytes.Reads (putBytes bytes) bytes :=
  (reads_getLength h).bind (reads_take bytes)

@[simp] theorem length_putBytes (bytes : List UInt8) :
    (putBytes bytes).length = 4 + bytes.length := by
  rw [putBytes, putLength, List.length_append, length_bigEndian]

end Wire

/-! ### Texts -/

namespace Utf16

theorem length_unitsOf (c : Char) :
    (unitsOf c).length = if c.toNat < 0x10000 then 1 else 2 := by
  unfold unitsOf
  split <;> rfl

/-- The number of units, as counted from the characters. -/
theorem length_encode (s : String) : (encode s.toList).length = length s := by
  have hfold : ∀ (cs : List Char) (n : Nat),
      cs.foldl (fun n c => if c.toNat < 0x10000 then n + 1 else n + 2) n =
        n + (encode cs).length := by
    intro cs
    induction cs with
    | nil => intro n; rfl
    | cons c cs ih =>
        intro n
        have hcons : (encode (c :: cs)).length = (unitsOf c).length + (encode cs).length := by
          simp only [encode, List.flatMap_cons, List.length_append]
        rw [List.foldl_cons, ih, hcons, length_unitsOf]
        split <;> omega
  rw [length, hfold, Nat.zero_add]

theorem isHigh_iff {u : UInt16} : isHigh u ↔ 0xD800 ≤ u.toNat ∧ u.toNat ≤ 0xDBFF := by
  simp [isHigh, UInt16.le_iff_toNat_le]

theorem isLow_iff {u : UInt16} : isLow u ↔ 0xDC00 ≤ u.toNat ∧ u.toNat ≤ 0xDFFF := by
  simp [isLow, UInt16.le_iff_toNat_le]

/-- A character of the basic plane is no surrogate, and its unit stands for it. -/
theorem decode?_unit {c : Char} (h : c.toNat < 0x10000) (rest : List UInt16) :
    decode? (UInt16.ofNat c.toNat :: rest) = (decode? rest).map (c :: ·) := by
  have hunit : (UInt16.ofNat c.toNat).toNat = c.toNat := UInt16.toNat_ofNat_of_lt' h
  have hvalid : c.toNat < 0xd800 ∨ 0xdfff < c.toNat := by
    rcases c.valid with h | h
    · exact .inl h
    · exact .inr h.1
  have hhigh : ¬isHigh (UInt16.ofNat c.toNat) := by
    rw [isHigh_iff, hunit]
    omega
  have hlow : ¬isLow (UInt16.ofNat c.toNat) := by
    rw [isLow_iff, hunit]
    omega
  rw [decode?.eq_def]
  simp only [hhigh, hlow, hunit, Char.ofNat_toNat, Bool.false_eq_true, if_false]

/-- A character beyond the basic plane is read from its pair of surrogates. -/
theorem decode?_pair {c : Char} (h : ¬c.toNat < 0x10000) (rest : List UInt16) :
    decode? (UInt16.ofNat (0xD800 + (c.toNat - 0x10000) / 0x400) ::
      UInt16.ofNat (0xDC00 + (c.toNat - 0x10000) % 0x400) :: rest) =
        (decode? rest).map (c :: ·) := by
  have hmax : c.toNat < 0x110000 := by
    rcases c.valid with h | h
    · exact Nat.lt_trans h (by decide)
    · exact h.2
  have hhigh : (UInt16.ofNat (0xD800 + (c.toNat - 0x10000) / 0x400)).toNat =
      0xD800 + (c.toNat - 0x10000) / 0x400 :=
    UInt16.toNat_ofNat_of_lt' (by simp only [UInt16.size]; omega)
  have hlow : (UInt16.ofNat (0xDC00 + (c.toNat - 0x10000) % 0x400)).toNat =
      0xDC00 + (c.toNat - 0x10000) % 0x400 :=
    UInt16.toNat_ofNat_of_lt' (by simp only [UInt16.size]; omega)
  have hpair : pair (UInt16.ofNat (0xD800 + (c.toNat - 0x10000) / 0x400))
      (UInt16.ofNat (0xDC00 + (c.toNat - 0x10000) % 0x400)) = c := by
    rw [pair, hhigh, hlow]
    have : 0x10000 + (0xD800 + (c.toNat - 0x10000) / 0x400 - 0xD800) * 0x400 +
        (0xDC00 + (c.toNat - 0x10000) % 0x400 - 0xDC00) = c.toNat := by omega
    rw [this, Char.ofNat_toNat]
  have hopen : isHigh (UInt16.ofNat (0xD800 + (c.toNat - 0x10000) / 0x400)) := by
    rw [isHigh_iff, hhigh]
    omega
  have hclose : isLow (UInt16.ofNat (0xDC00 + (c.toNat - 0x10000) % 0x400)) := by
    rw [isLow_iff, hlow]
    omega
  rw [decode?.eq_def]
  simp only [hopen, hclose, hpair, if_true]

/-- **Texts survive their units**: the units of a text are read as that text. -/
theorem decode?_encode (text : List Char) : decode? (encode text) = some text := by
  induction text with
  | nil => rfl
  | cons c text ih =>
      have hcons : encode (c :: text) = unitsOf c ++ encode text := rfl
      rw [hcons, unitsOf]
      by_cases h : c.toNat < 0x10000
      · rw [if_pos h, List.cons_append, List.nil_append, decode?_unit h, ih, Option.map_some]
      · rw [if_neg h, List.cons_append, List.cons_append, List.nil_append, decode?_pair h, ih,
          Option.map_some]

end Utf16

namespace Wire

open Reader

@[simp] theorem length_unitBytes (units : List UInt16) :
    (unitBytes units).length = 2 * units.length := by
  induction units with
  | nil => rfl
  | cons u units ih =>
      have hcons : (unitBytes (u :: units)).length = (unitBytes units).length + 2 := rfl
      rw [hcons, ih, List.length_cons]
      omega

theorem ofUnitBytes_unitBytes (units : List UInt16) : ofUnitBytes (unitBytes units) = units := by
  induction units with
  | nil => rfl
  | cons u units ih =>
      have hcons : unitBytes (u :: units) = UInt8.ofNat (u.toNat % 256) ::
        UInt8.ofNat (u.toNat / 256) :: unitBytes units := rfl
      have hu : (UInt8.ofNat (u.toNat % 256)).toNat + 256 * (UInt8.ofNat (u.toNat / 256)).toNat =
          u.toNat := by
        have := u.toNat_lt
        rw [UInt8.toNat_ofNat_of_lt' (by simp only [UInt8.size]; omega),
          UInt8.toNat_ofNat_of_lt' (by simp only [UInt8.size]; omega)]
        omega
      rw [hcons, ofUnitBytes, hu, UInt16.ofNat_toNat, ih]

theorem length_textUnits (s : String) :
    (unitBytes (Utf16.encode s.toList)).length = textLength s := by
  rw [length_unitBytes, Utf16.length_encode, textLength]

@[simp] theorem length_putText (s : String) : (putText s).length = textSize s := by
  rw [putText, putLength, List.length_append, length_bigEndian, length_textUnits, textSize]

theorem reads_getText {s : String} (h : FitsPrefix (textLength s)) :
    getText.Reads (putText s) s := by
  have htake := reads_take (unitBytes (Utf16.encode s.toList))
  rw [length_textUnits] at htake
  have heven : ¬textLength s % 2 ≠ 0 := by simp [textLength]
  refine (reads_getLength h).bind ?_
  rw [if_neg heven]
  refine htake.bind_nil ?_
  rw [ofUnitBytes_unitBytes, Utf16.decode?_encode]
  simpa only [String.ofList_toList] using Reads.pure (String.ofList s.toList)

end Wire

end Courier
