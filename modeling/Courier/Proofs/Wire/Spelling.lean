import Courier.Proofs.Wire

/-!
# How Values Stand in Bytes

A reader that gives a value found the value spelled at the front of the bytes. Numbers, byte arrays
and texts have a single spelling, the one in which they are written, so what was read can be
written again to the very same bytes. Only `true` has others: any byte but zero stands for it.

This is the other direction of reading back what was written. `Reader.Finds` says so of a reader
and, like `Reader.Reads`, composes along the steps of a format.

## Main definitions

* `Reader.Finds`: whatever a reader gives is spelled at the front of its bytes.

## Main results

* `Wire.bigEndian_ofBigEndian`: bytes are those of the number that they spell.
* `Utf16.encode_of_decode?`: units are those of the text that they spell.
* `Wire.finds_getBytes`, `Wire.finds_getText`: byte arrays and texts.
-/

namespace Courier

variable {α β : Type}

namespace Reader

/-- Whatever the reader gives stands at the front of the bytes, in one of its spellings. -/
def Finds (read : Reader α) (spelled : α → List UInt8 → Prop) : Prop :=
  ∀ ⦃bytes a rest⦄, read bytes = (.ok a, rest) → ∃ xs, bytes = xs ++ rest ∧ spelled a xs

variable {read : Reader α} {spelled : α → List UInt8 → Prop} {spelled' : β → List UInt8 → Prop}

theorem Finds.pure {a : α} (h : spelled a []) : (Pure.pure a : Reader α).Finds spelled := by
  rintro bytes _ _ ⟨rfl, rfl⟩
  exact ⟨[], rfl, h⟩

theorem Finds.fail (e : WireError) (spelled : α → List UInt8 → Prop) :
    (Reader.fail e).Finds spelled := nofun

/-- Of two readers one after another, the second finds its value behind that of the first. -/
theorem Finds.bind {next : α → Reader β} (h : read.Finds spelled)
    (hnext : ∀ a xs, spelled a xs → (next a).Finds fun b ys => spelled' b (xs ++ ys)) :
    (read >>= next).Finds spelled' := by
  intro bytes b rest hread
  obtain ⟨a, between, hfirst, hsecond⟩ := eq_ok_of_bind hread
  obtain ⟨xs, rfl, ha⟩ := h hfirst
  obtain ⟨ys, rfl, hb⟩ := hnext a xs ha hsecond
  exact ⟨xs ++ ys, (List.append_assoc ..).symm, hb⟩

/-- A reader that only converts what another one found. -/
theorem Finds.map (h : read.Finds spelled) (f : α → β)
    (hf : ∀ a xs, spelled a xs → spelled' (f a) xs) :
    (read >>= fun a => Pure.pure (f a)).Finds spelled' :=
  h.bind fun a xs ha => .pure (by simpa only [List.append_nil] using hf a xs ha)

/-- Bytes start with the spelling of one value at most. -/
theorem Reads.inj {xs ys xs' ys' : List UInt8} {a b : α} (ha : read.Reads xs a)
    (hb : read.Reads ys b) (h : xs ++ xs' = ys ++ ys') : a = b ∧ xs = ys ∧ xs' = ys' := by
  have hread := ha xs'
  rw [h, hb ys'] at hread
  cases hread
  exact ⟨rfl, List.append_cancel_right h, rfl⟩

theorem finds_take (count : Nat) :
    (take count).Finds fun data xs => xs = data ∧ data.length = count := by
  intro bytes data rest h
  rw [take] at h
  split at h
  · next hle =>
      cases h
      exact ⟨bytes.take count, (List.take_append_drop ..).symm, rfl, List.length_take_of_le hle⟩
  · cases h

end Reader

/-! ### Numbers and byte arrays -/

namespace Wire

open Reader

/-- The bytes of a number do not reach what stood in front of them. -/
theorem foldl_shiftRight (bytes : List UInt8) (start : Nat) :
    bytes.foldl (fun n b => n * 256 + b.toNat) start >>> (8 * bytes.length) = start := by
  induction bytes generalizing start with
  | nil => rfl
  | cons b bytes ih =>
      have hb := b.toNat_lt
      rw [List.foldl_cons, List.length_cons, Nat.mul_add 8, Nat.shiftRight_add, ih,
        Nat.shiftRight_eq_div_pow]
      omega

theorem bigEndian_foldl (bytes : List UInt8) (start : Nat) :
    bigEndian bytes.length (bytes.foldl (fun n b => n * 256 + b.toNat) start) = bytes := by
  induction bytes generalizing start with
  | nil => rfl
  | cons b bytes ih =>
      have hfirst : UInt8.ofNat (start * 256 + b.toNat) = b := by
        rw [← UInt8.toNat_inj, UInt8.toNat_ofNat']
        have := b.toNat_lt
        omega
      rw [List.foldl_cons, List.length_cons, bigEndian, foldl_shiftRight, ih, hfirst]

/-- **Bytes are those of the number that they spell.** -/
theorem bigEndian_ofBigEndian (bytes : List UInt8) :
    bigEndian bytes.length (ofBigEndian bytes) = bytes :=
  bigEndian_foldl bytes 0

theorem ofBigEndian_inj {xs ys : List UInt8} (hlength : xs.length = ys.length) :
    ofBigEndian xs = ofBigEndian ys ↔ xs = ys := by
  refine ⟨fun h => ?_, congrArg ofBigEndian⟩
  rw [← bigEndian_ofBigEndian xs, ← bigEndian_ofBigEndian ys, h, hlength]

theorem ofBigEndian_lt (bytes : List UInt8) : ofBigEndian bytes < 1 <<< (8 * bytes.length) := by
  have hnone := foldl_shiftRight bytes 0
  rw [Nat.shiftRight_eq_div_pow, Nat.div_eq_zero_iff] at hnone
  rw [Nat.shiftLeft_eq, Nat.one_mul]
  exact hnone.resolve_left (Nat.ne_of_gt (Nat.two_pow_pos _))

theorem finds_getNat (count : Nat) :
    (getNat count).Finds fun n xs => xs = bigEndian count n ∧ n < 1 <<< (8 * count) := by
  refine (finds_take count).map _ ?_
  rintro data _ ⟨rfl, rfl⟩
  exact ⟨(bigEndian_ofBigEndian _).symm, ofBigEndian_lt _⟩

theorem finds_getUInt8 : getUInt8.Finds fun b xs => xs = [b] := by
  refine (finds_getNat 1).map _ ?_
  rintro n _ ⟨rfl, -⟩
  rfl

theorem finds_getUInt16 : getUInt16.Finds fun n xs => xs = bigEndian 2 n.toNat := by
  refine (finds_getNat 2).map _ ?_
  rintro n _ ⟨rfl, hn⟩
  rw [UInt16.toNat_ofNat_of_lt' hn]

theorem finds_getUInt32 : getUInt32.Finds fun n xs => xs = bigEndian 4 n.toNat := by
  refine (finds_getNat 4).map _ ?_
  rintro n _ ⟨rfl, hn⟩
  rw [UInt32.toNat_ofNat_of_lt' hn]

theorem finds_getUInt64 : getUInt64.Finds fun n xs => xs = bigEndian 8 n.toNat := by
  refine (finds_getNat 8).map _ ?_
  rintro n _ ⟨rfl, hn⟩
  rw [UInt64.toNat_ofNat_of_lt' hn]

theorem finds_getInt8 : getInt8.Finds fun n xs => xs = [n.toUInt8] :=
  finds_getUInt8.map _ fun _ _ h => h

theorem finds_getInt16 : getInt16.Finds fun n xs => xs = bigEndian 2 n.toUInt16.toNat :=
  finds_getUInt16.map _ fun _ _ h => h

theorem finds_getInt32 : getInt32.Finds fun n xs => xs = bigEndian 4 n.toUInt32.toNat :=
  finds_getUInt32.map _ fun _ _ h => h

theorem finds_getInt64 : getInt64.Finds fun n xs => xs = bigEndian 8 n.toUInt64.toNat :=
  finds_getUInt64.map _ fun _ _ h => h

/-- Any byte but zero stands for `true`. -/
theorem finds_getBool :
    getBool.Finds fun b xs => ∃ byte : UInt8, xs = [byte] ∧ b = decide (byte ≠ 0) :=
  finds_getUInt8.map _ fun byte _ h => ⟨byte, h, rfl⟩

/-- A length that is read is not negative. -/
theorem finds_getLength : getLength.Finds fun n xs => xs = putLength n ∧ FitsPrefix n := by
  refine finds_getInt32.bind ?_
  rintro n _ rfl
  split
  · exact .fail ..
  · next hpos =>
      refine .pure ⟨?_, n.toNatClampNeg_lt⟩
      rw [List.append_nil, putLength, Int32.toNat_toUInt32_of_le (Int32.not_lt.mp hpos)]

theorem finds_getBytes :
    getBytes.Finds fun data xs => xs = putBytes data ∧ FitsPrefix data.length := by
  refine finds_getLength.bind ?_
  rintro length _ ⟨rfl, hfits⟩
  intro bytes data rest h
  obtain ⟨xs, rfl, rfl, rfl⟩ := finds_take _ h
  exact ⟨_, rfl, rfl, hfits⟩

end Wire

/-! ### Texts -/

namespace Utf16

/-- A pair of surrogates is that of the character which it stands for. -/
theorem unitsOf_pair {u v : UInt16} (hu : isHigh u) (hv : isLow v) :
    unitsOf (pair u v) = [u, v] := by
  obtain ⟨hu, hu'⟩ := isHigh_iff.mp hu
  obtain ⟨hv, hv'⟩ := isLow_iff.mp hv
  have hnat : (pair u v).toNat =
      0x10000 + (u.toNat - 0xD800) * 0x400 + (v.toNat - 0xDC00) := by
    rw [pair, Char.ofNat, dif_pos (.inr ⟨by omega, by omega⟩)]
    rfl
  have hfirst : 0xD800 + ((pair u v).toNat - 0x10000) / 0x400 = u.toNat := by omega
  have hsecond : 0xDC00 + ((pair u v).toNat - 0x10000) % 0x400 = v.toNat := by omega
  rw [unitsOf, if_neg (by omega), hfirst, hsecond, UInt16.ofNat_toNat, UInt16.ofNat_toNat]

/-- A unit that is no surrogate is that of the character which it stands for. -/
theorem unitsOf_unit {u : UInt16} (hhigh : ¬isHigh u) (hlow : ¬isLow u) :
    unitsOf (Char.ofNat u.toNat) = [u] := by
  rw [isHigh_iff] at hhigh
  rw [isLow_iff] at hlow
  have hlt := u.toNat_lt
  have hvalid : u.toNat.isValidChar := by
    rw [Nat.isValidChar]
    omega
  have hnat : (Char.ofNat u.toNat).toNat = u.toNat := by
    rw [Char.ofNat, dif_pos hvalid]
    rfl
  rw [unitsOf, hnat, if_pos hlt, UInt16.ofNat_toNat]

/-- **Units are those of the text that they spell.** -/
theorem encode_of_decode? {units : List UInt16} {text : List Char}
    (h : decode? units = some text) : encode text = units := by
  have hcons : ∀ (c : Char) (text : List Char),
      encode (c :: text) = unitsOf c ++ encode text := fun _ _ => rfl
  fun_induction decode? units generalizing text with
  | case1 =>
      cases h
      rfl
  | case2 u hhigh v rest hlow ih =>
      obtain ⟨text', htext', rfl⟩ := Option.map_eq_some_iff.mp h
      rw [hcons, unitsOf_pair hhigh hlow, ih htext']
      rfl
  | case3 => cases h
  | case4 => cases h
  | case5 => cases h
  | case6 u rest hhigh hlow ih =>
      obtain ⟨text', htext', rfl⟩ := Option.map_eq_some_iff.mp h
      rw [hcons, unitsOf_unit hhigh hlow, ih htext']
      rfl

end Utf16

namespace Wire

open Reader

/-- An even number of bytes is that of the units which they spell. -/
theorem unitBytes_ofUnitBytes {bytes : List UInt8} (h : bytes.length % 2 = 0) :
    unitBytes (ofUnitBytes bytes) = bytes := by
  fun_induction ofUnitBytes bytes with
  | case1 low high rest ih =>
      have hlow := low.toNat_lt
      have hhigh := high.toNat_lt
      have hunit : (UInt16.ofNat (low.toNat + 256 * high.toNat)).toNat =
          low.toNat + 256 * high.toNat :=
        UInt16.toNat_ofNat_of_lt' (by simp only [UInt16.size]; omega)
      have hfirst : (low.toNat + 256 * high.toNat) % 256 = low.toNat := by omega
      have hsecond : (low.toNat + 256 * high.toNat) / 256 = high.toNat := by omega
      have hcons : ∀ (u : UInt16) (units : List UInt16), unitBytes (u :: units) =
          UInt8.ofNat (u.toNat % 256) :: UInt8.ofNat (u.toNat / 256) :: unitBytes units :=
        fun _ _ => rfl
      rw [List.length_cons, List.length_cons] at h
      rw [hcons, hunit, hfirst, hsecond, UInt8.ofNat_toNat, UInt8.ofNat_toNat, ih (by omega)]
  | case2 bytes hshort =>
      match bytes with
      | [] => rfl
      | [_] => cases h
      | low :: high :: rest => exact absurd rfl (hshort low high rest)

theorem finds_getText :
    getText.Finds fun s xs => xs = putText s ∧ FitsPrefix (textLength s) := by
  refine finds_getLength.bind ?_
  rintro length _ ⟨rfl, hfits⟩
  split
  · exact .fail ..
  · next heven =>
      refine (finds_take length).bind ?_
      rintro _ bytes ⟨rfl, rfl⟩
      split
      · next text htext =>
          have hunits := Utf16.encode_of_decode? htext
          have hbytes := unitBytes_ofUnitBytes (Decidable.not_not.mp heven)
          have hlength : textLength (String.ofList text) = bytes.length := by
            rw [← length_textUnits, String.toList_ofList, hunits, hbytes]
          refine .pure ⟨?_, ?_⟩
          · rw [putText, hlength, String.toList_ofList, hunits, hbytes, List.append_nil]
          · rw [hlength]
            exact hfits
      · exact .fail ..

end Wire

end Courier
