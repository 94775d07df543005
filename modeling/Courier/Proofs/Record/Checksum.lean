import Courier.Record.Checksum
import Mathlib.Logic.Function.Basic

/-!
# What the Checksum Tells Apart

No step of the division loses anything: the register before a step can be told from the one after
it, since the divisor has its highest bit where the register was emptied. A byte that comes in
therefore leaves its trace, whatever comes behind it, and two sequences of bytes that differ in one
place have different checksums.

## Main results

* `Checksum.push_injective_left`, `Checksum.push_injective_right`: the register and the byte that
  came in, each as long as the other is known.
* `Checksum.ofBytes_set_eq_iff`: a byte decides the checksum when all others are known.
-/

namespace Courier.Checksum

theorem toNat_shiftRight_one (register : UInt32) :
    (register >>> 1).toNat = register.toNat / 2 := by
  rw [UInt32.toNat_shiftRight]
  simp [Nat.shiftRight_eq_div_pow]

theorem and_one_eq_one_iff (register : UInt32) :
    register &&& 1 = 1 ↔ register.toNat % 2 = 1 := by
  rw [← UInt32.toNat_inj, UInt32.toNat_and]
  simp [Nat.and_one_is_mod]

/-- The divisor has a bit where a register that was shifted has none. -/
theorem xor_divisor_ne (r s : UInt32) : (r >>> 1) ^^^ divisor ≠ s >>> 1 := by
  intro h
  have hdivisor : divisor = (r >>> 1) ^^^ (s >>> 1) := by
    rw [← h, ← UInt32.xor_assoc, UInt32.xor_self, UInt32.zero_xor]
  have hlt : (r >>> 1 ^^^ s >>> 1).toNat < 2 ^ 31 := by
    rw [UInt32.toNat_xor, toNat_shiftRight_one, toNat_shiftRight_one]
    have hr := r.toNat_lt
    have hs := s.toNat_lt
    exact Nat.xor_lt_two_pow (by omega) (by omega)
  rw [← hdivisor] at hlt
  exact absurd hlt (by decide)

/-- The register before a step can be told from the one after it. -/
theorem shift_injective : Function.Injective shift := by
  intro r s h
  simp only [shift, and_one_eq_one_iff] at h
  obtain ⟨hhigh, hlow⟩ : r >>> 1 = s >>> 1 ∧ r.toNat % 2 = s.toNat % 2 := by
    split at h <;> split at h
    · next hr hs => exact ⟨(UInt32.xor_left_inj divisor).mp h, hr.trans hs.symm⟩
    · exact absurd h (xor_divisor_ne r s)
    · exact absurd h.symm (xor_divisor_ne s r)
    · exact ⟨h, by omega⟩
  have hnat := congrArg UInt32.toNat hhigh
  rw [toNat_shiftRight_one, toNat_shiftRight_one] at hnat
  exact UInt32.toNat_inj.mp (by omega)

theorem shifts_injective (n : Nat) : Function.Injective (shifts n) := by
  induction n with
  | zero => exact Function.injective_id
  | succ n ih => exact ih.comp shift_injective

/-- What the register held is not lost when a byte comes in. -/
theorem push_injective_left (b : UInt8) : Function.Injective fun register => push register b :=
  (shifts_injective 8).comp fun _ _ h => (UInt32.xor_left_inj _).mp h

/-- Different bytes leave different registers. -/
theorem push_injective_right (register : UInt32) : Function.Injective (push register) :=
  (shifts_injective 8).comp fun _ _ h => UInt8.toUInt32_inj.mp ((UInt32.xor_right_inj _).mp h)

theorem foldl_push_injective (bytes : List UInt8) : Function.Injective (bytes.foldl push) := by
  induction bytes with
  | nil => exact Function.injective_id
  | cons b bytes ih => exact ih.comp (push_injective_left b)

theorem ofBytes_append_cons_inj {before after : List UInt8} {a b : UInt8} :
    ofBytes (before ++ a :: after) = ofBytes (before ++ b :: after) ↔ a = b := by
  rw [ofBytes, ofBytes, UInt32.xor_left_inj, List.foldl_append, List.foldl_append,
    List.foldl_cons, List.foldl_cons, (foldl_push_injective after).eq_iff,
    (push_injective_right _).eq_iff]

/-- **A single byte decides the checksum** when all others are known. -/
theorem ofBytes_set_eq_iff (before after : List UInt8) {part : List UInt8} {offset : Nat}
    (h : offset < part.length) (b : UInt8) :
    ofBytes (before ++ part.set offset b ++ after) = ofBytes (before ++ part ++ after) ↔
      b = part[offset] := by
  have hset : before ++ part.set offset b ++ after =
      (before ++ part.take offset) ++ b :: (part.drop (offset + 1) ++ after) := by
    rw [List.set_eq_take_append_cons_drop, if_pos h]
    simp only [List.append_assoc, List.cons_append]
  have hself : before ++ part ++ after =
      (before ++ part.take offset) ++ part[offset] :: (part.drop (offset + 1) ++ after) := by
    rw [← List.cons_append, ← List.drop_eq_getElem_cons h, List.append_assoc, List.append_assoc,
      ← List.append_assoc (part.take offset), List.take_append_drop]
  rw [hset, hself]
  exact ofBytes_append_cons_inj

end Courier.Checksum
