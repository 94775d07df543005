/-!
# Binary Floating-Point Formats

A binary format stores a number as a sign, a biased exponent and a fraction. This module reads
such bit patterns as exact values `m * 2 ^ e` and rounds exact fractions to the nearest pattern,
a tie going to the even one. Bit patterns are natural numbers here; which word type holds them
is left to the caller.

## Main definitions

* `BinaryFormat`, with the two formats `BinaryFormat.single` and `BinaryFormat.double`.
* `BinaryFormat.decode`: what a bit pattern stands for.
* `BinaryFormat.round`: the pattern nearest to a fraction.
* `BinaryFormat.widen`: a single-precision pattern in double precision.
-/

namespace Courier

/-- A binary format by the widths of its two fields. -/
structure BinaryFormat where
  /-- The number of fraction bits that are stored. -/
  fractionBits : Nat
  /-- The number of exponent bits. -/
  exponentBits : Nat
  deriving DecidableEq, Repr

/-- What a bit pattern stands for. -/
inductive BinaryValue where
  /-- No number. -/
  | nan
  /-- An infinity with a sign. -/
  | infinite (negative : Bool)
  /-- The number `m * 2 ^ e` with a sign. -/
  | finite (negative : Bool) (m : Nat) (e : Int)
  deriving DecidableEq, Repr

/-- The quotient rounded to the nearest integer, a tie going to the even one. -/
def roundQuotient (num den : Nat) : Nat :=
  let q := num / den
  let twice := 2 * (num % den)
  if den < twice ∨ (twice = den ∧ q % 2 = 1) then q + 1 else q

namespace BinaryFormat

/-- Single precision, 32 bits. -/
def single : BinaryFormat := ⟨23, 8⟩

/-- Double precision, 64 bits. -/
def double : BinaryFormat := ⟨52, 11⟩

/-- The exponent of the least positive number. -/
def leastExponent (f : BinaryFormat) : Int :=
  2 - (1 <<< (f.exponentBits - 1) : Nat) - f.fractionBits

/-- The pattern of positive infinity, which is above those of all positive numbers. -/
def infinity (f : BinaryFormat) : Nat :=
  (1 <<< f.exponentBits - 1) <<< f.fractionBits

/-- The sign bit. -/
def signBit (f : BinaryFormat) : Nat :=
  1 <<< (f.exponentBits + f.fractionBits)

/-- The pattern of the value that is no number, without a payload. -/
def quietNan (f : BinaryFormat) : Nat :=
  f.infinity + 1 <<< (f.fractionBits - 1)

/-- A pattern with the sign put in. -/
def withSign (f : BinaryFormat) (negative : Bool) (magnitude : Nat) : Nat :=
  if negative then f.signBit + magnitude else magnitude

/-- What a bit pattern stands for. -/
def decode (f : BinaryFormat) (bits : Nat) : BinaryValue :=
  let negative : Bool := bits / f.signBit % 2 = 1
  let fraction := bits % 1 <<< f.fractionBits
  let exponent := bits >>> f.fractionBits % 1 <<< f.exponentBits
  if exponent = 1 <<< f.exponentBits - 1 then
    if fraction = 0 then .infinite negative else .nan
  else if exponent = 0 then .finite negative fraction f.leastExponent
  else .finite negative (1 <<< f.fractionBits + fraction) (f.leastExponent + (exponent - 1 : Nat))

/-- The pattern nearest to `num / den`; values above the range become infinity. The exponent is
chosen so that the rounded significand fits, and a carry out of it moves into the exponent
field by itself, because the two fields are adjacent. -/
def round (f : BinaryFormat) (num den : Nat) : Nat :=
  if num = 0 then 0
  else
    let guess : Int := (num.log2 : Int) - den.log2
    let top : Int :=
      if den <<< guess.toNat ≤ num <<< (-guess).toNat then guess else guess - 1
    let e := max f.leastExponent (top - f.fractionBits)
    let significand := roundQuotient (num <<< (-e).toNat) (den <<< e.toNat)
    min f.infinity ((e - f.leastExponent).toNat <<< f.fractionBits + significand)

/-- A single-precision pattern in double precision. Numbers keep their value; what is no number
keeps its sign and payload and is marked as quiet. -/
def widen (bits : Nat) : Nat :=
  match single.decode bits with
  | .nan =>
    let payload := (bits % 1 <<< single.fractionBits) <<< 29
    let quiet := 1 <<< (double.fractionBits - 1)
    double.withSign (bits / single.signBit % 2 = 1)
      (double.infinity + (if payload < quiet then payload + quiet else payload))
  | .infinite negative => double.withSign negative double.infinity
  | .finite negative m e =>
    double.withSign negative (double.round (m <<< e.toNat) (1 <<< (-e).toNat))

end BinaryFormat

end Courier
