import Courier.Number.Binary
import Courier.Number.Integer

/-!
# Decimal Texts of Floating-Point Numbers

A floating-point number is written with the fewest digits that read back as the same number;
of several such digit strings the nearest to the number is taken, and of two equally near ones
the larger. The digits do not depend on how they are laid out, so a layout is a value of its
own: `FloatStyle` says which exponents are written positionally and how the others are marked.

Reading goes through the exact value of the text and rounds once.

## Main definitions

* `Decimal`: a coefficient times a power of ten.
* `BinaryFormat.shortest`: the fewest digits that read back as a positive number.
* `FloatStyle`, `FloatStyle.write`: a layout, and a number written in it.
* `Decimal.read?`: the decimal that a text stands for.
* `BinaryFormat.read`: the bit pattern that a text stands for.
-/

namespace Courier

/-- The number `coefficient * 10 ^ exponent`. -/
structure Decimal where
  /-- The digits. -/
  coefficient : Nat
  /-- The place of the last digit. -/
  exponent : Int
  deriving DecidableEq, Repr

namespace Decimal

/-- The digits of the coefficient. -/
def digits (d : Decimal) : List Char :=
  Nat.toDigits 10 d.coefficient

/-- The power of ten of the first digit. -/
def magnitude (d : Decimal) : Int :=
  d.exponent + d.digits.length - 1

/-- Moves zeros at the end of the coefficient into the exponent, as many as the first argument
allows. -/
def trimZeros : Nat → Decimal → Decimal
  | 0, d => d
  | n + 1, d =>
    if d.coefficient ≠ 0 ∧ d.coefficient % 10 = 0 then
      trimZeros n ⟨d.coefficient / 10, d.exponent + 1⟩
    else d

end Decimal

namespace BinaryFormat

/-- The least `k` with `num / den < 10 ^ k`, for a positive fraction. -/
def decimalSize (num den : Nat) : Int :=
  let guess : Int := ((num.log2 : Int) - den.log2) * 30103 / 100000
  let fits (k : Int) : Bool := num * Nat.pow 10 (-k).toNat < den * Nat.pow 10 k.toNat
  if fits guess then guess else if fits (guess + 1) then guess + 1 else guess + 2

/-- Of the two neighbours of a positive number among the decimals with `n` digits, the one that
reads back as the number, and the nearer one if both do. The number and the ends of the interval
that rounds to it are multiples of `scale / den`. -/
def shortestWith (value low high scale den : Nat) (ends : Bool) (size : Int) (n : Nat) :
    Option Decimal :=
  let unit : Int := size - n
  let up := scale * Nat.pow 10 (-unit).toNat
  let down := den * Nat.pow 10 unit.toNat
  let q := value * up / down
  let within (c : Nat) : Bool :=
    if ends then low * up ≤ c * down && c * down ≤ high * up
    else low * up < c * down && c * down < high * up
  match within q, within (q + 1) with
  | true, true =>
    if 2 * (value * up) < (2 * q + 1) * down then some ⟨q, unit⟩ else some ⟨q + 1, unit⟩
  | true, false => some ⟨q, unit⟩
  | false, true => some ⟨q + 1, unit⟩
  | false, false => none

/-- The fewest digits that read back as the positive number `m * 2 ^ e`. -/
def shortest (f : BinaryFormat) (m : Nat) (e : Int) : Decimal :=
  let value := 4 * m
  let high := 4 * m + 2
  let low := if m = 1 <<< f.fractionBits ∧ f.leastExponent < e then 4 * m - 1 else 4 * m - 2
  let scale := 1 <<< (e - 2).toNat
  let den := 1 <<< (2 - e).toNat
  let size := decimalSize (value * scale) den
  let found := (List.range 17).findSome? fun n =>
    shortestWith value low high scale den (m % 2 = 0) size (n + 1)
  (found.getD ⟨value * scale / den, 0⟩).trimZeros 400

end BinaryFormat

/-- How the digits of a number are laid out. -/
structure FloatStyle where
  /-- The least power of ten of a first digit that is still written positionally. -/
  least : Int
  /-- The first power of ten that is no longer written positionally. -/
  limit : Int
  /-- What stands before the exponent. -/
  mark : String
  /-- Whether a whole mantissa before an exponent still gets a fraction. -/
  fullMantissa : Bool
  /-- What is written for a value that is no number. -/
  nan : String
  /-- What is written for infinity. -/
  infinity : String
  deriving DecidableEq, Repr

namespace FloatStyle

/-- Digits with the decimal point after some of them, and a zero where a side would be empty. -/
def positional (digits : List Char) (point : Int) : String :=
  if point ≤ 0 then
    "0." ++ String.ofList (List.replicate (-point).toNat '0' ++ digits)
  else
    let whole := digits.take point.toNat
    let fraction := digits.drop point.toNat
    String.ofList (whole ++ List.replicate (point.toNat - digits.length) '0') ++ "." ++
      (if fraction.isEmpty then "0" else String.ofList fraction)

/-- Digits with the point after the first of them and the exponent behind. -/
def scientific (style : FloatStyle) (digits : List Char) (magnitude : Int) : String :=
  let fraction := digits.drop 1
  String.ofList (digits.take 1) ++
    (if fraction.isEmpty then (if style.fullMantissa then ".0" else "")
      else "." ++ String.ofList fraction) ++
    style.mark ++ toString magnitude

/-- A positive decimal in the style. -/
def writeDecimal (style : FloatStyle) (d : Decimal) : String :=
  if style.least ≤ d.magnitude ∧ d.magnitude < style.limit then
    positional d.digits (d.magnitude + 1)
  else style.scientific d.digits d.magnitude

/-- The number behind a bit pattern in the style. -/
def write (style : FloatStyle) (f : BinaryFormat) (bits : Nat) : String :=
  let sign (negative : Bool) := if negative then "-" else ""
  match f.decode bits with
  | .nan => style.nan
  | .infinite negative => sign negative ++ style.infinity
  | .finite negative m e =>
    sign negative ++ (if m = 0 then "0.0" else style.writeDecimal (f.shortest m e))

end FloatStyle

/-- Why a text is no floating-point number. -/
inductive FloatFault where
  /-- The text is empty. -/
  | empty
  /-- The text is not empty and stands for no number. -/
  | invalid
  deriving DecidableEq, Repr

/-- The report of a floating-point fault. -/
def FloatFault.message : FloatFault → String
  | .empty => "cannot parse float from empty string"
  | .invalid => "invalid float literal"

namespace Decimal

/-- The number that decimal digits stand for. -/
def ofDigits (digits : List Char) : Nat :=
  digits.foldl (fun n c => n * 10 + (c.toNat - '0'.toNat)) 0

/-- The decimal with the given digits before and after the point and the given exponent. -/
def ofParts (whole fraction : List Char) (exponent : Int) : Decimal :=
  ⟨ofDigits (whole ++ fraction), exponent - fraction.length⟩

/-- An exponent with an optional sign that fills the whole text. -/
def readExponent? (text : List Char) : Option Int :=
  let (negative, digits) : Bool × List Char :=
    match text with
    | '-' :: digits => (true, digits)
    | '+' :: digits => (false, digits)
    | digits => (false, digits)
  if digits.isEmpty || digits.any (!·.isDigit) then none
  else some (if negative then -(ofDigits digits : Int) else ofDigits digits)

/-- The decimal that fills a text: digits with at most one point among them, at least one digit,
and an exponent after `e` or `E`. -/
def read? (text : List Char) : Option Decimal :=
  let whole := text.takeWhile Char.isDigit
  let rest := text.dropWhile Char.isDigit
  let (fraction, rest) : List Char × List Char :=
    match rest with
    | '.' :: rest => (rest.takeWhile Char.isDigit, rest.dropWhile Char.isDigit)
    | rest => ([], rest)
  if whole.isEmpty && fraction.isEmpty then none
  else
    match rest with
    | [] => some (ofParts whole fraction 0)
    | c :: rest =>
      if c = 'e' ∨ c = 'E' then (readExponent? rest).map (ofParts whole fraction) else none

end Decimal

namespace BinaryFormat

/-- The pattern nearest to a decimal. Decimals far outside the range of every format are settled
by their magnitude alone. -/
def ofDecimal (f : BinaryFormat) (d : Decimal) : Nat :=
  if d.coefficient = 0 then 0
  else if 400 < d.magnitude then f.infinity
  else if d.magnitude < -400 then 0
  else f.round (d.coefficient * Nat.pow 10 d.exponent.toNat) (Nat.pow 10 (-d.exponent).toNat)

/-- The magnitude that an unsigned text stands for: a decimal, an infinity or no number, the
last two in any case of their letters. -/
def readMagnitude? (f : BinaryFormat) (text : List Char) : Option Nat :=
  let word := text.map Char.toLower
  if word = "inf".toList ∨ word = "infinity".toList then some f.infinity
  else if word = "nan".toList then some f.quietNan
  else (Decimal.read? text).map f.ofDecimal

/-- The bit pattern that a text stands for, with an optional sign in front. -/
def read (f : BinaryFormat) (text : String) : Except FloatFault Nat :=
  match text.toList with
  | [] => .error .empty
  | '-' :: rest => ((f.readMagnitude? rest).map (f.withSign true)).elim (.error .invalid) .ok
  | '+' :: rest => (f.readMagnitude? rest).elim (.error .invalid) .ok
  | rest => (f.readMagnitude? rest).elim (.error .invalid) .ok

end BinaryFormat

end Courier
