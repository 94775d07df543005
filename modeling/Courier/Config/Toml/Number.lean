import Courier.Config.Toml.Text
import Courier.Config.Tree

/-!
# Numbers in TOML

An integer is written in decimal with an optional sign and without zeros in front, or in base 16,
8 or 2 after a mark. A number with a fraction or an exponent is a floating-point number, as are
the words for infinity and for no number. A single underscore may part the digits of a number.

## Main definitions

* `Toml.readDigits?`: digits with underscores between them.
* `Toml.readNumber?`: integers and floating-point numbers.
-/

namespace Courier.Config.Toml

/-- Reads digits, of which there is at least one, without the underscores between them. -/
def readDigits? (isDigit : Char → Bool) : Reader (List Char)
  | [] => none
  | c :: '_' :: rest =>
    if isDigit c then prepend c (readDigits? isDigit rest) else none
  | c :: rest =>
    if !isDigit c then none
    else if rest.head?.any isDigit then prepend c (readDigits? isDigit rest)
    else some ([c], rest)

/-- Takes a sign from the front of a text, if there is one. -/
def takeSign : List Char → List Char × List Char
  | '-' :: rest => (['-'], rest)
  | '+' :: rest => (['+'], rest)
  | rest => ([], rest)

/-- Reads a decimal integer; one that starts with a zero ends there. -/
def readWhole? (text : List Char) : Option (List Char × List Char) :=
  let (sign, rest) := takeSign text
  match rest with
  | '0' :: rest => some (sign ++ ['0'], rest)
  | rest => (readDigits? Char.isDigit rest).map fun (digits, rest) => (sign ++ digits, rest)

/-- Reads a fraction, if there is one. -/
def readFraction? : Reader (List Char)
  | '.' :: rest => prepend '.' (readDigits? Char.isDigit rest)
  | rest => some ([], rest)

/-- Reads an exponent, if there is one. -/
def readExponent? : Reader (List Char)
  | 'e' :: rest | 'E' :: rest =>
    let (sign, rest) := takeSign rest
    (readDigits? Char.isDigit rest).map fun (digits, rest) => ('e' :: sign ++ digits, rest)
  | rest => some ([], rest)

/-- The floating-point number that a text spells. -/
def floatOf? (text : List Char) : Option Float :=
  match BinaryFormat.double.read (String.ofList text) with
  | .ok bits => some (Float.ofBits (UInt64.ofNat bits))
  | .error _ => none

/-- The integer that a decimal text spells. -/
def integerOf? (text : List Char) : Option Int64 :=
  match Integer.readSigned 64 (String.ofList text) with
  | .ok n => some (Int64.ofInt n)
  | .error _ => none

/-- Reads an infinity or the word for no number. -/
def readSpecial? (text : List Char) : Option (Tree × List Char) := do
  let (sign, rest) := takeSign text
  let word := rest.take 3
  if word = "inf".toList ∨ word = "nan".toList then
    some (.float (← floatOf? (sign ++ word)), rest.drop 3)
  else none

/-- Reads a decimal number. Without a fraction and an exponent it is an integer; a floating-point
number that is too large is no number. -/
def readDecimal? (text : List Char) : Option (Tree × List Char) := do
  let (whole, rest) ← readWhole? text
  let (fraction, rest) ← readFraction? rest
  let (exponent, rest) ← readExponent? rest
  if fraction.isEmpty && exponent.isEmpty then
    some (.integer (← integerOf? whole), rest)
  else
    let x ← floatOf? (whole ++ fraction ++ exponent)
    if x.toBits.toNat = BinaryFormat.double.infinity then none else some (.float x, rest)

/-- Reads an integer in another base than ten after its mark. -/
def readInBase? (base : Nat) (text : List Char) : Option (Tree × List Char) := do
  let (digits, rest) ← readDigits? (fun c => (Hex.digit? c).any (· < base)) text
  let n := digits.foldl (fun n c => n * base + (Hex.digit? c).getD 0) 0
  if n ≤ Int64.maxValue.toInt.toNat then some (.integer (Int64.ofNat n), rest) else none

/-- Reads a number. -/
def readNumber? : Reader Tree
  | '0' :: 'x' :: rest => readInBase? 16 rest
  | '0' :: 'o' :: rest => readInBase? 8 rest
  | '0' :: 'b' :: rest => readInBase? 2 rest
  | text => (readDecimal? text).or (readSpecial? text)

end Courier.Config.Toml
