/-!
# Integer Texts

Integers are written in decimal with a minus sign in front of negative ones, and read with an
optional sign. A text is read from left to right, and the first thing that goes wrong decides
the fault: a character that is no digit, or a digit that takes the value out of the range.

## Main definitions

* `IntegerFault`: why a text is no integer of a range.
* `Integer.read`: the integer that a text stands for, within a range.
-/

namespace Courier

/-- Why a text is no integer of the range asked for. -/
inductive IntegerFault where
  /-- The text is empty. -/
  | empty
  /-- A character is no digit, or there is a sign without digits. -/
  | invalidDigit
  /-- The value is above the range. -/
  | tooLarge
  /-- The value is below the range. -/
  | tooSmall
  deriving DecidableEq, Repr

/-- The report of an integer fault. -/
def IntegerFault.message : IntegerFault → String
  | .empty => "cannot parse integer from empty string"
  | .invalidDigit => "invalid digit found in string"
  | .tooLarge => "number too large to fit in target type"
  | .tooSmall => "number too small to fit in target type"

namespace Integer

/-- The value of a decimal digit. -/
def digit? (c : Char) : Option Nat :=
  if '0' ≤ c ∧ c ≤ '9' then some (c.toNat - '0'.toNat) else none

/-- Reads digits after a value that has been read already, up to a bound. -/
def readUpTo (bound : Nat) : Nat → List Char → Except IntegerFault Nat
  | value, [] => .ok value
  | value, c :: rest =>
    match digit? c with
    | none => .error .invalidDigit
    | some d =>
      if value * 10 + d ≤ bound then readUpTo bound (value * 10 + d) rest
      else .error .tooLarge

/-- Reads the digits of a magnitude, of which there has to be one at least. -/
def readMagnitude (bound : Nat) : List Char → Except IntegerFault Nat
  | [] => .error .invalidDigit
  | digits => readUpTo bound 0 digits

/-- The integer from `-below` to `above` that a text stands for. -/
def read (below above : Nat) : List Char → Except IntegerFault Int
  | [] => .error .empty
  | '-' :: digits =>
    match readMagnitude below digits with
    | .ok n => .ok (-n)
    | .error .tooLarge => .error .tooSmall
    | .error fault => .error fault
  | '+' :: digits => (readMagnitude above digits).map Int.ofNat
  | digits => (readUpTo above 0 digits).map Int.ofNat

/-- The signed integer of a number of bits that a text stands for. -/
def readSigned (bits : Nat) (text : String) : Except IntegerFault Int :=
  read (1 <<< (bits - 1)) (1 <<< (bits - 1) - 1) text.toList

end Integer

end Courier
