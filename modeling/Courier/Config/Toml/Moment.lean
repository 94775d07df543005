import Courier.Config.Toml.Text

/-!
# Dates and Times in TOML

A date, a time of day, or both with a letter or a blank between them; behind both may stand the
distance from universal time. A date and a time stand in a configuration for their text in one
fixed form: a capital letter between date and time, a fraction of at most nine digits without
zeros at its end, and a sign before a distance that is zero.

## Main definitions

* `Toml.readDate?`, `Toml.readTime?`: the two parts.
* `Toml.readMoment?`: the text of a date, a time or both.
-/

namespace Courier.Config.Toml

/-- The number that decimal digits spell. -/
def valueOf (digits : List Char) : Nat :=
  digits.foldl (fun n c => n * 10 + (Hex.digit? c).getD 0) 0

/-- Reads digits of a given number, which spell a number within bounds. -/
def readField? (width low high : Nat) (text : List Char) : Option (List Char × List Char) :=
  let digits := text.take width
  if digits.length = width ∧ digits.all Char.isDigit ∧ low ≤ valueOf digits ∧
      valueOf digits ≤ high then
    some (digits, text.drop width)
  else none

/-- Takes a character from the front of a text. -/
def dropChar? (c : Char) : List Char → Option (List Char)
  | d :: rest => if c = d then some rest else none
  | [] => none

/-- The number of days in a month of a year. -/
def daysIn (year month : Nat) : Nat :=
  if month = 2 then
    if year % 4 = 0 ∧ (year % 100 ≠ 0 ∨ year % 400 = 0) then 29 else 28
  else if month = 4 ∨ month = 6 ∨ month = 9 ∨ month = 11 then 30
  else 31

/-- Reads a date. -/
def readDate? (text : List Char) : Option (List Char × List Char) := do
  let (year, rest) ← readField? 4 0 9999 text
  let (month, rest) ← readField? 2 1 12 (← dropChar? '-' rest)
  let (day, rest) ← readField? 2 1 (daysIn (valueOf year) (valueOf month)) (← dropChar? '-' rest)
  some (year ++ '-' :: month ++ '-' :: day, rest)

/-- Reads the fraction of a second, if there is one. -/
def takeFraction : List Char → List Char × List Char
  | '.' :: rest =>
    let digits := rest.takeWhile Char.isDigit
    if digits.isEmpty then ([], '.' :: rest)
    else
      let kept := ((digits.take 9).reverse.dropWhile (· = '0')).reverse
      (if kept.isEmpty then [] else '.' :: kept, rest.dropWhile Char.isDigit)
  | rest => ([], rest)

/-- Reads hours and minutes. -/
def readClock? (text : List Char) : Option (List Char × List Char) := do
  let (hour, rest) ← readField? 2 0 23 text
  let (minute, rest) ← readField? 2 0 59 (← dropChar? ':' rest)
  some (hour ++ ':' :: minute, rest)

/-- Reads a time of day, in which a minute may have a leap second. -/
def readTime? (text : List Char) : Option (List Char × List Char) := do
  let (clock, rest) ← readClock? text
  let (second, rest) ← readField? 2 0 60 (← dropChar? ':' rest)
  let (fraction, rest) := takeFraction rest
  some (clock ++ ':' :: second ++ fraction, rest)

/-- Takes the distance from universal time from the front of a text, if it stands there. -/
def takeOffset : List Char → List Char × List Char
  | 'Z' :: rest | 'z' :: rest => (['Z'], rest)
  | sign :: rest =>
    match readClock? rest with
    | some (clock, rest') =>
      if sign = '+' ∨ (sign = '-' ∧ clock = "00:00".toList) then ('+' :: clock, rest')
      else if sign = '-' then ('-' :: clock, rest')
      else ([], sign :: rest)
    | none => ([], sign :: rest)
  | [] => ([], [])

/-- Reads the time that stands behind a date, if one does. -/
def takeTime : List Char → List Char × List Char
  | [] => ([], [])
  | mark :: rest =>
    match readTime? rest with
    | some (time, rest') =>
      if mark = 'T' ∨ mark = 't' ∨ mark = ' ' then
        let (offset, rest') := takeOffset rest'
        ('T' :: time ++ offset, rest')
      else ([], mark :: rest)
    | none => ([], mark :: rest)

/-- Reads a date, a time or both as their text. -/
def readMoment? (text : List Char) : Option (String × List Char) :=
  match readDate? text with
  | some (date, rest) =>
    let (time, rest) := takeTime rest
    some (String.ofList (date ++ time), rest)
  | none => (readTime? text).map fun (time, rest) => (String.ofList time, rest)

end Courier.Config.Toml
