import Courier.Text.Classes

/-!
# Quoted Text

Error messages show a piece of text between double quotes. Quotes and backslashes are escaped,
four controls have short escapes, and every other unprintable character is spelled by its code
point, so that the message is one printable line whatever the text holds.

## Main definitions

* `Text.escape`: the written form of one character.
* `Text.quoted`: the written form of a text, with its quotes.
-/

namespace Courier.Text

/-- The written form of a character inside double quotes. -/
def escape (c : Char) : List Char :=
  if c = '"' then ['\\', '"']
  else if c = '\\' then ['\\', '\\']
  else if c = '\n' then ['\\', 'n']
  else if c = '\r' then ['\\', 'r']
  else if c = '\t' then ['\\', 't']
  else if c.toNat = 0 then ['\\', '0']
  else if isUnprintable c then
    ['\\', 'u', '\x7b'] ++ Nat.toDigits 16 c.toNat ++ ['\x7d']
  else [c]

/-- A text as error messages show it: escaped and between double quotes. -/
def quoted (s : String) : String :=
  String.ofList ('"' :: s.toList.flatMap escape ++ ['"'])

end Courier.Text
