import JobFleet.Text.Unprintable
import JobFleet.Text.CombiningMark

/-!
# Quoted text for messages

A text inside a message stands between double quotes. Quotes, backslashes, tabs, line ends and
the null character are escaped by a backslash and a letter; combining marks and characters
without a visible form by their code point in hexadecimal between braces.
-/

namespace JobFleet.Text

/-- The hexadecimal digits of a number, small letters, no leading zero. -/
def hexDigits (n : Nat) : List Char := Nat.toDigits 16 n

/-- The code point of a character as an escape. -/
def escapeCodePoint (c : Char) : List Char :=
  '\\' :: 'u' :: Char.ofNat 0x7b :: (hexDigits c.toNat ++ [Char.ofNat 0x7d])

/-- A character as it stands between quotes. -/
def quoteChar (c : Char) : List Char :=
  if c = '"' then ['\\', '"']
  else if c = '\\' then ['\\', '\\']
  else if c = '\t' then ['\\', 't']
  else if c = '\r' then ['\\', 'r']
  else if c = '\n' then ['\\', 'n']
  else if c.toNat = 0 then ['\\', '0']
  else if combiningMark.contains c || unprintable.contains c then escapeCodePoint c
  else [c]

/-- A text between double quotes, escaped where needed. -/
def quoted (s : String) : String :=
  String.ofList ('"' :: (s.toList.flatMap quoteChar ++ ['"']))

end JobFleet.Text
