import JobFleet.Digest.Sha256
import JobFleet.Json.Value
import JobFleet.Number.Integer

/-!
# Writing JSON

The compact text of a document: no blanks, members in their order, and escapes for quotes,
backslashes and control characters alone. A number that is not kept as an integer has a point,
so that it reads back as one that is not.
-/

namespace JobFleet.Json

/-- A character inside a string. -/
def escapeChar (c : Char) : List Char :=
  if c = '"' then ['\\', '"']
  else if c = '\\' then ['\\', '\\']
  else if c = '\n' then ['\\', 'n']
  else if c = '\r' then ['\\', 'r']
  else if c = '\t' then ['\\', 't']
  else if c.toNat < 0x20 then '\\' :: 'u' :: Digest.hexPadded 4 c.toNat
  else [c]

/-- A string between quotes. -/
def stringChars (s : String) : List Char := '"' :: (s.toList.flatMap escapeChar ++ ['"'])

/-- The digits of a number. -/
def Numeral.chars : Numeral → List Char
  | .integer n => (Number.showInteger n).toList
  | .real x =>
      let digits := x.text.toList
      if digits.contains '.' then digits else digits ++ ['.', '0']

/-- Parts with commas between them. -/
def commaSeparated : List (List Char) → List Char
  | [] => []
  | [part] => part
  | part :: rest => part ++ ',' :: commaSeparated rest

mutual

/-- The characters of a document. -/
def Value.chars : Value → List Char
  | .null => ['n', 'u', 'l', 'l']
  | .bool true => ['t', 'r', 'u', 'e']
  | .bool false => ['f', 'a', 'l', 's', 'e']
  | .number n => n.chars
  | .text s => stringChars s
  | .array items => '[' :: (commaSeparated (itemChars items) ++ [']'])
  | .object members =>
      Char.ofNat 0x7b :: (commaSeparated (memberChars members) ++ [Char.ofNat 0x7d])

/-- The characters of each item. -/
def itemChars : List Value → List (List Char)
  | [] => []
  | v :: rest => v.chars :: itemChars rest

/-- The characters of each member. -/
def memberChars : List (String × Value) → List (List Char)
  | [] => []
  | (name, v) :: rest => (stringChars name ++ ':' :: v.chars) :: memberChars rest

end

/-- The text of a document. -/
def Value.render (v : Value) : String := String.ofList v.chars

end JobFleet.Json
