import JobFleet.Text.CodePoints

/-!
# Blank space

The characters of the property White_Space, and texts without it at their ends.
-/

namespace JobFleet.Text

/-- Blank characters: tabs, line ends, spaces of every width and both separators. -/
def blank : CodePoints :=
  ⟨[(0x9, 0xd), (0x20, 0x20), (0x85, 0x85), (0xa0, 0xa0), (0x1680, 0x1680), (0x2000, 0x200a),
    (0x2028, 0x2029), (0x202f, 0x202f), (0x205f, 0x205f), (0x3000, 0x3000)]⟩

/-- The characters of a text without the blank ones at either end. -/
def trimChars (cs : List Char) : List Char :=
  ((cs.dropWhile blank.contains).reverse.dropWhile blank.contains).reverse

/-- A text without the blank characters at either end. -/
def trim (s : String) : String := String.ofList (trimChars s.toList)

/-- Whether a text has no character that is not blank. -/
def isBlank (s : String) : Bool := s.toList.all blank.contains

/-- A text with its ASCII capitals in lower case and all else unchanged. -/
def asciiLower (s : String) : String := String.ofList (s.toList.map Char.toLower)

/-- The parts of a text between the occurrences of a character; one part if there is none. -/
def splitChars (sep : Char) : List Char → List (List Char)
  | [] => [[]]
  | c :: rest =>
      if c = sep then [] :: splitChars sep rest
      else match splitChars sep rest with
        | [] => [[c]]
        | part :: parts => (c :: part) :: parts

/-- The parts of a text between the occurrences of a character. -/
def split (sep : Char) (s : String) : List String :=
  (splitChars sep s.toList).map String.ofList

end JobFleet.Text
