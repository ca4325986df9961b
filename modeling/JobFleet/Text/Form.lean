import JobFleet.Text.Blank
import JobFleet.Text.Utf8

/-!
# Form encoding

A list of named values as one text: pieces between ampersands, each a name and perhaps an equals
sign and a value. A plus sign is a blank, and escapes stand for bytes.
-/

namespace JobFleet.Text

/-- One name or value: a plus sign is a blank, escapes stand for bytes, read leniently. -/
def formText (cs : List Char) : String :=
  let spaced := String.ofList (cs.map fun c => if c = '+' then ' ' else c)
  String.ofList (lenient (unescape spaced.toUTF8.toList))

/-- The named values of a text; empty pieces do not count, a name alone has an empty value. -/
def formPairs (s : String) : List (String × String) :=
  let pieces := (splitChars '&' s.toList).filter fun piece => !piece.isEmpty
  pieces.map fun piece =>
    (formText (piece.takeWhile (· ≠ '=')), formText ((piece.dropWhile (· ≠ '=')).drop 1))

end JobFleet.Text
