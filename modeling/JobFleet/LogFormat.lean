import JobFleet.Text.Blank

/-!
# Log formats

Log lines are written one document each, or for people to read.
-/

namespace JobFleet

/-- How log lines are written. -/
inductive LogFormat
  | json
  | pretty
deriving DecidableEq, Repr

/-- A word that names no log format, in lower case and without blanks around it. -/
structure UnknownLogFormat where
  word : String
deriving DecidableEq, Repr

/-- The wording of the fault. -/
def UnknownLogFormat.message (e : UnknownLogFormat) : String :=
  "unknown log format `" ++ e.word ++ "` (expected `json` or `pretty`)"

namespace LogFormat

/-- The format used where none is chosen. -/
def usual : LogFormat := .json

/-- The word for a format. -/
def text : LogFormat → String
  | .json => "json"
  | .pretty => "pretty"

/-- The format with a given word. -/
def ofText? (s : String) : Option LogFormat :=
  if s = "json" then some .json
  else if s = "pretty" then some .pretty
  else none

/-- Reads a format in any case and with blanks around it. -/
def read (s : String) : Except UnknownLogFormat LogFormat :=
  let word := Text.asciiLower (Text.trim s)
  match ofText? word with
  | some f => .ok f
  | none => .error ⟨word⟩

theorem ofText?_text (f : LogFormat) : ofText? f.text = some f := by cases f <;> rfl

end LogFormat

end JobFleet
