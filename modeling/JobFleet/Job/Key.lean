import JobFleet.DomainError
import JobFleet.Text.Blank

/-!
# Job keys

A job is named by a text with at least one visible character. Two jobs of one key are the same
job to every worker of the fleet.
-/

namespace JobFleet

/-- The name of a job. -/
structure JobKey where
  text : String
  visible : Text.isBlank text = false
deriving DecidableEq, Repr

namespace JobKey

@[ext] theorem ext {a b : JobKey} (h : a.text = b.text) : a = b := by
  cases a; cases b; cases h; rfl

/-- The fault of a blank name. -/
def blankFault : DomainError := .invalidId "JobKey: must not be empty"

/-- Takes any text that is not blank. -/
def ofText (s : String) : Except DomainError JobKey :=
  match h : Text.isBlank s with
  | false => .ok ⟨s, h⟩
  | true => .error blankFault

/-- The store key of a job's status. -/
def statusKey (k : JobKey) : String := "job:status:" ++ k.text

end JobKey

end JobFleet
