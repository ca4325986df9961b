import JobFleet.DomainError
import JobFleet.Text.Blank

/-!
# Failure policies

What an unreachable store means for a limit check: an open policy lets the caller through, a
closed one does not. The word in settings and the word in stored documents differ.
-/

namespace JobFleet

/-- What an unreachable store means for a limit check. -/
inductive FailurePolicy
  | failOpen
  | failClosed
deriving DecidableEq, Repr

namespace FailurePolicy

/-- The word in settings and log lines. -/
def text : FailurePolicy → String
  | .failOpen => "open"
  | .failClosed => "closed"

/-- The word in documents. -/
def formalText : FailurePolicy → String
  | .failOpen => "fail_open"
  | .failClosed => "fail_closed"

/-- The policy with a given word in documents. -/
def ofFormalText? (s : String) : Option FailurePolicy :=
  if s = "fail_open" then some .failOpen
  else if s = "fail_closed" then some .failClosed
  else none

/-- Reads a policy in any of its spellings, in any case and with blanks around it. -/
def read (s : String) : Except DomainError FailurePolicy :=
  let w := Text.asciiLower (Text.trim s)
  if w = "open" ∨ w = "fail_open" ∨ w = "fail-open" then .ok .failOpen
  else if w = "closed" ∨ w = "fail_closed" ∨ w = "fail-closed" then .ok .failClosed
  else .error (.validation ("unknown rate-limit failure policy: " ++ w))

theorem ofFormalText?_formalText (p : FailurePolicy) : ofFormalText? p.formalText = some p := by
  cases p <;> rfl

end FailurePolicy

end JobFleet
