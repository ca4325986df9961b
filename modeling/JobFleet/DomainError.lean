/-!
# Faults of values

A value that breaks a rule of the domain is refused with one of three kinds of fault, each with
a detail in words.
-/

namespace JobFleet

/-- Why a value was refused. -/
inductive DomainError
  | validation (detail : String)
  | invariantViolation (detail : String)
  | invalidId (detail : String)
deriving DecidableEq, Repr

/-- The wording of a fault. -/
def DomainError.message : DomainError → String
  | .validation detail => "validation failed: " ++ detail
  | .invariantViolation detail => "invariant violated: " ++ detail
  | .invalidId detail => "invalid identifier: " ++ detail

end JobFleet
