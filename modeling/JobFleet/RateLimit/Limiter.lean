import JobFleet.RateLimit.Key
import JobFleet.RateLimit.Policy
import JobFleet.Store.Call

/-!
# Attempt limits

A limiter counts failures in fixed windows: the first failure opens the window, later ones do
not move it. Its decisions are functions of what the store answered.
-/

namespace JobFleet

/-- How many failures a window may hold, and what to do without the store. -/
structure Limiter where
  maxAttempts : Nat
  window : Duration
  policy : FailurePolicy
deriving DecidableEq, Repr

/-- Why a check did not let the caller through. -/
inductive LimitError
  | limited
  | invalidKey (cause : DomainError)
deriving DecidableEq, Repr

/-- What a refused caller is told. -/
def limitedMessage : String := "Too many attempts, try again later"

/-- The wording of a refusal. -/
def LimitError.message : LimitError → String
  | .limited => limitedMessage
  | .invalidKey cause => cause.message

/-- How a guarded attempt ended that gave no value. -/
inductive GuardError (ε : Type)
  | refused (cause : LimitError)
  | rejected (cause : ε)

/-- The wording of a guard's refusal, where the attempt's own fault is a text. -/
def GuardError.message : GuardError String → String
  | .refused cause => cause.message
  | .rejected cause => "attempt rejected: " ++ cause

namespace Limiter

/-- Reads the number of failures in the window. -/
def attempts (k : RateLimitKey) : Call .count := .counter k.counterKey

/-- Counts a failure. -/
def recordFailure (l : Limiter) (k : RateLimitKey) : Call .count :=
  .increment k.counterKey (some l.window)

/-- Forgets the failures. -/
def reset (k : RateLimitKey) : Call .nothing := .delete k.counterKey

/-- Whether a number of failures is over the limit. -/
def exceeds (l : Limiter) (failures : Int) : Bool := (l.maxAttempts : Int) ≤ failures

/-- Whether a caller is limited, given what the store answered. -/
def limits (l : Limiter) (answer : Except StoreError Int) : Bool :=
  match answer with
  | .ok n => l.exceeds n
  | .error _ => l.policy = .failClosed

end Limiter

end JobFleet
