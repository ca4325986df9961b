import JobFleet.Json.Value
import JobFleet.RateLimit.Limiter

/-!
# Guarded attempts

An attempt behind a limit: the limit is checked first, a limited caller never starts the
attempt, a rejected attempt counts as a failure and a successful one clears the window.
-/

namespace JobFleet

/-- How far a guarded attempt has come: before the check, let through, started, or ended. -/
inductive Guard.Phase
  | checking
  | admitted (key : RateLimitKey)
  | attempting (key : RateLimitKey)
  | settling (key : RateLimitKey)
deriving DecidableEq, Repr

/-- An attempt behind a limit, with the outcome that the attempt would have. -/
structure Guard where
  limiter : String
  scope : AuthScope
  identity : String
  client : Option String
  outcome : Except String Json.Value
  phase : Guard.Phase

/-- How a guarded attempt ended, and whether it was started at all. -/
structure Guard.Result where
  answer : Except (GuardError String) Json.Value
  started : Bool

end JobFleet
