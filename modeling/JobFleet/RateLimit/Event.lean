import JobFleet.Log.Line
import JobFleet.RateLimit.Limiter

/-!
# What limiters log

How a limiter is set up, when a limit is reached, and what became of calls that failed.
-/

namespace JobFleet.RateLimit

/-- An event of a limiter. -/
inductive Event
  | configured (limiter : Limiter)
  | checkFailed (key : RateLimitKey) (policy : FailurePolicy) (limited : Bool)
      (cause : StoreError)
  | reached (key : RateLimitKey) (failures : Int)
  | unrecorded (key : RateLimitKey) (cause : StoreError)
  | unreset (key : RateLimitKey) (cause : StoreError)
  | refused (scope : AuthScope)

/-- The line that an event is logged as. -/
def Event.line : Event → LogLine
  | .configured l => ⟨.info, "rate limiter configured",
      [("max_attempts", .integer l.maxAttempts), ("window_secs", .integer l.window.secs),
        ("failure_policy", .text l.policy.text)]⟩
  | .checkFailed key policy limited cause => ⟨.warn,
      "rate limit check failed; applying failure policy",
      [("scope", .text key.scope), ("failure_policy", .text policy.text),
        ("limited", .flag limited), ("error", .text cause.message)]⟩
  | .reached key failures => ⟨.info, "rate limit reached",
      [("scope", .text key.scope), ("attempts", .integer failures)]⟩
  | .unrecorded key cause => ⟨.warn, "failed to record rate-limit failure",
      [("scope", .text key.scope), ("error", .text cause.message)]⟩
  | .unreset key cause => ⟨.warn, "failed to reset rate limit",
      [("scope", .text key.scope), ("error", .text cause.message)]⟩
  | .refused scope => ⟨.debug, "auth attempt rate limited", [("scope", .text scope.text)]⟩

end JobFleet.RateLimit
