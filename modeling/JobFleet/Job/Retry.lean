import JobFleet.Duration
import JobFleet.Number.Integer

/-!
# Retry policies

A policy says how often a thing may be tried and how long to wait after each failure. The wait
after failure `n` is a multiple of the base delay, held at the longest delay; counts are words
of 32 bits and the doubling factor stops at the largest one.
-/

namespace JobFleet

/-- How the delay grows from failure to failure. -/
inductive BackoffStrategy
  | fixed
  | linear
  | exponential
deriving DecidableEq, Repr

namespace BackoffStrategy

/-- The word for a strategy. -/
def text : BackoffStrategy → String
  | .fixed => "fixed"
  | .linear => "linear"
  | .exponential => "exponential"

/-- The strategy with a given word. -/
def ofText? (s : String) : Option BackoffStrategy :=
  if s = "fixed" then some .fixed
  else if s = "linear" then some .linear
  else if s = "exponential" then some .exponential
  else none

theorem ofText?_text (b : BackoffStrategy) : ofText? b.text = some b := by cases b <;> rfl

end BackoffStrategy

/-- The largest count of 32 bits. -/
def maxCount : Nat := 4294967295

/-- How often to try and how long to wait in between. -/
structure RetryPolicy where
  maxAttempts : Nat
  baseDelay : Duration
  maxDelay : Duration
  strategy : BackoffStrategy
deriving DecidableEq, Repr

namespace RetryPolicy

/-- The same delay after every failure. -/
def fixed (maxAttempts : Nat) (delay : Duration) : RetryPolicy :=
  ⟨maxAttempts, delay, delay, .fixed⟩

/-- Two to a power, held at the largest count. -/
def doubling (n : Nat) : Nat := if n < 32 then Nat.pow 2 n else maxCount

/-- The multiple of the base delay to wait after a failure, counted from one. -/
def factor : BackoffStrategy → Nat → Nat
  | .fixed, _ => 1
  | .linear, n => n
  | .exponential, n => doubling (n - 1)

/-- The delay after a failure, counted from one; before the first there is none. -/
def delayAfter (p : RetryPolicy) (failure : Nat) : Duration :=
  if failure = 0 then .zero
  else (p.baseDelay.scale (factor p.strategy failure)).capped p.maxDelay

/-- Whether another attempt is allowed after a number of failures. -/
def allowsAfter (p : RetryPolicy) (failures : Nat) : Bool := failures < p.maxAttempts

/-- No delay exceeds the longest one. -/
theorem delayAfter_le (p : RetryPolicy) (n : Nat) : p.delayAfter n ≤ p.maxDelay := by
  unfold delayAfter
  split
  · exact Nat.zero_le _
  · rw [Duration.le_iff, Duration.nanos_capped]
    exact Nat.min_le_right _ _

end RetryPolicy

end JobFleet
