import JobFleet.Job.Key
import JobFleet.Job.Status
import JobFleet.Job.Retry

/-!
# Jobs

A job is a key, a handler to call, and how its failures are treated. The handler is known by
its number: what a handler does when called is kept apart, so that jobs are plain data.
-/

namespace JobFleet

/-- The number of a handler. -/
abbrev HandlerId : Type := Nat

/-- A unit of deferred work. -/
structure Job where
  key : JobKey
  handler : HandlerId
  maxAttempts : Nat
  backoff : Duration
  failures : Nat
  criticality : Criticality
deriving DecidableEq, Repr

/-- How often a job is tried and how long its backoff is, where a job does not say. -/
structure JobDefaults where
  maxAttempts : Nat
  backoff : Duration
deriving DecidableEq, Repr

namespace Job

/-- A job with three attempts, one second apart, and the usual criticality. -/
def new (key : JobKey) (handler : HandlerId) : Job :=
  ⟨key, handler, 3, .ofSecs 1, 0, .usual⟩

/-- Sets the number of attempts; at least one always runs. -/
def withMaxAttempts (j : Job) (n : Nat) : Job := { j with maxAttempts := max n 1 }

/-- Sets the backoff. -/
def withBackoff (j : Job) (d : Duration) : Job := { j with backoff := d }

/-- Sets the criticality. -/
def withCriticality (j : Job) (c : Criticality) : Job := { j with criticality := c }

/-- Linear backoff whose cap is the backoff times the number of attempts. -/
def retryPolicy (j : Job) : RetryPolicy :=
  ⟨j.maxAttempts, j.backoff, j.backoff.scale j.maxAttempts, .linear⟩

/-- The job after one more failed attempt. -/
def recordFailure (j : Job) : Job := { j with failures := j.failures + 1 }

end Job

/-- A new job with these defaults. -/
def JobDefaults.job (d : JobDefaults) (key : JobKey) (handler : HandlerId) : Job :=
  ((Job.new key handler).withMaxAttempts d.maxAttempts).withBackoff d.backoff

end JobFleet
