import JobFleet.Job.Basic

/-!
# What a runner is told

The ceiling of counted jobs in the whole fleet, the bound of the local queue, how long each
status stays in the store, how giving back a slot is retried, and how often a drain looks.
-/

namespace JobFleet.Runner

/-- What a runner is told. -/
structure Config where
  maxRunning : Int
  capacity : Nat
  queuedTtl : Duration
  runningTtl : Duration
  terminalTtl : Duration
  release : RetryPolicy
  drainPoll : Duration
deriving DecidableEq, Repr

/-- Twenty jobs in the fleet, 1024 in the queue; a status stays an hour, a final one a day. -/
def Config.usual : Config where
  maxRunning := 20
  capacity := 1024
  queuedTtl := .ofSecs 3600
  runningTtl := .ofSecs 3600
  terminalTtl := .ofSecs 86400
  release := ⟨3, .ofMillis 100, .ofMillis 400, .exponential⟩
  drainPoll := .ofMillis 100

/-- How long a status stays in the store. -/
def Config.ttl (c : Config) : JobStatus → Duration
  | .queued => c.queuedTtl
  | .running => c.runningTtl
  | .succeeded | .failed => c.terminalTtl

end JobFleet.Runner
