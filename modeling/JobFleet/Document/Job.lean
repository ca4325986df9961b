import JobFleet.Job.Basic
import JobFleet.Json.Reader
import JobFleet.WorkerId

/-!
# Documents of jobs

The JSON forms of durations, retry policies, job defaults, job keys and worker identities. A
record may be written as an array of its fields in order or as an object; members that a record
does not know are passed over, a repeated or missing member is a mismatch. A duration is exactly
its seconds and nanoseconds, where nanoseconds past a second carry.
-/

namespace JobFleet.Document

open Json

/-- The fields of a duration read so far. -/
structure DurationParts where
  secs : Option Int := none
  nanos : Option Int := none

/-- Reads a member of a duration, which has no others. -/
def DurationParts.member (name : String) (p : DurationParts) : Reader DurationParts := fun cs =>
  if name = "secs" then do
    let (v, cs) ← readOnce p.secs (readInteger .nat64) cs
    return ({ p with secs := v }, cs)
  else if name = "nanos" then do
    let (v, cs) ← readOnce p.nanos (readInteger .nat32) cs
    return ({ p with nanos := v }, cs)
  else .error .mismatched

/-- Puts a duration together. -/
def duration (secs nanos : Int) : Except Fault Duration :=
  match Duration.ofParts? secs.toNat nanos.toNat with
  | some d => .ok d
  | none => .error .mismatched

/-- Reads a duration. -/
def readDuration : Reader Duration :=
  readRecord
    (fun cs => do
      let (secs, cs) ← readNextItem false (readInteger .nat64) cs
      let (nanos, cs) ← readNextItem true (readInteger .nat32) cs
      return (← duration secs nanos, cs))
    (fun cs => do
      let (p, cs) ← foldMembers DurationParts.member (cs.length + 1) false {} cs
      return (← duration (← filled p.secs) (← filled p.nanos), cs))

/-- The document of a duration. -/
def ofDuration (d : Duration) : Value :=
  .object [("secs", .ofNat d.secs), ("nanos", .ofNat d.subsecNanos)]

/-- The fields of a retry policy read so far. -/
structure PolicyParts where
  maxAttempts : Option Int := none
  baseDelay : Option Duration := none
  maxDelay : Option Duration := none
  strategy : Option BackoffStrategy := none

/-- Reads a member of a retry policy. -/
def PolicyParts.member (name : String) (p : PolicyParts) : Reader PolicyParts := fun cs =>
  if name = "max_attempts" then do
    let (v, cs) ← readOnce p.maxAttempts (readInteger .nat32) cs
    return ({ p with maxAttempts := v }, cs)
  else if name = "base_delay" then do
    let (v, cs) ← readOnce p.baseDelay readDuration cs
    return ({ p with baseDelay := v }, cs)
  else if name = "max_delay" then do
    let (v, cs) ← readOnce p.maxDelay readDuration cs
    return ({ p with maxDelay := v }, cs)
  else if name = "strategy" then do
    let (v, cs) ← readOnce p.strategy (readChoice BackoffStrategy.ofText?) cs
    return ({ p with strategy := v }, cs)
  else do
    let (_, cs) ← skipMember cs
    return (p, cs)

/-- Reads a retry policy. -/
def readPolicy : Reader RetryPolicy :=
  readRecord
    (fun cs => do
      let (n, cs) ← readNextItem false (readInteger .nat32) cs
      let (base, cs) ← readNextItem true readDuration cs
      let (limit, cs) ← readNextItem true readDuration cs
      let (strategy, cs) ← readNextItem true (readChoice BackoffStrategy.ofText?) cs
      return (⟨n.toNat, base, limit, strategy⟩, cs))
    (fun cs => do
      let (p, cs) ← foldMembers PolicyParts.member (cs.length + 1) false {} cs
      return (⟨(← filled p.maxAttempts).toNat, ← filled p.baseDelay, ← filled p.maxDelay,
        ← filled p.strategy⟩, cs))

/-- The document of a retry policy. -/
def ofPolicy (p : RetryPolicy) : Value :=
  .object [("max_attempts", .ofNat p.maxAttempts), ("base_delay", ofDuration p.baseDelay),
    ("max_delay", ofDuration p.maxDelay), ("strategy", .text p.strategy.text)]

/-- The fields of job defaults read so far. -/
structure DefaultsParts where
  maxAttempts : Option Int := none
  backoff : Option Duration := none

/-- Reads a member of job defaults. -/
def DefaultsParts.member (name : String) (p : DefaultsParts) : Reader DefaultsParts := fun cs =>
  if name = "max_attempts" then do
    let (v, cs) ← readOnce p.maxAttempts (readInteger .nat32) cs
    return ({ p with maxAttempts := v }, cs)
  else if name = "backoff" then do
    let (v, cs) ← readOnce p.backoff readDuration cs
    return ({ p with backoff := v }, cs)
  else do
    let (_, cs) ← skipMember cs
    return (p, cs)

/-- Reads job defaults. -/
def readDefaults : Reader JobDefaults :=
  readRecord
    (fun cs => do
      let (n, cs) ← readNextItem false (readInteger .nat32) cs
      let (backoff, cs) ← readNextItem true readDuration cs
      return (⟨n.toNat, backoff⟩, cs))
    (fun cs => do
      let (p, cs) ← foldMembers DefaultsParts.member (cs.length + 1) false {} cs
      return (⟨(← filled p.maxAttempts).toNat, ← filled p.backoff⟩, cs))

/-- The document of job defaults. -/
def ofDefaults (d : JobDefaults) : Value :=
  .object [("max_attempts", .ofNat d.maxAttempts), ("backoff", ofDuration d.backoff)]

/-- Reads a job key, which must not be blank. -/
def readKey : Reader JobKey := readTextAs fun s => (JobKey.ofText s).toOption

/-- Reads a worker identity. -/
def readWorkerId : Reader WorkerId := readTextAs WorkerId.read?

end JobFleet.Document
