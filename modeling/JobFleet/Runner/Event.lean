import JobFleet.Job.Basic
import JobFleet.Log.Line
import JobFleet.Store.Error

/-!
# What runners log

Every event in the life of a job and of the worker that runs it, with the line it is logged as.
-/

namespace JobFleet.Runner

/-- Why a job that was taken from the queue is not admitted. -/
inductive Refusal
  | ceiling
  | unreachable (cause : StoreError)
deriving DecidableEq, Repr

/-- The word for a refusal's reason. -/
def Refusal.reason : Refusal → String
  | .ceiling => "global_limit_exceeded"
  | .unreachable _ => "redis_unavailable"

/-- The field that a refusal's cause adds to a line. -/
def Refusal.causeField : Refusal → List (String × Field)
  | .ceiling => []
  | .unreachable cause => [("error", .text cause.message)]

/-- An event of a runner. -/
inductive Event
  | queueFull (job : Job) (capacity : Nat)
  | readFailed (job : Job) (cause : StoreError)
  | duplicateOf (job : Job) (status : JobStatus)
  | unknownStatus (job : Job) (raw : String)
  | enqueued (job : Job)
  | duplicate (job : Job)
  | claimFailed (job : Job) (cause : StoreError)
  | statusUnreadable (key : JobKey) (cause : DomainError)
  | statusUnread (key : JobKey) (cause : StoreError)
  | workerStarted
  | workerIdle
  | workerStopped (pending : Nat)
  | aborted (job : Job) (cause : StoreError)
  | refusalUnrecorded (job : Job) (cause : StoreError)
  | refused (job : Job) (why : Refusal) (ceiling : Int)
  | statusUnwritten (job : Job) (status : JobStatus) (cause : StoreError)
  | started (job : Job)
  | succeeded (job : Job)
  | attemptFailed (job : Job) (fault : String)
  | failedForGood (job : Job)
  | abandoned (job : Job)
  | slotStuck (job : Job) (attempt : Nat) (cause : StoreError)
  | slotRetry (job : Job) (attempt maxAttempts : Nat) (cause : StoreError)

namespace Event

/-- The field that names a job. -/
def keyField (key : JobKey) : String × Field := ("job_key", .text key.text)

/-- The field that gives a job's criticality. -/
def criticalityField (job : Job) : String × Field := ("criticality", .text job.criticality.text)

/-- The field that gives a reason. -/
def reasonField (reason : String) : String × Field := ("reason", .text reason)

/-- The field that gives a cause. -/
def errorField (cause : String) : String × Field := ("error", .text cause)

/-- The field of a count. -/
def countField (name : String) (n : Nat) : String × Field := (name, .integer n)

/-- The line that an event is logged as. -/
def line : Event → LogLine
  | .queueFull job capacity => ⟨.warn, "job enqueue skipped",
      [keyField job.key, criticalityField job, reasonField "queue_full",
        countField "capacity" capacity]⟩
  | .readFailed job cause => ⟨.error, "job enqueue failed",
      [keyField job.key, reasonField "redis_unavailable", errorField cause.message]⟩
  | .duplicateOf job status => ⟨.info, "job enqueue skipped",
      [keyField job.key, reasonField "duplicate", ("status", .text status.text)]⟩
  | .unknownStatus job raw => ⟨.warn, "job enqueue skipped",
      [keyField job.key, reasonField "unknown_status", ("status", .text raw)]⟩
  | .enqueued job => ⟨.info, "job enqueued", [keyField job.key, criticalityField job]⟩
  | .duplicate job => ⟨.info, "job enqueue skipped",
      [keyField job.key, reasonField "duplicate"]⟩
  | .claimFailed job cause => ⟨.error, "job enqueue failed",
      [keyField job.key, reasonField "redis_error", errorField cause.message]⟩
  | .statusUnreadable key cause => ⟨.warn, "unreadable job status",
      [keyField key, errorField cause.message]⟩
  | .statusUnread key cause => ⟨.warn, "failed to read job status",
      [keyField key, errorField cause.message]⟩
  | .workerStarted => ⟨.debug, "job worker started", []⟩
  | .workerIdle => ⟨.debug, "job worker idle", []⟩
  | .workerStopped pending => ⟨.info, "job worker stopped", [countField "pending" pending]⟩
  | .aborted job cause => ⟨.error, "job aborted on coordinator error",
      [keyField job.key, criticalityField job, errorField cause.message]⟩
  | .refusalUnrecorded job cause => ⟨.warn, "failed to record refused job status",
      [keyField job.key, errorField cause.message]⟩
  | .refused job why ceiling =>
      let fields := [keyField job.key, criticalityField job, reasonField why.reason,
        ("max", .integer ceiling)] ++ why.causeField
      match job.criticality with
      | .bestEffort => ⟨.warn, "job dropped", fields⟩
      | _ => ⟨.error, "job rejected", fields⟩
  | .statusUnwritten job status cause => ⟨.warn, "job status write failed; continuing",
      [keyField job.key, criticalityField job, ("status", .text status.text),
        errorField cause.message]⟩
  | .started job => ⟨.info, "job started", [keyField job.key, criticalityField job]⟩
  | .succeeded job => ⟨.info, "job succeeded", [keyField job.key, criticalityField job]⟩
  | .attemptFailed job fault => ⟨.error, "job attempt failed",
      [keyField job.key, criticalityField job, countField "attempt" job.failures,
        countField "max_attempts" job.maxAttempts, errorField fault]⟩
  | .failedForGood job => ⟨.error, "job failed permanently",
      [keyField job.key, criticalityField job, countField "attempts" job.failures]⟩
  | .abandoned job => ⟨.warn, "job abandoned during backoff",
      [keyField job.key, criticalityField job, countField "attempts" job.failures,
        reasonField "cancelled"]⟩
  | .slotStuck job attempt cause => ⟨.error, "counter decrement failed permanently",
      [keyField job.key, criticalityField job, countField "attempts" attempt,
        errorField cause.message]⟩
  | .slotRetry job attempt maxAttempts cause => ⟨.warn, "counter decrement retry",
      [keyField job.key, countField "attempt" attempt, countField "max_attempts" maxAttempts,
        errorField cause.message]⟩

end Event

end JobFleet.Runner
