import JobFleet.Job.Status
import JobFleet.Log.Line
import JobFleet.Schedule.Settings
import JobFleet.Store.Error

/-!
# What schedulers log

Winning, losing and renewing the lock, and how each cycle of the main loop ended.
-/

namespace JobFleet.Schedule

/-- An event of a scheduler. -/
inductive Event
  | lockRefused (lock : String)
  | lockUnreachable (lock : String) (cause : StoreError)
  | lockAcquired (lock : String)
  | lockReleased (lock : String)
  | lockLost (lock : String)
  | lockUnreleased (lock : String) (cause : StoreError)
  | lockExtended (lock : String)
  | demoted (lock : String) (cause : Option StoreError)
  | cycleFinished (summary : Summary)
  | cycleFailed (message : String)
  | tick (key : JobKey) (outcome : EnqueueOutcome) (force enabled : Bool)

/-- The line that an event is logged as. -/
def Event.line : Event → LogLine
  | .lockRefused lock => ⟨.info,
      "Scheduler lock NOT acquired - another worker is running the scheduler",
      [("lock", .text lock)]⟩
  | .lockUnreachable lock cause => ⟨.warn,
      "Failed to acquire scheduler lock (coordinator unavailable); scheduler will not start",
      [("lock", .text lock), ("error", .text cause.message)]⟩
  | .lockAcquired lock => ⟨.info,
      "Scheduler lock acquired - starting ParserAutoupdateScheduler", [("lock", .text lock)]⟩
  | .lockReleased lock => ⟨.info, "Scheduler lock released", [("lock", .text lock)]⟩
  | .lockLost lock => ⟨.debug, "scheduler lock no longer ours; nothing to release",
      [("lock", .text lock)]⟩
  | .lockUnreleased lock cause => ⟨.warn, "failed to release scheduler lock",
      [("lock", .text lock), ("error", .text cause.message)]⟩
  | .lockExtended lock => ⟨.debug, "scheduler lock extended", [("lock", .text lock)]⟩
  | .demoted lock cause => ⟨.error, "Failed to extend scheduler lock - stopping scheduler",
      ("lock", .text lock) ::
        (cause.map fun e => ("error", Field.text e.message)).toList⟩
  | .cycleFinished summary => ⟨.debug, "autoupdate cycle finished",
      [("status", .text summary.status), ("interval_minutes", .integer summary.interval)]⟩
  | .cycleFailed message => ⟨.error, "autoupdate cycle failed", [("error", .text message)]⟩
  | .tick key outcome force enabled => ⟨.info, "parser autoupdate tick",
      [("job_key", .text key.text), ("outcome", .text outcome.text), ("force", .flag force),
        ("enable_autoupdate", .flag enabled)]⟩

end JobFleet.Schedule
