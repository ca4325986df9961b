import JobFleet.RateLimit.Event
import JobFleet.Runner.Event
import JobFleet.Schedule.Event

/-!
# What a process logs

The events of all parts of a process, and its own.
-/

namespace JobFleet

/-- An event of a process. -/
inductive Event
  | runner (e : Runner.Event)
  | schedule (e : Schedule.Event)
  | rateLimit (e : RateLimit.Event)
  | startedUnreachable (cause : StoreError)
  | servicesStopped
  | tickJobExecuted
  | unhealthy (cause : StoreError)
  | settingsUpdated (settings : ParserSettings)

/-- The line that an event is logged as. -/
def Event.line : Event → LogLine
  | .runner e => e.line
  | .schedule e => e.line
  | .rateLimit e => e.line
  | .startedUnreachable cause => ⟨.warn, "coordinator not reachable at startup",
      [("error", .text cause.message)]⟩
  | .servicesStopped => ⟨.info, "services stopped", []⟩
  | .tickJobExecuted => ⟨.info, "parser autoupdate job executed", []⟩
  | .unhealthy cause => ⟨.warn, "health check: coordinator unreachable",
      [("error", .text cause.message)]⟩
  | .settingsUpdated s => ⟨.info, "parser settings updated",
      [("enable_autoupdate", .flag s.enabled), ("update_interval_minutes", .integer s.minutes)]⟩

end JobFleet
