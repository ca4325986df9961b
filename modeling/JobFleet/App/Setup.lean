import JobFleet.Fleet.Members
import JobFleet.Redis.Location
import JobFleet.Settings.Load

/-!
# Setting up a process

A process has one runner, one scheduler that hands ticks to it, and one limiter, all on the same
store and all set up from the process's settings.
-/

namespace JobFleet

/-- Adds a process with these settings; its parts go by its name. -/
def World.addApp (w : World) (name : String) (s : Settings) : World :=
  let w := w.addRunner name s.runnerConfig
  let (handler, w) := w.addHandler .announceTick
  let w := w.addScheduler name schedulerLockName s.schedulerLockTtl (.held s.parser)
    (.runner name s.jobDefaults .important handler)
  let w := w.addLimiter name ⟨s.limitAttempts, s.limitWindow, s.limitPolicy⟩
  { w with apps := w.apps.insert name ⟨s.trustedProxies⟩ }

/-- Which store the settings choose: the one in memory, or a Redis server if the location can be
read. -/
def Settings.backend (s : Settings) : Except StoreError (Option Redis.Location) :=
  match s.redisUrl with
  | none => .ok none
  | some url =>
      match Redis.Location.read? url with
      | some location => .ok (some location)
      | none => .error (.connection "Redis URL did not parse")

end JobFleet
