import JobFleet.Fleet.World

/-!
# Members of the fleet

How runners, locks, schedulers, limiters and whole processes join the fleet. Each joins under a
name; runners and locks get an identity of their own.
-/

namespace JobFleet.World

/-- Adds a runner. -/
def addRunner (w : World) (name : String) (config : Runner.Config) : World :=
  let (worker, w) := w.identify
  { w with runners := w.runners.insert name (.new config worker) }

/-- A lock with an owner token of its own. -/
def newLock (w : World) (name : String) (ttl : Duration) : Lock × World :=
  let (owner, w) := w.identify
  (.new owner name ttl, w)

/-- Adds a lock. -/
def addLock (w : World) (name : String) (lockName : String) (ttl : Duration) : World :=
  let (lock, w) := w.newLock lockName ttl
  { w with locks := w.locks.insert name lock }

/-- Adds a scheduler. -/
def addScheduler (w : World) (name : String) (lockName : String) (ttl : Duration)
    (source : SettingsSource) (service : Schedule.Service) : World :=
  let (lock, w) := w.newLock lockName ttl
  { w with schedulers := w.schedulers.insert name (.new lock source service) }

/-- Adds a limiter. -/
def addLimiter (w : World) (name : String) (l : Limiter) : World :=
  let w := w.log (.rateLimit (.configured l))
  { w with limiters := w.limiters.insert name l }

/-- Changes the settings of a scheduler whose source holds them. -/
def updateSettings (w : World) (name : String) (settings : ParserSettings) : World :=
  w.modifyScheduler name fun s =>
    match s.source with
    | .held _ => { s with source := .held settings }
    | .failing _ => s

/-- The settings that a scheduler's source holds. -/
def heldSettings (w : World) (name : String) : Option ParserSettings :=
  match (w.schedulers.find? name).map Scheduler.source with
  | some (.held settings) => some settings
  | _ => none

end JobFleet.World
