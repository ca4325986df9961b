import JobFleet.Net.Address
import JobFleet.RateLimit.Policy
import JobFleet.Runner.Config
import JobFleet.Schedule.Settings

/-!
# Settings of a process

What one process of the fleet is told: where the store is, where to listen, whose word about a
client's address is taken, and the limits of jobs, scheduler and sign-in attempts.
-/

namespace JobFleet

/-- What one process of the fleet is told. -/
structure Settings where
  redisUrl : Option String
  bindAddress : Net.SocketAddress
  trustedProxies : List Net.Address
  logFormat : String
  maxRunning : Int
  queueCapacity : Nat
  jobDefaults : JobDefaults
  schedulerLockTtl : Duration
  parser : ParserSettings
  limitAttempts : Nat
  limitWindow : Duration
  limitPolicy : FailurePolicy

namespace Settings

/-- The runner's part of the settings. -/
def runnerConfig (s : Settings) : Runner.Config :=
  { Runner.Config.usual with maxRunning := s.maxRunning, capacity := s.queueCapacity }

end Settings

/-- The name of the lock that the fleet's scheduler holds. -/
def schedulerLockName : String := "parser_autoupdate_scheduler"

/-- How long the scheduler's lock lasts where nothing else is chosen. -/
def schedulerLockTtl : Duration := .ofSecs 90

end JobFleet
