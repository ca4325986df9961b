import JobFleet.Lock
import JobFleet.Runner.State
import JobFleet.Schedule.Event

/-!
# The state of schedulers

A scheduler owns a lock, a source of settings and a service. While it runs, its session names a
main loop, which runs one cycle and sleeps for the interval, and an extender, which renews the
lock every half of its time to live and cancels the main loop when that fails.
-/

namespace JobFleet

/-- Where settings come from: held in memory, or from a source that fails. -/
inductive SettingsSource
  | held (settings : ParserSettings)
  | failing (fault : Failure)

namespace Schedule

/-- How a scripted call of a service ends. -/
inductive ServiceEnding
  | summary (s : Summary)
  | failed (fault : Failure)
  | panicked

/-- A scripted call of a service: how long it takes, if it takes time, and how it ends. -/
structure ServiceReply where
  pause : Option Duration
  ending : ServiceEnding

/-- What runs on each tick: a script, or a runner that is handed the tick's job. -/
inductive Service
  | scripted (calls : Nat) (reply : Nat → ServiceReply)
  | runner (runner : String) (defaults : JobDefaults) (criticality : Criticality)
      (handler : HandlerId)

/-- The two tasks of a scheduler that runs. -/
structure Session where
  main : TaskId
  extender : TaskId
deriving DecidableEq, Repr

/-- Why a cycle gave no summary. -/
inductive CycleError
  | settings (fault : Failure)
  | service (fault : Failure)
deriving DecidableEq, Repr

/-- The wording of a cycle's fault. -/
def CycleError.message : CycleError → String
  | .settings fault => "failed to load parser settings: " ++ fault.message
  | .service fault => "autoupdate run failed: " ++ fault.message

/-- How a cycle ended. -/
inductive CycleEnding
  | finished (result : Except CycleError Summary)
  | panicked

/-- How far a cycle has come: before loading the settings, in a service that takes its time, or
handing in the tick's job. -/
inductive Cycle.Phase
  | loading
  | pausing (settings : ParserSettings) (call wake : Nat) (ending : ServiceEnding)
  | enqueuing (settings : ParserSettings) (inner : Enqueue)

/-- A cycle of a scheduler; a forced one runs even where autoupdate is disabled. -/
structure Cycle where
  scheduler : String
  force : Bool
  phase : Cycle.Phase

/-- What the main loop does next. -/
inductive MainLoop.Phase
  | cycling (c : Cycle)
  | sleeping (wake : Nat)

/-- The main loop of a scheduler. -/
structure MainLoop where
  scheduler : String
  cancelled : Bool
  phase : MainLoop.Phase

/-- What the extender does next. -/
inductive Extender.Phase
  | resting (wake : Nat)
  | extending
deriving DecidableEq, Repr

/-- The extender of a lock, which cancels a main loop when the lock is lost. -/
structure Extender where
  lock : Lock
  main : TaskId
  cancelled : Bool
  phase : Extender.Phase
deriving DecidableEq, Repr

/-- How far a start has come. -/
inductive StartPhase
  | entering
  | acquiring
deriving DecidableEq, Repr

/-- How far a stop has come: before taking the session, waiting for its extender, waiting for
its main loop, or before releasing the lock. -/
inductive StopPhase
  | entering
  | awaitingExtender (s : Session)
  | awaitingMain (main : TaskId)
  | releasing
deriving DecidableEq, Repr

end Schedule

/-- A scheduler of one process. -/
structure Scheduler where
  lock : Lock
  source : SettingsSource
  service : Schedule.Service
  session : Option Schedule.Session
  gate : Option TaskId

/-- A scheduler that has not been started. -/
def Scheduler.new (lock : Lock) (source : SettingsSource) (service : Schedule.Service) :
    Scheduler :=
  ⟨lock, source, service, none, none⟩

end JobFleet
