import JobFleet.Http.Route
import JobFleet.RateLimit.Guard
import JobFleet.Schedule.State

/-!
# Tasks

Everything that goes on in the fleet is a task: workers, calls of handlers, main loops,
extenders, and operations that somebody asked for. A task is a machine with an explicit state.
-/

namespace JobFleet

/-- What an operation gives to whoever asked for it. -/
inductive Result
  | done
  | enqueued (outcome : EnqueueOutcome)
  | drained
  | timedOut
  | flag (value : Bool)
  | cycle (ending : Schedule.CycleEnding)
  | guarded (result : Guard.Result)
  | response (r : Http.Response)

/-- How far starting a process has come: before the store is asked, or starting the scheduler. -/
inductive AppStart
  | pinging
  | scheduler (phase : Schedule.StartPhase)

/-- How far shutting a process down has come: the scheduler first, which hands in jobs, then the
runner's queue, then its worker. -/
inductive AppShutdown
  | scheduler (phase : Schedule.StopPhase)
  | draining (phase : DrainPhase)
  | stopping (phase : StopPhase)

/-- How far a request has come: not looked at, running a cycle, or counting failures. -/
inductive RequestPhase
  | arrived (r : Http.Request)
  | cycling (head : Bool) (c : Schedule.Cycle)
  | counting (head : Bool) (key : RateLimitKey)

/-- An operation that somebody asked for. -/
inductive Operation
  | enqueue (e : Enqueue)
  | drain (runner : String) (deadline : Option Nat) (phase : DrainPhase)
  | stop (runner : String) (phase : StopPhase)
  | startScheduler (scheduler : String) (phase : Schedule.StartPhase)
  | stopScheduler (scheduler : String) (phase : Schedule.StopPhase)
  | runCycle (c : Schedule.Cycle)
  | guard (g : Guard)
  | startApp (app : String) (phase : AppStart)
  | shutdownApp (app : String) (phase : AppShutdown)
  | request (app : String) (phase : RequestPhase)

/-- A task. An operation that has ended keeps its result until it is collected. -/
inductive Task
  | worker (k : Worker)
  | handler (h : HandlerCall)
  | mainLoop (m : Schedule.MainLoop)
  | extender (x : Schedule.Extender)
  | operation (o : Operation)
  | ended (r : Result)

/-- A machine after a step: it goes on from a state, or it has ended with a value. -/
inductive Progress (σ α : Type)
  | on (s : σ)
  | ended (a : α)

/-- The same progress with another state and another value. -/
def Progress.map {σ τ α β : Type} (f : σ → τ) (g : α → β) : Progress σ α → Progress τ β
  | .on s => .on (f s)
  | .ended a => .ended (g a)

end JobFleet
