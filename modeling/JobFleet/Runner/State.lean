import JobFleet.Runner.Config
import JobFleet.Runner.Event
import JobFleet.Runner.Handler
import JobFleet.WorkerId

/-!
# The state of runners

A runner has a queue of pending jobs and at most one worker, which sits in its slot. Handing in
a job, working the queue, calling a handler, draining and stopping are machines with explicit
states: each step makes at most one call on the store, so every interleaving of runners is a
sequence of steps.
-/

namespace JobFleet

/-- The number of a task. -/
abbrev TaskId : Type := Nat

namespace Runner

/-- What a runner has counted in its process. -/
structure Stats where
  enqueued : Nat
  duplicates : Nat
  started : Nat
  succeeded : Nat
  failed : Nat
  dropped : Nat
  rejected : Nat
deriving DecidableEq, Repr

/-- Nothing counted yet. -/
def Stats.zero : Stats := ⟨0, 0, 0, 0, 0, 0, 0⟩

/-- The place of a runner's worker: its generation, its task, and whether a stop already waits
for that task to end. -/
structure Slot where
  generation : Nat
  task : TaskId
  awaited : Bool
deriving DecidableEq, Repr

end Runner

/-- A runner of one process. -/
structure Runner where
  config : Runner.Config
  worker : WorkerId
  pending : List Job
  slot : Option Runner.Slot
  generations : Nat
  gate : Option TaskId
  stats : Runner.Stats

/-- A runner that has not been used. -/
def Runner.new (config : Runner.Config) (worker : WorkerId) : Runner :=
  ⟨config, worker, [], none, 0, none, .zero⟩

/-- How far handing in a job has come: waiting for its turn, before reading the key's status,
or before claiming the key, knowing what it held. -/
inductive Enqueue.Phase
  | waiting
  | reading
  | claiming (held : Option String)
deriving DecidableEq, Repr

/-- A job being handed in. -/
structure Enqueue where
  runner : String
  job : Job
  phase : Enqueue.Phase
deriving DecidableEq, Repr

/-- A job that a worker has admitted; a counted one holds a slot of the fleet's counter. -/
structure Taken where
  job : Job
  counted : Bool
deriving DecidableEq, Repr

/-- What a worker does next. -/
inductive Worker.Phase
  | starting
  | choosing
  | admitting (job : Job)
  | refusing (job : Job) (why : Runner.Refusal)
  | beginning (t : Taken)
  | calling (t : Taken)
  | awaiting (t : Taken) (handler : TaskId)
  | succeeding (t : Taken)
  | exhausted (t : Taken)
  | backingOff (t : Taken) (wake : Nat)
  | abandoning (t : Taken)
  | releasing (t : Taken) (attempt : Nat)
  | resting (t : Taken) (attempt wake : Nat)
deriving DecidableEq, Repr

/-- A worker of a runner. -/
structure Worker where
  runner : String
  generation : Nat
  cancelled : Bool
  phase : Worker.Phase
deriving DecidableEq, Repr

/-- What a handler's call does next. -/
inductive HandlerCall.Phase
  | entering
  | acting (rest : List Action)
  | sleeping (wake : Nat) (rest : List Action)
  | waiting (gate : String) (rest : List Action)
  | enqueuing (inner : Enqueue) (rest : List Action)
  | finished (ending : Ending)

/-- A call of a handler. -/
structure HandlerCall where
  handler : HandlerId
  phase : HandlerCall.Phase

/-- A wait for a runner's slot to become empty: about to look, or asleep until the next look. -/
inductive DrainPhase
  | looking
  | sleeping (wake : Nat)
deriving DecidableEq, Repr

/-- How far a stop has come: nothing done, waiting for the worker it cancelled, or waiting for
the slot because another stop waits for the worker. -/
inductive StopPhase
  | entering
  | awaiting (task : TaskId) (generation : Nat)
  | draining (phase : DrainPhase)
deriving DecidableEq, Repr

end JobFleet
