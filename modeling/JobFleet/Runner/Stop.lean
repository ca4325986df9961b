import JobFleet.Runner.Worker

/-!
# Draining and stopping

A drain looks at the runner's slot again and again until it is empty. A stop cancels the worker
and waits for its task to end; a second stop meanwhile waits like a drain. Jobs that are still
pending stay in the queue.
-/

namespace JobFleet

/-- Whether a runner has a worker in its slot. -/
def World.occupied (w : World) (runner : String) : Bool :=
  match w.runners.find? runner with
  | some r => r.slot.isSome
  | none => false

/-- Cancels a task: it notices at its next step. -/
def World.cancel (w : World) (id : TaskId) : World :=
  { w with tasks := w.tasks.modify id fun
      | .worker k => .worker { k with cancelled := true }
      | .mainLoop m => .mainLoop { m with cancelled := true }
      | .extender x => .extender { x with cancelled := true }
      | t => t }

namespace DrainPhase

/-- Whether the next step can be taken. -/
def ready (w : World) : DrainPhase → Bool
  | .looking => true
  | .sleeping wake => wake ≤ w.now

/-- One step of a drain. -/
def step (runner : String) (p : DrainPhase) (w : World) : Progress DrainPhase Unit :=
  match p with
  | .looking =>
      if w.occupied runner then
        .on (.sleeping (Clock.alarm w.now (w.runnerConfig runner).drainPoll))
      else .ended ()
  | .sleeping _ => .on .looking

end DrainPhase

namespace StopPhase

/-- Whether the next step can be taken. -/
def ready (w : World) : StopPhase → Bool
  | .entering => true
  | .awaiting task _ => !w.running task
  | .draining p => p.ready w

/-- Cancels the worker. The first stop waits for its task, a later one for the slot. -/
def enter (runner : String) (w : World) : Progress StopPhase Unit × World :=
  match (w.runners.find? runner).bind Runner.slot with
  | none => (.ended (), w)
  | some slot =>
      let w := w.cancel slot.task
      if slot.awaited then (.on (.draining .looking), w)
      else
        (.on (.awaiting slot.task slot.generation),
          w.modifyRunner runner fun r => { r with slot := some { slot with awaited := true } })

/-- Clears the slot of the worker that ended, unless a later one sits there. -/
def leave (runner : String) (generation : Nat) (w : World) : World :=
  let w := w.modifyRunner runner fun r =>
    if r.slot.map Runner.Slot.generation = some generation then { r with slot := none } else r
  let pending := ((w.runners.find? runner).map fun r => r.pending.length).getD 0
  w.log (.runner (.workerStopped pending))

/-- One step of a stop. -/
def step (runner : String) (p : StopPhase) (w : World) : Progress StopPhase Unit × World :=
  match p with
  | .entering => enter runner w
  | .awaiting _ generation => (.ended (), leave runner generation w)
  | .draining p => ((p.step runner w).map .draining id, w)

end StopPhase

/-- Reads a job's status; one that cannot be read counts as absent. -/
def World.jobStatus (w : World) (key : JobKey) : Option JobStatus × World :=
  match w.perform (.get key.statusKey) with
  | (.ok none, w) => (none, w)
  | (.ok (some raw), w) =>
      match JobStatus.ofText? raw with
      | some status => (some status, w)
      | none => (none, w.log (.runner (.statusUnreadable key (JobStatus.unknown raw))))
  | (.error cause, w) => (none, w.log (.runner (.statusUnread key cause)))

end JobFleet
