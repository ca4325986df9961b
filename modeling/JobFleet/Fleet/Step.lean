import JobFleet.App.Lifecycle
import JobFleet.App.Serve

/-!
# Steps of the fleet

Any task whose next step can be taken may take it, in any order: the runs of the fleet are all
sequences of such steps, of time passing, and of things asked for from outside. A step makes at
most one call on the store. A task that cannot go on waits for another task or for an instant.
-/

namespace JobFleet

namespace Operation

/-- Whether the next step can be taken. -/
def ready (w : World) : Operation → Bool
  | .enqueue e => e.ready w
  | .drain _ deadline p => p.ready w || deadline.any (· ≤ w.now)
  | .stop _ p => p.ready w
  | .startScheduler name p => p.ready name w
  | .stopScheduler name p => p.ready name w
  | .runCycle c => c.ready w
  | .guard _ => true
  | .startApp name p => p.ready name w
  | .shutdownApp name p => p.ready name w
  | .request app p => App.requestReady app w p

/-- One step of a drain that may be given up at an instant: it looks first. -/
def stepDrain (runner : String) (deadline : Option Nat) (p : DrainPhase) (w : World) :
    Progress Operation Result :=
  if p.ready w then
    match p.step runner w with
    | .ended _ => .ended .drained
    | .on p => .on (.drain runner deadline p)
  else .ended .timedOut

/-- One step of an operation. -/
def step (self : TaskId) (o : Operation) (w : World) : Progress Operation Result × World :=
  match o with
  | .enqueue e =>
      let (next, w) := e.step self w
      (next.map .enqueue .enqueued, w)
  | .drain runner deadline p => (stepDrain runner deadline p w, w)
  | .stop runner p =>
      let (next, w) := p.step runner w
      (next.map (.stop runner) fun _ => .done, w)
  | .startScheduler name p =>
      let (next, w) := p.step self name w
      (next.map (.startScheduler name) .flag, w)
  | .stopScheduler name p =>
      let (next, w) := p.step name w
      (next.map (.stopScheduler name) fun _ => .done, w)
  | .runCycle c =>
      let (next, w) := c.step self w
      (next.map .runCycle .cycle, w)
  | .guard g =>
      let (next, w) := g.step w
      (next.map .guard .guarded, w)
  | .startApp name p =>
      let (next, w) := p.step self name w
      (next.map (.startApp name) .flag, w)
  | .shutdownApp name p =>
      let (next, w) := p.step name w
      (next.map (.shutdownApp name) fun _ => .done, w)
  | .request app p =>
      let (next, w) := App.requestStep self app p w
      (next.map (.request app) .response, w)

end Operation

/-- Whether a task's next step can be taken. -/
def Task.ready (w : World) (self : TaskId) : Task → Bool
  | .worker k => k.ready w
  | .handler h => h.ready w self
  | .mainLoop m => m.ready w
  | .extender x => x.ready w
  | .operation o => o.ready w
  | .ended _ => false

namespace World

/-- Puts a task in its next state; one that ended is removed, or keeps its result. -/
def settleTask {σ α : Type} (self : TaskId) (f : σ → Task) (g : α → Option Task)
    (p : Progress σ α × World) : World :=
  match p with
  | (.on s, w) => w.setTask self (f s)
  | (.ended a, w) =>
      match g a with
      | some t => w.setTask self t
      | none => w.endTask self

/-- Takes a task's next step. -/
def stepTask (w : World) (self : TaskId) (t : Task) : World :=
  match t with
  | .worker k => settleTask self .worker (fun _ => none) (k.step w)
  | .handler h =>
      let (h, w) := h.step self w
      w.setTask self (.handler h)
  | .mainLoop m => settleTask self .mainLoop (fun _ => none) (m.step self w)
  | .extender x => settleTask self .extender (fun _ => none) (x.step w)
  | .operation o => settleTask self .operation (fun r => some (.ended r)) (o.step self w)
  | .ended _ => w

/-- Whether a task is there and its next step can be taken. -/
def enabled (w : World) (id : TaskId) : Bool :=
  match w.tasks.find? id with
  | some t => t.ready w id
  | none => false

/-- The world after a task's next step, if that step can be taken. -/
def step? (w : World) (id : TaskId) : Option World :=
  match w.tasks.find? id with
  | some t => if t.ready w id then some (w.stepTask id t) else none
  | none => none

end World

namespace DrainPhase

/-- The instant that a drain waits for. -/
def alarm? : DrainPhase → Option Nat
  | .looking => none
  | .sleeping wake => some wake

end DrainPhase

/-- The instant that a stop waits for. -/
def StopPhase.alarm? : StopPhase → Option Nat
  | .draining p => p.alarm?
  | _ => none

/-- The instant that a cycle waits for. -/
def Schedule.Cycle.alarm? (c : Schedule.Cycle) : Option Nat :=
  match c.phase with
  | .pausing _ _ wake _ => some wake
  | _ => none

/-- The instants that an operation waits for. -/
def Operation.alarms : Operation → List Nat
  | .drain _ deadline p => deadline.toList ++ p.alarm?.toList
  | .stop _ p => p.alarm?.toList
  | .runCycle c => c.alarm?.toList
  | .shutdownApp _ (.draining p) => p.alarm?.toList
  | .shutdownApp _ (.stopping p) => p.alarm?.toList
  | .request _ (.cycling _ c) => c.alarm?.toList
  | _ => []

/-- The instants that a task waits for. -/
def Task.alarms : Task → List Nat
  | .worker k =>
      match k.phase with
      | .backingOff _ wake => [wake]
      | .resting _ _ wake => [wake]
      | _ => []
  | .handler h =>
      match h.phase with
      | .sleeping wake _ => [wake]
      | _ => []
  | .mainLoop m =>
      match m.phase with
      | .cycling c => c.alarm?.toList
      | .sleeping wake => [wake]
  | .extender x =>
      match x.phase with
      | .resting wake => [wake]
      | .extending => []
  | .operation o => o.alarms
  | .ended _ => []

/-- The instants after now that tasks wait for. -/
def World.alarms (w : World) : List Nat :=
  (w.tasks.entries.flatMap fun e => e.2.alarms).filter (w.now < ·)

/-- The next instant after now at which something can happen by itself. -/
def World.nextAlarm? (w : World) : Option Nat := w.alarms.min?

end JobFleet
