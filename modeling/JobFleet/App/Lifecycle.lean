import JobFleet.Schedule.Control

/-!
# Starting and shutting down a process

A process starts by trying to become the fleet's scheduler, whether or not the store answers. It
shuts down in the order in which work flows: the scheduler, which hands in jobs, the queue,
which is left to run empty, and then the worker.
-/

namespace JobFleet

namespace AppStart

/-- Whether the next step can be taken. -/
def ready (name : String) (w : World) : AppStart → Bool
  | .pinging => true
  | .scheduler p => p.ready name w

/-- One step of a start; it ends with whether the process is the scheduler. -/
def step (self : TaskId) (name : String) (p : AppStart) (w : World) :
    Progress AppStart Bool × World :=
  match p with
  | .pinging =>
      match w.perform .ping with
      | (.ok _, w) => (.on (.scheduler .entering), w)
      | (.error cause, w) => (.on (.scheduler .entering), w.log (.startedUnreachable cause))
  | .scheduler p =>
      let (next, w) := p.step self name w
      (next.map .scheduler id, w)

end AppStart

namespace AppShutdown

/-- Whether the next step can be taken. -/
def ready (name : String) (w : World) : AppShutdown → Bool
  | .scheduler p => p.ready name w
  | .draining p => p.ready w
  | .stopping p => p.ready w

/-- One step of a shutdown. -/
def step (name : String) (p : AppShutdown) (w : World) : Progress AppShutdown Unit × World :=
  match p with
  | .scheduler p =>
      match p.step name w with
      | (.on p, w) => (.on (.scheduler p), w)
      | (.ended _, w) => (.on (.draining .looking), w)
  | .draining p =>
      match p.step name w with
      | .on p => (.on (.draining p), w)
      | .ended _ => (.on (.stopping .entering), w)
  | .stopping p =>
      match p.step name w with
      | (.on p, w) => (.on (.stopping p), w)
      | (.ended _, w) => (.ended (), w.log .servicesStopped)

end AppShutdown

end JobFleet
