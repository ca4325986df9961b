import JobFleet.Schedule.Loops

/-!
# Starting and stopping a scheduler

A start takes the lock and, if it gets it, starts a main loop and an extender; while the main
loop is alive it changes nothing. A stop ends the extender first, then the main loop, and gives
the lock back last, so that the lock is held as long as cycles may run.
-/

namespace JobFleet.Schedule

/-- Whether a scheduler's session can be looked at. -/
def unlocked (w : World) (name : String) : Bool :=
  match w.schedulers.find? name with
  | some s => s.gate.isNone
  | none => true

/-- Whether a scheduler's main loop is alive. -/
def isRunning (w : World) (name : String) : Bool :=
  match (w.schedulers.find? name).bind Scheduler.session with
  | some s => w.running s.main
  | none => false

namespace StartPhase

/-- Whether the next step can be taken. -/
def ready (name : String) (w : World) : StartPhase → Bool
  | .entering => unlocked w name
  | .acquiring => true

/-- Ends a start and lets others at the session. -/
def leave (name : String) (session : Option Session) (w : World) : World :=
  w.modifyScheduler name fun s =>
    { s with gate := none, session := session <|> s.session }

/-- Starts the main loop and the extender under a lock that was just taken. -/
def launch (name : String) (lock : Lock) (w : World) : World :=
  let w := w.log (.schedule (.lockAcquired lock.name))
  let (main, w) := w.spawn (.mainLoop (.start name))
  let (extender, w) := w.spawn (.extender (.start lock main w))
  leave name (some ⟨main, extender⟩) w

/-- One step of a start; it ends with whether the scheduler runs. -/
def step (self : TaskId) (name : String) (p : StartPhase) (w : World) :
    Progress StartPhase Bool × World :=
  match w.schedulers.find? name with
  | none => (.ended false, w)
  | some s =>
      match p with
      | .entering =>
          if isRunning w name then (.ended true, w)
          else (.on .acquiring, w.modifyScheduler name fun s => { s with gate := some self })
      | .acquiring =>
          match w.perform s.lock.acquire with
          | (.ok true, w) => (.ended true, launch name s.lock w)
          | (.ok false, w) =>
              (.ended false, leave name none (w.log (.schedule (.lockRefused s.lock.name))))
          | (.error cause, w) =>
              (.ended false,
                leave name none (w.log (.schedule (.lockUnreachable s.lock.name cause))))

end StartPhase

namespace StopPhase

/-- Whether the next step can be taken. -/
def ready (name : String) (w : World) : StopPhase → Bool
  | .entering => unlocked w name
  | .awaitingExtender s => !w.running s.extender
  | .awaitingMain main => !w.running main
  | .releasing => true

/-- Tells how giving the lock back went. -/
def releaseEvent (lock : Lock) : Except StoreError Bool → Event
  | .ok true => .lockReleased lock.name
  | .ok false => .lockLost lock.name
  | .error cause => .lockUnreleased lock.name cause

/-- One step of a stop. -/
def step (name : String) (p : StopPhase) (w : World) : Progress StopPhase Unit × World :=
  match w.schedulers.find? name with
  | none => (.ended (), w)
  | some s =>
      match p with
      | .entering =>
          match s.session with
          | none => (.ended (), w)
          | some session =>
              let w := w.modifyScheduler name fun s => { s with session := none }
              (.on (.awaitingExtender session), w.cancel session.extender)
      | .awaitingExtender session => (.on (.awaitingMain session.main), w.cancel session.main)
      | .awaitingMain _ => (.on .releasing, w)
      | .releasing =>
          let (answer, w) := w.perform s.lock.release
          (.ended (), w.log (.schedule (releaseEvent s.lock answer)))

end StopPhase

end JobFleet.Schedule
