import JobFleet.Runner.Stop
import JobFleet.Schedule.Cycle

/-!
# The main loop and the extender

The main loop runs a cycle, sleeps for the interval that the cycle resolved, and starts again; a
failed cycle is followed by the default interval. The extender renews the lock each half of its
time to live; when that fails, it cancels the main loop and ends. Either ends when cancelled.
-/

namespace JobFleet.Schedule

/-- The pause after a cycle: its interval in minutes, at least one, as seconds in a word of 64
bits. -/
def pauseAfter (interval : Nat) : Duration := .ofSecs (max interval 1 * 60 % 0x10000000000000000)

namespace MainLoop

/-- A main loop before its first cycle. -/
def start (scheduler : String) : MainLoop := ⟨scheduler, false, .cycling (.start scheduler false)⟩

/-- Whether the next step can be taken. -/
def ready (w : World) (m : MainLoop) : Bool :=
  m.cancelled ||
    match m.phase with
    | .cycling c => c.ready w
    | .sleeping wake => wake ≤ w.now

/-- Goes to sleep for an interval. -/
def rest (m : MainLoop) (interval : Nat) (w : World) : Progress MainLoop Unit :=
  .on { m with phase := .sleeping (Clock.alarm w.now (pauseAfter interval)) }

/-- Goes on from the end of a cycle. -/
def afterCycle (m : MainLoop) (ending : CycleEnding) (w : World) :
    Progress MainLoop Unit × World :=
  match ending with
  | .finished (.ok summary) =>
      (m.rest summary.interval w, w.log (.schedule (.cycleFinished summary)))
  | .finished (.error e) =>
      (m.rest defaultInterval w, w.log (.schedule (.cycleFailed e.message)))
  | .panicked => (.ended (), w)

/-- One step of a main loop. -/
def step (self : TaskId) (m : MainLoop) (w : World) : Progress MainLoop Unit × World :=
  match m.phase with
  | .cycling c =>
      if m.cancelled then (.ended (), c.abandon self w)
      else
        match c.step self w with
        | (.on c, w) => (.on { m with phase := .cycling c }, w)
        | (.ended ending, w) => m.afterCycle ending w
  | .sleeping _ =>
      if m.cancelled then (.ended (), w)
      else (.on { m with phase := .cycling (.start m.scheduler false) }, w)

end MainLoop

namespace Extender

/-- An extender that rests before its first renewal. -/
def start (lock : Lock) (main : TaskId) (w : World) : Extender :=
  ⟨lock, main, false, .resting (Clock.alarm w.now lock.renewInterval)⟩

/-- Whether the next step can be taken. -/
def ready (w : World) (x : Extender) : Bool :=
  match x.phase with
  | .resting wake => x.cancelled || wake ≤ w.now
  | .extending => true

/-- Ends and cancels the main loop. -/
def demote (x : Extender) (cause : Option StoreError) (w : World) :
    Progress Extender Unit × World :=
  (.ended (), (w.log (.schedule (.demoted x.lock.name cause))).cancel x.main)

/-- One step of an extender. -/
def step (x : Extender) (w : World) : Progress Extender Unit × World :=
  match x.phase with
  | .resting _ =>
      if x.cancelled then (.ended (), w) else (.on { x with phase := .extending }, w)
  | .extending =>
      match w.perform x.lock.extend with
      | (.ok true, w) =>
          (.on { x with phase := .resting (Clock.alarm w.now x.lock.renewInterval) },
            w.log (.schedule (.lockExtended x.lock.name)))
      | (.ok false, w) => x.demote none w
      | (.error cause, w) => x.demote (some cause) w

end Extender

end JobFleet.Schedule
