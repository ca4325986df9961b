import JobFleet.Runner.Enqueue

/-!
# Cycles

A cycle loads the settings and, if autoupdate is enabled or the cycle is forced, calls the
service. Its report carries the interval that the settings ask for, whatever the service said.
-/

namespace JobFleet.Schedule.Cycle

/-- A cycle about to load the settings. -/
def start (scheduler : String) (force : Bool) : Cycle := ⟨scheduler, force, .loading⟩

/-- Whether the next step can be taken. -/
def ready (w : World) (c : Cycle) : Bool :=
  match c.phase with
  | .loading => true
  | .pausing _ _ wake _ => wake ≤ w.now
  | .enqueuing _ inner => inner.ready w

/-- Ends with a report or a fault. -/
def finish (r : Except CycleError Summary) : Progress Cycle CycleEnding := .ended (.finished r)

/-- Ends as a service ended, with the interval of the settings. -/
def conclude (settings : ParserSettings) : ServiceEnding → Progress Cycle CycleEnding
  | .summary s => finish (.ok { s with interval := settings.interval })
  | .failed fault => finish (.error (.service fault))
  | .panicked => .ended .panicked

/-- The job that a tick hands in. -/
def tickJob (w : World) (defaults : JobDefaults) (criticality : Criticality)
    (handler : HandlerId) : Job :=
  (defaults.job (tickKey w.utc) handler).withCriticality criticality

/-- Calls the service with the settings. -/
def callService (c : Cycle) (settings : ParserSettings) (service : Service) (w : World) :
    Progress Cycle CycleEnding × World :=
  match service with
  | .scripted calls reply =>
      let call := calls + 1
      let w := w.modifyScheduler c.scheduler fun s =>
        { s with service := .scripted call reply }
      let w := w.note (.service c.scheduler call settings true)
      match (reply call).pause with
      | some d =>
          let wake := Clock.alarm w.now d
          (.on { c with phase := .pausing settings call wake (reply call).ending }, w)
      | none => (conclude settings (reply call).ending, w)
  | .runner runner defaults criticality handler =>
      let job := tickJob w defaults criticality handler
      (.on { c with phase := .enqueuing settings (.start runner job) }, w)

/-- Loads the settings and decides whether the service is called. -/
def load (c : Cycle) (w : World) : Progress Cycle CycleEnding × World :=
  match w.schedulers.find? c.scheduler with
  | none => (.ended .panicked, w)
  | some s =>
      match s.source with
      | .failing fault => (finish (.error (.settings fault)), w)
      | .held settings =>
          if settings.enabled || c.force then c.callService settings s.service w
          else (finish (.ok (.disabled settings.interval)), w)

/-- The report of a tick that was handed in. -/
def tickSummary (settings : ParserSettings) (key : JobKey) (outcome : EnqueueOutcome) :
    Summary :=
  { Summary.new outcome.text with interval := settings.interval }.withExtra "job_key"
    (.text key.text)

/-- One step of a cycle, by the task that runs it. -/
def step (self : TaskId) (c : Cycle) (w : World) : Progress Cycle CycleEnding × World :=
  match c.phase with
  | .loading => c.load w
  | .pausing settings call _ ending =>
      (conclude settings ending, w.note (.serviceDone c.scheduler call))
  | .enqueuing settings inner =>
      match inner.step self w with
      | (.on inner, w) => (.on { c with phase := .enqueuing settings inner }, w)
      | (.ended outcome, w) =>
          let w := w.log (.schedule (.tick inner.job.key outcome true settings.enabled))
          (finish (.ok (tickSummary settings inner.job.key outcome)), w)

/-- Gives up a cycle. -/
def abandon (self : TaskId) (c : Cycle) (w : World) : World :=
  match c.phase with
  | .enqueuing _ inner => inner.abandon self w
  | _ => w

end JobFleet.Schedule.Cycle
