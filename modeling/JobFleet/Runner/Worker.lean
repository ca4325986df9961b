import JobFleet.Runner.HandlerCall

/-!
# The life of a worker

A worker takes jobs from the front of its runner's queue, one after another. A counted job needs
a slot of the fleet's counter; it is refused if none is free or the counter cannot be reached.
An admitted job is marked as running, called until an attempt succeeds or none is left, and
marked with its end; then its slot is given back. A worker that is cancelled finishes the call
in hand, gives up a backoff that is not over, and takes no further job.
-/

namespace JobFleet.Worker

/-- The worker in another phase. -/
def inPhase (k : Worker) (phase : Phase) : Worker := { k with phase }

/-- Whether a task has ended as a call that keeps its ending. -/
def callEnded (w : World) (task : TaskId) : Bool :=
  match w.tasks.find? task with
  | some (.handler h) => h.ending?.isSome
  | _ => true

/-- Whether the next step can be taken. -/
def ready (w : World) (k : Worker) : Bool :=
  match k.phase with
  | .awaiting _ task => callEnded w task
  | .backingOff _ wake => k.cancelled || wake ≤ w.now
  | .resting _ _ wake => wake ≤ w.now
  | _ => true

/-- Logs an event of the runner. -/
def tell (w : World) (e : Runner.Event) : World := w.log (.runner e)

/-- Counts one more failed job. -/
def countFailed (k : Worker) (w : World) : World :=
  w.count k.runner fun s => { s with failed := s.failed + 1 }

/-- The call that writes a job's status with its time to live. -/
def statusCall (c : Runner.Config) (job : Job) (status : JobStatus) : Call .nothing :=
  .set job.key.statusKey status.text (some (c.ttl status))

/-- Writes a job's status; a critical job goes on when that fails. -/
def writeStatus (k : Worker) (job : Job) (status : JobStatus) (w : World) :
    Except StoreError Unit × World :=
  match w.perform (statusCall (w.runnerConfig k.runner) job status) with
  | (.ok _, w) => (.ok (), w)
  | (.error cause, w) =>
      match job.criticality with
      | .critical => (.ok (), tell w (.statusUnwritten job status cause))
      | _ => (.error cause, w)

/-- What follows an admitted job: a counted one gives its slot back first. -/
def afterJob (t : Taken) : Phase := if t.counted then .releasing t 1 else .choosing

/-- Gives a job up because its status could not be written. -/
def abort (k : Worker) (t : Taken) (cause : StoreError) (w : World) : Worker × World :=
  (k.inPhase (afterJob t), k.countFailed (tell w (.aborted t.job cause)))

/-- Takes the next job, or leaves the slot when there is none. A worker looks at its token and
takes the job in one step here: one that is cancelled between the two has taken the job. -/
def choose (k : Worker) (w : World) : Progress Worker Unit × World :=
  if k.cancelled then (.ended (), w)
  else
    match (w.runners.find? k.runner).map Runner.pending with
    | some (job :: rest) =>
        (.on (k.inPhase (.admitting job)),
          w.modifyRunner k.runner fun r => { r with pending := rest })
    | _ =>
        let w := w.modifyRunner k.runner fun r =>
          if r.slot.map Runner.Slot.generation = some k.generation then { r with slot := none }
          else r
        (.ended (), tell w .workerIdle)

/-- Asks for a slot of the fleet's counter; a critical job needs none. -/
def askForSlot (k : Worker) (job : Job) (w : World) : Worker × World :=
  if job.criticality.counted then
    match w.perform (.incrementIfBelow jobCounterKey (w.runnerConfig k.runner).maxRunning) with
    | (.ok true, w) => (k.inPhase (.beginning ⟨job, true⟩), w)
    | (.ok false, w) => (k.inPhase (.refusing job .ceiling), w)
    | (.error cause, w) => (k.inPhase (.refusing job (.unreachable cause)), w)
  else (k.inPhase (.beginning ⟨job, false⟩), w)

/-- Drops or rejects a job; its status is written if that is possible. -/
def refuse (k : Worker) (job : Job) (why : Runner.Refusal) (w : World) : Worker × World :=
  let config := w.runnerConfig k.runner
  let (written, w) := w.perform (statusCall config job .failed)
  let w := match written with
    | .ok _ => w
    | .error cause => tell w (.refusalUnrecorded job cause)
  let w := tell w (.refused job why config.maxRunning)
  let w := w.count k.runner fun s =>
    match job.criticality with
    | .bestEffort => { s with dropped := s.dropped + 1 }
    | _ => { s with rejected := s.rejected + 1 }
  (k.inPhase .choosing, w)

/-- Marks a job as running. -/
def markRunning (k : Worker) (t : Taken) (w : World) : Worker × World :=
  match k.writeStatus t.job .running w with
  | (.ok _, w) =>
      let w := tell w (.started t.job)
      (k.inPhase (.calling t), w.count k.runner fun s => { s with started := s.started + 1 })
  | (.error cause, w) => k.abort t cause w

/-- Calls the job's handler as a task of its own, so that a panic of the handler ends that task and
nothing else. The closure that makes the handler's task is taken to return. -/
def call (k : Worker) (t : Taken) (w : World) : Worker × World :=
  let (task, w) := w.spawn (.handler (.start t.job.handler))
  (k.inPhase (.awaiting t task), w)

/-- Takes note of a failed attempt: another one follows after a backoff, if one is left. -/
def recordAttempt (k : Worker) (t : Taken) (fault : String) (w : World) : Worker × World :=
  let t := { t with job := t.job.recordFailure }
  let w := tell w (.attemptFailed t.job fault)
  let policy := t.job.retryPolicy
  if policy.allowsAfter t.job.failures then
    (k.inPhase (.backingOff t (Clock.alarm w.now (policy.delayAfter t.job.failures))), w)
  else (k.inPhase (.exhausted t), w)

/-- Learns how the call ended. -/
def join (k : Worker) (t : Taken) (task : TaskId) (w : World) : Worker × World :=
  let ending := match w.tasks.find? task with
    | some (.handler h) => h.ending?.getD .succeeded
    | _ => .succeeded
  let w := w.endTask task
  match ending.fault? with
  | none => (k.inPhase (.succeeding t), w)
  | some fault => k.recordAttempt t fault w

/-- Marks a job as succeeded. -/
def succeed (k : Worker) (t : Taken) (w : World) : Worker × World :=
  match k.writeStatus t.job .succeeded w with
  | (.ok _, w) =>
      let w := tell w (.succeeded t.job)
      (k.inPhase (afterJob t), w.count k.runner fun s => { s with succeeded := s.succeeded + 1 })
  | (.error cause, w) => k.abort t cause w

/-- Marks a job as failed and tells why. -/
def fail (k : Worker) (t : Taken) (event : Runner.Event) (w : World) : Worker × World :=
  match k.writeStatus t.job .failed w with
  | (.ok _, w) => (k.inPhase (afterJob t), k.countFailed (tell w event))
  | (.error cause, w) => k.abort t cause w

/-- Gives a slot of the fleet's counter back; a failed attempt is repeated after a rest, as
often as the runner is told. -/
def release (k : Worker) (t : Taken) (attempt : Nat) (w : World) : Worker × World :=
  match w.perform (.decrement jobCounterKey) with
  | (.ok _, w) => (k.inPhase .choosing, w)
  | (.error cause, w) =>
      let policy := (w.runnerConfig k.runner).release
      if policy.allowsAfter attempt then
        (k.inPhase (.resting t attempt (Clock.alarm w.now (policy.delayAfter attempt))),
          tell w (.slotRetry t.job attempt policy.maxAttempts cause))
      else (k.inPhase .choosing, tell w (.slotStuck t.job attempt cause))

/-- Whether a worker gives a backoff up: it has been cancelled, and heeds that rather than the end
of the backoff. -/
def givesUp (k : Worker) (wake : Nat) (w : World) : Bool :=
  k.cancelled && !(w.timersFirst && wake ≤ w.now)

/-- A worker that has not been cancelled gives no backoff up. -/
theorem givesUp_of_free {k : Worker} (h : k.cancelled = false) (wake : Nat) (w : World) :
    k.givesUp wake w = false := by
  rw [givesUp, h, Bool.false_and]

/-- A worker that has been cancelled gives a backoff up that is not over. -/
theorem givesUp_of_early {k : Worker} {w : World} {wake : Nat} (h : k.cancelled = true)
    (hw : w.now < wake) : k.givesUp wake w = true := by
  simp [givesUp, h, Nat.not_le_of_lt hw]

/-- A worker that can go on and does not give its backoff up has come to the end of it. -/
theorem over_of_ready {k : Worker} {w : World} {t : Taken} {wake : Nat} (h : k.ready w = true)
    (hp : k.phase = .backingOff t wake) (hg : k.givesUp wake w = false) : wake ≤ w.now := by
  simp only [ready, hp, Bool.or_eq_true, decide_eq_true_eq] at h
  rcases h with hc | hw
  · exact Nat.le_of_not_lt fun hlt => Bool.noConfusion (hg.symm.trans (givesUp_of_early hc hlt))
  · exact hw

/-- Goes on with a state. -/
def goOn (p : Worker × World) : Progress Worker Unit × World := (.on p.1, p.2)

/-- One step of a worker. -/
def step (k : Worker) (w : World) : Progress Worker Unit × World :=
  match k.phase with
  | .starting => (.on (k.inPhase .choosing), tell w .workerStarted)
  | .choosing => k.choose w
  | .admitting job => goOn (k.askForSlot job w)
  | .refusing job why => goOn (k.refuse job why w)
  | .beginning t => goOn (k.markRunning t w)
  | .calling t => goOn (k.call t w)
  | .awaiting t task => goOn (k.join t task w)
  | .succeeding t => goOn (k.succeed t w)
  | .exhausted t => goOn (k.fail t (.failedForGood t.job) w)
  | .backingOff t wake =>
      (.on (k.inPhase (if k.givesUp wake w then .abandoning t else .calling t)), w)
  | .abandoning t => goOn (k.fail t (.abandoned t.job) w)
  | .releasing t attempt => goOn (k.release t attempt w)
  | .resting t attempt _ => (.on (k.inPhase (.releasing t (attempt + 1))), w)

end JobFleet.Worker
