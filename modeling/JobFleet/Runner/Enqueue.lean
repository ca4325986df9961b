import JobFleet.Fleet.World

/-!
# Handing in a job

A job is handed in under the runner's gate, one at a time. If the queue has room, the status of
the job's key is read and, unless it blocks, claimed as queued by the call that fits what was
read: set if absent, or replaced if still the same. Whoever wins the claim puts the job at the
end of the queue and starts a worker if there is none.
-/

namespace JobFleet.Enqueue

/-- A job about to be handed in to a runner. -/
def start (runner : String) (job : Job) : Enqueue := ⟨runner, job, .waiting⟩

/-- Whether the next step can be taken: only the gate makes it wait. -/
def ready (w : World) (e : Enqueue) : Bool :=
  match e.phase, w.runners.find? e.runner with
  | .waiting, some r => r.gate.isNone
  | _, _ => true

/-- Puts a job at the end of a runner's queue and starts a worker in an empty slot. -/
def push (w : World) (name : String) (job : Job) : World :=
  match w.runners.find? name with
  | none => w
  | some r =>
      let w := w.modifyRunner name fun r => { r with pending := r.pending ++ [job] }
      if r.slot.isSome then w
      else
        let generation := r.generations + 1
        let (task, w) := w.spawn (.worker ⟨name, generation, false, .starting⟩)
        w.modifyRunner name fun r =>
          { r with generations := generation, slot := some ⟨generation, task, false⟩ }

/-- Lets the next job in. -/
def leaveGate (e : Enqueue) (w : World) : World :=
  w.modifyRunner e.runner fun r => { r with gate := none }

/-- Ends with an outcome, telling what led to it. -/
def conclude (e : Enqueue) (outcome : EnqueueOutcome) (event : Runner.Event) (w : World) :
    Progress Enqueue EnqueueOutcome × World :=
  (.ended outcome, e.leaveGate (w.log (.runner event)))

/-- Ends as a duplicate, which is counted. -/
def concludeDuplicate (e : Enqueue) (event : Runner.Event) (w : World) :
    Progress Enqueue EnqueueOutcome × World :=
  e.conclude .duplicate event
    (w.count e.runner fun s => { s with duplicates := s.duplicates + 1 })

/-- Goes on from what the key's status was read as. -/
def judge (e : Enqueue) (held : Option String) (w : World) :
    Progress Enqueue EnqueueOutcome × World :=
  match held with
  | none => (.on { e with phase := .claiming none }, w)
  | some raw =>
      match JobStatus.ofText? raw with
      | some status =>
          if status.blocks then e.concludeDuplicate (.duplicateOf e.job status) w
          else (.on { e with phase := .claiming (some raw) }, w)
      | none => e.concludeDuplicate (.unknownStatus e.job raw) w

/-- The call that claims the key as queued, given what the key held. -/
def claim (e : Enqueue) (ttl : Duration) : Option String → Call .flag
  | none => .setIfAbsent e.job.key.statusKey JobStatus.queued.text (some ttl)
  | some raw => .replace e.job.key.statusKey raw JobStatus.queued.text (some ttl)

/-- Takes the job into the queue. -/
def accept (e : Enqueue) (w : World) : Progress Enqueue EnqueueOutcome × World :=
  let w := w.log (.runner (.enqueued e.job))
  let w := w.count e.runner fun s => { s with enqueued := s.enqueued + 1 }
  (.ended .enqueued, e.leaveGate (push w e.runner e.job))

/-- One step of handing in a job, by the task that does it. -/
def step (self : TaskId) (e : Enqueue) (w : World) : Progress Enqueue EnqueueOutcome × World :=
  match w.runners.find? e.runner with
  | none => (.ended .unavailable, w)
  | some r =>
      match e.phase with
      | .waiting =>
          if r.config.capacity ≤ r.pending.length then
            e.conclude .queueFull (.queueFull e.job r.config.capacity) w
          else (.on { e with phase := .reading },
            w.modifyRunner e.runner fun r => { r with gate := some self })
      | .reading =>
          match w.perform (.get e.job.key.statusKey) with
          | (.ok held, w) => e.judge held w
          | (.error cause, w) => e.conclude .unavailable (.readFailed e.job cause) w
      | .claiming held =>
          match w.perform (e.claim r.config.queuedTtl held) with
          | (.ok true, w) => e.accept w
          | (.ok false, w) => e.concludeDuplicate (.duplicate e.job) w
          | (.error cause, w) => e.conclude .unavailable (.claimFailed e.job cause) w

/-- Gives up handing in a job: a gate that this task holds opens. -/
def abandon (self : TaskId) (e : Enqueue) (w : World) : World :=
  w.modifyRunner e.runner fun r =>
    if r.gate = some self then { r with gate := none } else r

end JobFleet.Enqueue
