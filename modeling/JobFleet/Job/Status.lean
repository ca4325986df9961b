import JobFleet.DomainError

/-!
# Criticality, status and outcome

The three small vocabularies of a job: how it is treated at the fleet's ceiling, what the store
says about it, and what became of handing it in. Each word has one spelling, and reading is
exact.
-/

namespace JobFleet

/-- How a job is treated when the fleet's ceiling of running jobs is reached. -/
inductive Criticality
  | critical
  | important
  | bestEffort
deriving DecidableEq, Repr

namespace Criticality

/-- The criticality of a job for which none is chosen. -/
def usual : Criticality := .important

/-- The word for a criticality. -/
def text : Criticality → String
  | .critical => "critical"
  | .important => "important"
  | .bestEffort => "best_effort"

/-- The criticality with a given word. -/
def ofText? (s : String) : Option Criticality :=
  if s = "critical" then some .critical
  else if s = "important" then some .important
  else if s = "best_effort" then some .bestEffort
  else none

/-- The criticality with a given word, or the fault that names the word. -/
def read (s : String) : Except DomainError Criticality :=
  match ofText? s with
  | some c => .ok c
  | none => .error (.validation ("unknown criticality: " ++ s))

/-- Whether admission goes through the fleet's counter: all but critical jobs do. -/
def counted : Criticality → Bool
  | .critical => false
  | _ => true

theorem ofText?_text (c : Criticality) : ofText? c.text = some c := by cases c <;> rfl

end Criticality

/-- What the store says about a job. -/
inductive JobStatus
  | queued
  | running
  | succeeded
  | failed
deriving DecidableEq, Repr

namespace JobStatus

/-- The word for a status. -/
def text : JobStatus → String
  | .queued => "queued"
  | .running => "running"
  | .succeeded => "succeeded"
  | .failed => "failed"

/-- The status with a given word. -/
def ofText? (s : String) : Option JobStatus :=
  if s = "queued" then some .queued
  else if s = "running" then some .running
  else if s = "succeeded" then some .succeeded
  else if s = "failed" then some .failed
  else none

/-- The fault of a word that is no status. -/
def unknown (s : String) : DomainError := .validation ("unknown job status: " ++ s)

/-- The status with a given word, or the fault that names the word. -/
def read (s : String) : Except DomainError JobStatus :=
  match ofText? s with
  | some status => .ok status
  | none => .error (unknown s)

/-- Whether a job in this status keeps its key from being handed in again: all but failed
ones do. -/
def blocks : JobStatus → Bool
  | .failed => false
  | _ => true

/-- Whether a job in this status is over. -/
def terminal : JobStatus → Bool
  | .succeeded | .failed => true
  | _ => false

theorem ofText?_text (s : JobStatus) : ofText? s.text = some s := by cases s <;> rfl

end JobStatus

/-- What became of handing in a job. -/
inductive EnqueueOutcome
  | enqueued
  | duplicate
  | queueFull
  | unavailable
deriving DecidableEq, Repr

namespace EnqueueOutcome

/-- The word for an outcome. -/
def text : EnqueueOutcome → String
  | .enqueued => "enqueued"
  | .duplicate => "duplicate"
  | .queueFull => "queue_full"
  | .unavailable => "unavailable"

/-- The outcome with a given word. -/
def ofText? (s : String) : Option EnqueueOutcome :=
  if s = "enqueued" then some .enqueued
  else if s = "duplicate" then some .duplicate
  else if s = "queue_full" then some .queueFull
  else if s = "unavailable" then some .unavailable
  else none

theorem ofText?_text (o : EnqueueOutcome) : ofText? o.text = some o := by cases o <;> rfl

end EnqueueOutcome

end JobFleet
