import JobFleet.Job.Basic
import JobFleet.Text.Quoted

/-!
# Handlers

What a job does when it is called is a script: for each call, counted from one, a list of
actions. A call succeeds at the end of its list, or ends earlier by an action that says so. The
actions reach everything a handler may reach: time, gates shared with others, the store, and
other runners.
-/

namespace JobFleet

/-- A fault with the cause below it, if there is one. -/
structure Failure where
  message : String
  cause : Option String
deriving DecidableEq, Repr

/-- The fault and its cause in one text. -/
def Failure.chain (f : Failure) : String :=
  match f.cause with
  | some c => f.message ++ ": " ++ c
  | none => f.message

/-- How a handler's call ended. -/
inductive Ending
  | succeeded
  | failed (fault : Failure)
  | panicked (message : String)
deriving DecidableEq, Repr

mutual

/-- One thing that a handler does. -/
inductive Action
  | succeed
  | fail (fault : Failure)
  | panic (message : String)
  | sleep (d : Duration)
  | wait (gate : String)
  | setAvailable (value : Bool)
  | set (key value : String)
  | delete (key : String)
  | enqueue (runner : String) (plan : JobPlan)

/-- A job before its handler has a number: its key, how it is treated, and its script. -/
inductive JobPlan
  | mk (key : JobKey) (maxAttempts : Nat) (backoff : Duration) (criticality : Criticality)
      (script : Nat → List Action)

end

/-- The key of a planned job. -/
def JobPlan.key : JobPlan → JobKey
  | .mk key .. => key

/-- The script of a planned job's handler. -/
def JobPlan.script : JobPlan → Nat → List Action
  | .mk _ _ _ _ script => script

/-- The job of a plan, with its handler's number. -/
def JobPlan.job (p : JobPlan) (handler : HandlerId) : Job :=
  match p with
  | .mk key maxAttempts backoff criticality _ =>
      ⟨key, handler, maxAttempts, backoff, 0, criticality⟩

/-- A handler: a script with the label it is reported under and the number of its calls so far,
or the handler of the parser's tick, which only tells that it ran. -/
inductive Handler
  | scripted (label : String) (calls : Nat) (script : Nat → List Action)
  | announceTick

/-- The fault of a handler that panicked, as the worker sees it. -/
def panicMessage (message : String) : String :=
  "handler panicked: task N panicked with message " ++ Text.quoted message

/-- The text of an ending that is a failed attempt. -/
def Ending.fault? : Ending → Option String
  | .succeeded => none
  | .failed fault => some fault.chain
  | .panicked message => some (panicMessage message)

end JobFleet
