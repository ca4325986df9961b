import JobFleet.Fleet.Task
import JobFleet.Log.Event
import JobFleet.Store.Basic

/-!
# The fleet's world

One store, one clock, the members of the fleet by name, their tasks by number, and a journal of
what happened. Every call on the store goes through `perform`, which enters it in the journal
and lets the network interfere: a fault may refuse a call before it takes effect, lose its reply
afterwards, or slip in a write of somebody else.
-/

namespace JobFleet

/-- A disturbance of calls of one method: some calls pass first, then a number of them suffer a
write slipped in before them, an error, or both. A late error lets the call take effect. -/
structure Fault where
  method : Method
  skip : Nat
  times : Nat
  sneak : Option (String × Option String)
  error : Option StoreError
  late : Bool
deriving DecidableEq, Repr

/-- A counting gate: its permits, and the tasks that wait at it in order of arrival. -/
structure Gate where
  permits : Nat
  waiting : List TaskId
deriving DecidableEq, Repr

/-- Something that ran on behalf of a job or a scheduler. -/
inductive Run
  | job (label : String) (call : Nat)
  | nested (key : JobKey) (outcome : EnqueueOutcome)
  | service (scheduler : String) (call : Nat) (settings : ParserSettings) (force : Bool)
  | serviceDone (scheduler : String) (call : Nat)
deriving DecidableEq, Repr

/-- An entry of the journal. -/
inductive Record
  | called (c : AnyCall)
  | ran (r : Run)
  | logged (e : Event)

/-- A process that serves requests: whose word about a client's address it takes. Its runner,
limiter and scheduler go by its name. -/
structure App where
  trusted : List Net.Address
deriving DecidableEq, Repr

/-- The world. A worker that finds both that its backoff is over and that it has been cancelled
heeds either; `timersFirst` tells which. -/
structure World where
  now : Nat
  utc : Int
  timersFirst : Bool
  store : Store
  network : List Fault
  runners : Table String Runner
  schedulers : Table String Scheduler
  limiters : Table String Limiter
  apps : Table String App
  locks : Table String Lock
  gates : Table String Gate
  handlers : Table HandlerId Handler
  nextHandler : HandlerId
  tasks : Table TaskId Task
  nextTask : TaskId
  identities : Nat
  journal : List (Nat × Record)

namespace World

/-- A world at the start of its clock with nothing in it, at a second of universal time. -/
def empty (utc : Int) : World where
  now := 0
  utc := utc
  timersFirst := false
  store := .empty
  network := []
  runners := ∅
  schedulers := ∅
  limiters := ∅
  apps := ∅
  locks := ∅
  gates := ∅
  handlers := ∅
  nextHandler := 0
  tasks := ∅
  nextTask := 0
  identities := 0
  journal := []

/-- Enters something in the journal. -/
def enter (w : World) (r : Record) : World := { w with journal := (w.now, r) :: w.journal }

/-- Logs an event. -/
def log (w : World) (e : Event) : World := w.enter (.logged e)

/-- Notes that something ran. -/
def note (w : World) (r : Run) : World := w.enter (.ran r)

/-- An identity that nobody has yet. -/
def identify (w : World) : WorkerId × World :=
  (⟨BitVec.ofNat 128 (w.identities + 1)⟩, { w with identities := w.identities + 1 })

/-- Files a handler under a number of its own. -/
def addHandler (w : World) (h : Handler) : HandlerId × World :=
  (w.nextHandler,
    { w with handlers := w.handlers.insert w.nextHandler h, nextHandler := w.nextHandler + 1 })

/-- Puts a task in a state. -/
def setTask (w : World) (id : TaskId) (t : Task) : World :=
  { w with tasks := w.tasks.insert id t }

/-- Starts a task. -/
def spawn (w : World) (t : Task) : TaskId × World :=
  (w.nextTask, { w with tasks := w.tasks.insert w.nextTask t, nextTask := w.nextTask + 1 })

/-- Removes a task that nobody waits for any more. -/
def endTask (w : World) (id : TaskId) : World := { w with tasks := w.tasks.erase id }

/-- Whether a task has not ended. -/
def running (w : World) (id : TaskId) : Bool := w.tasks.contains id

/-- Changes a runner. -/
def modifyRunner (w : World) (name : String) (f : Runner → Runner) : World :=
  { w with runners := w.runners.modify name f }

/-- Changes what a runner has counted. -/
def count (w : World) (name : String) (f : Runner.Stats → Runner.Stats) : World :=
  w.modifyRunner name fun r => { r with stats := f r.stats }

/-- What a runner is told; a name that is no runner's stands for one that nobody set up. -/
def runnerConfig (w : World) (name : String) : Runner.Config :=
  ((w.runners.find? name).map Runner.config).getD .usual

/-- Changes a scheduler. -/
def modifyScheduler (w : World) (name : String) (f : Scheduler → Scheduler) : World :=
  { w with schedulers := w.schedulers.modify name f }

/-- Takes the fault that a call of a method meets, if it meets one. -/
def takeFault (m : Method) : List Fault → Option Fault × List Fault
  | [] => (none, [])
  | f :: rest =>
      if f.method = m ∧ 0 < f.times then
        if 0 < f.skip then (none, { f with skip := f.skip - 1 } :: rest)
        else (some f, { f with times := f.times - 1 } :: rest)
      else
        let (g, rest) := takeFault m rest
        (g, f :: rest)

/-- The call that slips a write in: a text that stays, or the removal of a key. -/
def sneakCall : String × Option String → Call .nothing
  | (key, some value) => .set key value none
  | (key, none) => .delete key

/-- Lets the store carry out a call. -/
def carryOut {a : Answer} (w : World) (c : Call a) : Except StoreError a.Value × World :=
  let (answer, store) := w.store.apply w.now c
  (answer, { w with store })

/-- A call that meets a fault. -/
def suffer {a : Answer} (w : World) (f : Fault) (c : Call a) :
    Except StoreError a.Value × World :=
  let (slipped, w) := match f.sneak with
    | some s => w.carryOut (sneakCall s)
    | none => (.ok (), w)
  match slipped with
  | .error e => (.error e, w)
  | .ok _ =>
      match f.error with
      | none => w.carryOut c
      | some e => (.error e, if f.late then (w.carryOut c).2 else w)

/-- Makes a call on the store. -/
def perform {a : Answer} (w : World) (c : Call a) : Except StoreError a.Value × World :=
  let w := w.enter (.called ⟨a, c⟩)
  let (met, network) := takeFault c.method w.network
  let w := { w with network }
  match met with
  | none => w.carryOut c
  | some f => w.suffer f c

/-- Hands out permits at a gate. -/
def openGate (w : World) (name : String) (permits : Nat) : World :=
  let g := (w.gates.find? name).getD ⟨0, []⟩
  { w with gates := w.gates.insert name { g with permits := g.permits + permits } }

/-- Whether a task may pass a gate: as many permits are there as tasks that wait up to it. -/
def mayPass (w : World) (name : String) (id : TaskId) : Bool :=
  let g := (w.gates.find? name).getD ⟨0, []⟩
  g.waiting.idxOf id < g.permits

/-- Queues a task at a gate. -/
def queueAt (w : World) (name : String) (id : TaskId) : World :=
  let g := (w.gates.find? name).getD ⟨0, []⟩
  { w with gates := w.gates.insert name { g with waiting := g.waiting ++ [id] } }

/-- Lets a task pass a gate for good. -/
def passGate (w : World) (name : String) (id : TaskId) : World :=
  let g := (w.gates.find? name).getD ⟨0, []⟩
  { w with gates := w.gates.insert name ⟨g.permits - 1, g.waiting.erase id⟩ }

end World

end JobFleet
