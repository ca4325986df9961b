import JobFleet.Fleet.Step

/-!
# One way to run the fleet

The executor picks one order of steps. Tasks that can go on stand in a line; the first one takes
steps until it has to wait, and each task that a step enables joins the end of the line. Tasks
that are enabled together join in the order in which they began to wait. When the line is empty
nothing more can happen at this instant, and time may move to the next instant that a task waits
for. An operation that is asked for takes its steps first. When it has to wait for an instant,
it goes on before everything else at that instant; when it has to wait for another task, it goes
on only after everything else has.
-/

namespace JobFleet

/-- A world, the line of tasks that can go on, and tasks in the order in which they began to
wait. -/
structure Executor where
  world : World
  line : List TaskId
  waiting : List TaskId

namespace Executor

/-- The most steps taken at one instant. -/
def stepBound : Nat := 10000000

/-- An executor of a world in which no task can go on. -/
def ofWorld (w : World) : Executor := ⟨w, [], []⟩

/-- Lists tasks that are new after those that wait, and forgets tasks that are gone. -/
def enlist (x : Executor) : Executor :=
  let present := x.world.tasks.entries.map Prod.fst
  let known := x.waiting.filter present.contains
  { x with waiting := known ++ present.filter fun id => !known.contains id }

/-- Lets every task that can go on and is not in the line join its end, except those held
back. -/
def refill (x : Executor) (held : List TaskId) : Executor :=
  let x := x.enlist
  let joining := x.waiting.filter fun id =>
    x.world.enabled id && !x.line.contains id && !held.contains id
  { x with line := x.line ++ joining }

/-- Lists a task last among those that wait. -/
def rest (x : Executor) (id : TaskId) : Executor :=
  { x with waiting := x.waiting.filter (· ≠ id) ++ [id] }

/-- Lets a task take steps until it has to wait. -/
def poll (held : List TaskId) (id : TaskId) : Nat → Executor → Executor
  | 0, x => x
  | bound + 1, x =>
      match x.world.step? id with
      | none => x.rest id
      | some w => poll held id bound (refill { x with world := w } (id :: held))

/-- Runs the line until it is empty; the tasks held back do not join it. -/
def runLine (held : List TaskId) : Nat → Executor → Executor
  | 0, x => x
  | bound + 1, x =>
      match x.line with
      | [] => x
      | id :: rest => runLine held bound (poll held id stepBound { x with line := rest })

/-- Runs everything that can happen at this instant, except for tasks held back. -/
def settleBut (x : Executor) (held : List TaskId) : Executor :=
  runLine held stepBound (x.refill held)

/-- Runs everything that can happen at this instant. -/
def settle (x : Executor) : Executor := x.settleBut []

/-- Sets the clock. -/
def moveTo (x : Executor) (t : Nat) : Executor := { x with world := { x.world with now := t } }

/-- Lets time pass up to an instant; whatever is due on the way happens when it is due. The
first argument bounds the instants at which something happens. -/
def passTo (target : Nat) : Nat → Executor → Executor
  | 0, x => (x.moveTo target).settle
  | bound + 1, x =>
      let x := x.settle
      match x.world.nextAlarm? with
      | some t =>
          if t ≤ target then passTo target bound (x.moveTo t) else (x.moveTo target).settle
      | none => (x.moveTo target).settle

/-- Lets time pass. Something happens at no more instants than there are nanoseconds. -/
def advance (x : Executor) (nanos : Nat) : Executor :=
  passTo (x.world.now + nanos) (nanos + 1) x

/-- The result of an operation that has ended. -/
def result? (x : Executor) (id : TaskId) : Option Result :=
  match x.world.tasks.find? id with
  | some (.ended r) => some r
  | _ => none

/-- Takes an ended operation's result away. -/
def collect (x : Executor) (id : TaskId) : Executor := { x with world := x.world.endTask id }

/-- Waits for an operation: everything else at the instant goes first, then the operation, and
when neither can go on, time moves on to the next instant, where the operation looks first
whether it was due. -/
def awaitResult (id : TaskId) : Nat → Executor → Option Result × Executor
  | 0, x => (none, x)
  | bound + 1, x =>
      match x.result? id with
      | some r => (some r, x.collect id)
      | none =>
          let x := x.settleBut [id]
          if x.world.enabled id then awaitResult id bound (poll [id] id stepBound x)
          else
            match x.world.nextAlarm? with
            | some t => awaitResult id bound (poll [id] id stepBound ((x.moveTo t).refill [id]))
            | none => (none, x)

/-- Starts an operation without taking a step of it. -/
def launch (x : Executor) (o : Operation) : TaskId × Executor :=
  let (id, w) := x.world.spawn (.operation o)
  (id, { x with world := w })

/-- Carries out an operation: it takes its steps first, and is waited for if it has to wait. -/
def run (x : Executor) (o : Operation) : Option Result × Executor :=
  let (id, x) := x.launch o
  awaitResult id stepBound (poll [id] id stepBound x)

end Executor

end JobFleet
