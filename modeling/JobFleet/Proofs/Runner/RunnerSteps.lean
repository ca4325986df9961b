import JobFleet.Proofs.Fleet.Crew

/-!
# What a step makes of its runner

A step of a hand-in, of a worker or of a stop changes its runner in one of a few ways. A
`RunnerStep` says what the runner is afterwards, down to its counts and its gate, and what becomes
of its crew; the turns leave open what only the runner's own books notice.
-/

namespace JobFleet

/-- A job as if no attempt had failed yet. -/
def Job.untried (j : Job) : Job := { j with failures := 0 }

namespace Runner

/-- What became of a job that a worker has taken from the queue. -/
inductive Verdict
  | succeeded
  | failed
  | dropped
  | rejected
deriving DecidableEq, Repr

/-- What a runner counts. -/
inductive Item
  | enqueued
  | duplicate
  | started
  | ended (v : Verdict)
deriving DecidableEq, Repr

/-- The counts with one more of an item. -/
def Stats.add (s : Stats) : Item → Stats
  | .enqueued => { s with enqueued := s.enqueued + 1 }
  | .duplicate => { s with duplicates := s.duplicates + 1 }
  | .started => { s with started := s.started + 1 }
  | .ended .succeeded => { s with succeeded := s.succeeded + 1 }
  | .ended .failed => { s with failed := s.failed + 1 }
  | .ended .dropped => { s with dropped := s.dropped + 1 }
  | .ended .rejected => { s with rejected := s.rejected + 1 }

/-- What happens to a job at a runner: it is taken into the queue, taken out of it by a worker,
counted as started, its handler is called, and it ends. -/
inductive Episode
  | accepted (job : Job)
  | taken (job : Job)
  | started (job : Job)
  | called (job : Job)
  | ended (job : Job) (v : Verdict)
deriving DecidableEq, Repr

/-- A job that a worker has taken and whose end is not counted yet, and whether it has been counted
as started. -/
structure Hand where
  job : Job
  begun : Bool
deriving DecidableEq, Repr

/-- A runner that has counted one more of an item. -/
def counts (r : Runner) (i : Item) : Runner := { r with stats := r.stats.add i }

/-- A runner whose slot is empty if the worker of a generation sat there. -/
def vacates (r : Runner) (generation : Nat) : Runner :=
  if r.slot.map Slot.generation = some generation then { r with slot := none } else r

/-- A slot that is vacated leaves the configuration. -/
@[simp] theorem vacates_config (r : Runner) (g : Nat) : (r.vacates g).config = r.config := by
  unfold vacates
  split <;> simp

/-- A slot that is vacated leaves the queue. -/
@[simp] theorem vacates_pending (r : Runner) (g : Nat) : (r.vacates g).pending = r.pending := by
  unfold vacates
  split <;> simp

/-- A slot that is vacated leaves the number of generations. -/
@[simp] theorem vacates_generations (r : Runner) (g : Nat) :
    (r.vacates g).generations = r.generations := by
  unfold vacates
  split <;> simp

/-- A slot that is vacated leaves the gate. -/
@[simp] theorem vacates_gate (r : Runner) (g : Nat) : (r.vacates g).gate = r.gate := by
  unfold vacates
  split <;> simp

/-- A slot that is vacated leaves the counts. -/
@[simp] theorem vacates_stats (r : Runner) (g : Nat) : (r.vacates g).stats = r.stats := by
  unfold vacates
  split <;> simp

/-- A slot that is still taken held a worker of another generation. -/
theorem vacates_slot {r : Runner} {g : Nat} {s : Slot} :
    (r.vacates g).slot = some s ↔ r.slot = some s ∧ s.generation ≠ g := by
  unfold vacates
  cases hs : r.slot with
  | none => simp [hs]
  | some t =>
      by_cases hg : t.generation = g
      · simp only [Option.map_some, hg, if_pos, Option.some.injEq]
        constructor
        · nofun
        · rintro ⟨rfl, hne⟩
          exact absurd hg hne
      · simp only [Option.map_some, Option.some.injEq, hg, if_neg, not_false_eq_true, hs]
        constructor
        · rintro rfl
          exact ⟨rfl, hg⟩
        · exact And.left

end Runner

namespace World

variable {w v : World} {name : String} {r : Runner}

/-- A runner that is changed is found as changed. -/
theorem modifyRunner_find? {f : Runner → Runner} (hr : w.runners.find? name = some r) :
    (w.modifyRunner name f).runners.find? name = some (f r) := by
  simp [modifyRunner, Table.find?_modify, hr]

/-- A call leaves a runner as it is. -/
theorem find?_of_perform {a : Answer} {c : Call a} {x : Except StoreError a.Value} {u : World}
    (ha : w.perform c = (x, u)) (hr : w.runners.find? name = some r) :
    u.runners.find? name = some r := by
  have h := w.perform_runners c
  rw [ha] at h
  rw [show u.runners = w.runners from h, hr]

/-- What a runner sees of a step: what it is afterwards, and the worker that has been started for
it. -/
structure Leaves (name : String) (w v : World) (r : Runner) (hired : Option Worker) : Prop where
  runner : v.runners.find? name = some r
  crew : ∀ i, v.crew name i = if i = w.nextTask then hired else w.crew name i

/-- A step by which no worker is started. -/
theorem Leaves.of_tasks (hw : w.Fresh) (hr : v.runners.find? name = some r)
    (ht : v.tasks = w.tasks) : w.Leaves name v r none := by
  refine ⟨hr, ?_⟩
  intro i
  rw [crew_of_tasks ht]
  by_cases hi : i = w.nextTask
  · rw [if_pos hi]
    exact crew_of_none (hw i (Nat.le_of_eq hi.symm))
  · rw [if_neg hi]

end World

/-! ## Hand-ins -/

namespace Enqueue

/-- What a step of a hand-in makes of its runner: how it goes on, the runner afterwards, and the
worker that starts, given the task that makes the step and the number of the next one. -/
inductive RunnerStep (self task : TaskId) (e : Enqueue) (r : Runner) :
    Progress Enqueue EnqueueOutcome → Runner → Option Worker → Prop
  | overflows (hp : e.phase = .waiting) (hfull : r.config.capacity ≤ r.pending.length) :
      RunnerStep self task e r (.ended .queueFull) { r with gate := none } none
  | enters (hp : e.phase = .waiting) (hroom : r.pending.length < r.config.capacity) :
      RunnerStep self task e r (.on { e with phase := .reading }) { r with gate := some self } none
  | reads {held : Option String} (hp : e.phase = .reading) :
      RunnerStep self task e r (.on { e with phase := .claiming held }) r none
  | doubles (hp : e.phase ≠ .waiting) :
      RunnerStep self task e r (.ended .duplicate) { r.counts .duplicate with gate := none } none
  | misses (hp : e.phase ≠ .waiting) :
      RunnerStep self task e r (.ended .unavailable) { r with gate := none } none
  | joins {held : Option String} {s : Runner.Slot} (hp : e.phase = .claiming held)
      (hs : r.slot = some s) :
      RunnerStep self task e r (.ended .enqueued)
        { r.counts .enqueued with pending := r.pending ++ [e.job], gate := none } none
  | hires {held : Option String} (hp : e.phase = .claiming held) (hs : r.slot = none) :
      RunnerStep self task e r (.ended .enqueued)
        { r.counts .enqueued with
          pending := r.pending ++ [e.job]
          gate := none
          generations := r.generations + 1
          slot := some ⟨r.generations + 1, task, false⟩ }
        (some ⟨e.runner, r.generations + 1, false, .starting⟩)

variable {e : Enqueue} {w v : World} {r : Runner}

/-- A hand-in that ends without taking the job in, and counts nothing. -/
theorem conclude_leaves (outcome : EnqueueOutcome) (event : Runner.Event) (hw : w.Fresh)
    (hr : v.runners.find? e.runner = some r) (ht : v.tasks = w.tasks) :
    w.Leaves e.runner (e.conclude outcome event v).2 { r with gate := none } none := by
  refine .of_tasks hw ?_ ht
  have hlog : (v.log (.runner event)).runners.find? e.runner = some r := hr
  exact World.modifyRunner_find? hlog

/-- A hand-in that ends as a duplicate. -/
theorem concludeDuplicate_leaves (event : Runner.Event) (hw : w.Fresh)
    (hr : v.runners.find? e.runner = some r) (ht : v.tasks = w.tasks) :
    w.Leaves e.runner (e.concludeDuplicate event v).2 { r.counts .duplicate with gate := none }
      none := by
  have hcount : (v.count e.runner fun s => { s with duplicates := s.duplicates + 1 }).runners.find?
      e.runner = some (r.counts .duplicate) := World.modifyRunner_find? hr
  exact conclude_leaves _ event hw hcount ht

/-- Putting a job into the queue of a runner that has a worker. -/
theorem push_leaves_of_some (job : Job) {s : Runner.Slot} (hw : w.Fresh)
    (hr : w.runners.find? e.runner = some r) (hs : r.slot = some s) :
    w.Leaves e.runner (push w e.runner job) { r with pending := r.pending ++ [job] } none := by
  have hpush : push w e.runner job =
      w.modifyRunner e.runner fun r => { r with pending := r.pending ++ [job] } := by
    simp [push, hr, hs]
  rw [hpush]
  exact .of_tasks hw (World.modifyRunner_find? hr) rfl

/-- Putting a job into the queue of a runner that has none starts a worker. -/
theorem push_leaves_of_none (job : Job) (hr : w.runners.find? e.runner = some r)
    (hs : r.slot = none) :
    w.Leaves e.runner (push w e.runner job)
      { r with
        pending := r.pending ++ [job]
        generations := r.generations + 1
        slot := some ⟨r.generations + 1, w.nextTask, false⟩ }
      (some ⟨e.runner, r.generations + 1, false, .starting⟩) := by
  let queued := w.modifyRunner e.runner fun r => { r with pending := r.pending ++ [job] }
  have hpush : push w e.runner job = (queued.spawn (.worker
      ⟨e.runner, r.generations + 1, false, .starting⟩)).2.modifyRunner e.runner fun r' =>
        { r' with generations := r.generations + 1,
                  slot := some ⟨r.generations + 1, w.nextTask, false⟩ } := by
    simp only [push, hr, hs, Option.isSome_none, Bool.false_eq_true, if_false]
    rfl
  rw [hpush]
  constructor
  · have hqueued : queued.runners.find? e.runner =
        some { r with pending := r.pending ++ [job] } := World.modifyRunner_find? hr
    exact World.modifyRunner_find? hqueued
  · intro i
    have hc := queued.crew_spawn (.worker ⟨e.runner, r.generations + 1, false, .starting⟩)
      e.runner i
    simp only [Task.crew?, if_true] at hc
    exact hc

/-- What a hand-in does to its runner once it has read the status. -/
theorem judge_runner (self : TaskId) (held : Option String) (hw : w.Fresh)
    (hr : v.runners.find? e.runner = some r) (ht : v.tasks = w.tasks) (hp : e.phase = .reading) :
    ∃ r', e.RunnerStep self w.nextTask r (e.judge held v).1 r' none ∧
      w.Leaves e.runner (e.judge held v).2 r' none := by
  have hne : e.phase ≠ .waiting := by
    rw [hp]
    nofun
  unfold judge
  split
  · exact ⟨_, .reads hp, .of_tasks hw hr ht⟩
  · split
    · split
      · exact ⟨_, .doubles hne, concludeDuplicate_leaves _ hw hr ht⟩
      · exact ⟨_, .reads hp, .of_tasks hw hr ht⟩
    · exact ⟨_, .doubles hne, concludeDuplicate_leaves _ hw hr ht⟩

/-- Taking a job into the queue of a runner. -/
theorem accept_runner {self : TaskId} {held : Option String} (hw : w.Fresh)
    (hr : v.runners.find? e.runner = some r) (ht : v.tasks = w.tasks)
    (hn : v.nextTask = w.nextTask) (hp : e.phase = .claiming held) :
    ∃ r' hired, e.RunnerStep self w.nextTask r (.ended .enqueued) r' hired ∧
      w.Leaves e.runner (e.accept v).2 r' hired := by
  let counted := (v.log (.runner (.enqueued e.job))).count e.runner fun s =>
    { s with enqueued := s.enqueued + 1 }
  have hcounted : counted.runners.find? e.runner = some (r.counts .enqueued) :=
    World.modifyRunner_find? (w := v.log (.runner (.enqueued e.job))) hr
  have hfresh : counted.Fresh := by
    intro i hi
    have hle : w.nextTask ≤ i := hn ▸ hi
    exact (congrArg (fun t => t.find? i) ht).trans (hw i hle)
  have hleave : ∀ {r' : Runner} {hired : Option Worker},
      counted.Leaves e.runner (push counted e.runner e.job) r' hired →
      w.Leaves e.runner (e.accept v).2 { r' with gate := none } hired := by
    rintro r' hired ⟨hrunner, hcrew⟩
    refine ⟨World.modifyRunner_find? hrunner, ?_⟩
    intro i
    have hc : counted.crew e.runner i = w.crew e.runner i := World.crew_of_tasks ht
    have hi := hcrew i
    rw [show counted.nextTask = w.nextTask from hn, hc] at hi
    exact hi
  cases hs : r.slot with
  | some s =>
      have hpush := hleave (push_leaves_of_some e.job hfresh hcounted hs)
      exact ⟨_, _, .joins hp hs, hpush⟩
  | none =>
      have hpush := hleave (push_leaves_of_none e.job hcounted hs)
      rw [show counted.nextTask = w.nextTask from hn] at hpush
      exact ⟨_, _, .hires hp hs, hpush⟩

/-- Every step of a hand-in makes one of a few things of its runner. -/
theorem step_runner (self : TaskId) (hw : w.Fresh) (hr : w.runners.find? e.runner = some r) :
    ∃ r' hired, e.RunnerStep self w.nextTask r (e.step self w).1 r' hired ∧
      w.Leaves e.runner (e.step self w).2 r' hired := by
  unfold step
  rw [hr]
  simp only
  have hcalled : ∀ {a : Answer} {c : Call a} {x : Except StoreError a.Value} {u : World},
      w.perform c = (x, u) → u.runners.find? e.runner = some r ∧ u.tasks = w.tasks ∧
        u.nextTask = w.nextTask := by
    intro a c x u ha
    have ht := w.perform_tasks c
    have hn := w.perform_nextTask c
    rw [ha] at ht hn
    exact ⟨World.find?_of_perform ha hr, ht, hn⟩
  cases hp : e.phase with
  | waiting =>
      by_cases hfull : r.config.capacity ≤ r.pending.length
      · simp only [if_pos hfull]
        exact ⟨_, _, .overflows hp hfull, conclude_leaves _ _ hw hr rfl⟩
      · simp only [if_neg hfull]
        exact ⟨_, _, .enters hp (Nat.lt_of_not_le hfull),
          .of_tasks hw (World.modifyRunner_find? hr) rfl⟩
  | reading =>
      have hne : e.phase ≠ .waiting := by
        rw [hp]
        rintro ⟨⟩
      simp only
      split
      · rename_i held u ha
        obtain ⟨hu, ht, -⟩ := hcalled (a := .text) ha
        obtain ⟨r', hmade, hleaves⟩ := judge_runner self held hw hu ht hp
        exact ⟨r', none, hmade, hleaves⟩
      · rename_i cause u ha
        obtain ⟨hu, ht, -⟩ := hcalled (a := .text) ha
        exact ⟨_, _, .misses hne, conclude_leaves _ _ hw hu ht⟩
  | claiming held =>
      have hne : e.phase ≠ .waiting := by
        rw [hp]
        rintro ⟨⟩
      simp only
      split
      · rename_i u ha
        obtain ⟨hu, ht, hn⟩ := hcalled (a := .flag) ha
        exact accept_runner hw hu ht hn hp
      · rename_i u ha
        obtain ⟨hu, ht, -⟩ := hcalled (a := .flag) ha
        exact ⟨_, _, .doubles hne, concludeDuplicate_leaves _ hw hu ht⟩
      · rename_i cause u ha
        obtain ⟨hu, ht, -⟩ := hcalled (a := .flag) ha
        exact ⟨_, _, .misses hne, conclude_leaves _ _ hw hu ht⟩

/-- A hand-in that is given up opens the gate if it was its own turn. -/
theorem abandon_leaves (self : TaskId) (hw : w.Fresh) (hr : w.runners.find? e.runner = some r) :
    w.Leaves e.runner (e.abandon self w) (if r.gate = some self then { r with gate := none } else r)
      none :=
  .of_tasks hw (World.modifyRunner_find? hr) rfl

end Enqueue

/-! ## Workers -/

namespace Worker

open Runner (Episode Hand)

/-- The job that a worker has in hand in a phase. -/
def Phase.hand? : Phase → Option Hand
  | .admitting job => some ⟨job.untried, false⟩
  | .refusing job _ => some ⟨job.untried, false⟩
  | .beginning t => some ⟨t.job.untried, false⟩
  | .calling t => some ⟨t.job.untried, true⟩
  | .awaiting t _ => some ⟨t.job.untried, true⟩
  | .succeeding t => some ⟨t.job.untried, true⟩
  | .exhausted t => some ⟨t.job.untried, true⟩
  | .backingOff t _ => some ⟨t.job.untried, true⟩
  | .abandoning t => some ⟨t.job.untried, true⟩
  | .starting | .choosing | .releasing .. | .resting .. => none

/-- The job that a worker has just taken from the queue in a phase. -/
def Phase.admits? : Phase → Option Job
  | .admitting job => some job
  | _ => none

/-- Whether a job's status is written, or the job goes on without. -/
def records (k : Worker) (job : Job) (status : JobStatus) (w : World) : Bool :=
  match (k.writeStatus job status w).1 with
  | .ok _ => true
  | .error _ => false

/-- What happens to a job in the next step of a worker. -/
def episode? (k : Worker) (w : World) : Option Episode :=
  match k.phase with
  | .choosing => ((k.step w).1.state?.bind fun k' => k'.phase.admits?).map .taken
  | .refusing job _ =>
      some (.ended job.untried (if job.criticality = .bestEffort then .dropped else .rejected))
  | .beginning t =>
      some (if k.records t.job .running w then .started t.job.untried
        else .ended t.job.untried .failed)
  | .calling t => some (.called t.job.untried)
  | .succeeding t =>
      some (.ended t.job.untried (if k.records t.job .succeeded w then .succeeded else .failed))
  | .exhausted t => some (.ended t.job.untried .failed)
  | .abandoning t => some (.ended t.job.untried .failed)
  | _ => none

/-- What a step of a worker makes of its runner: what happens to a job, the worker that is left, and
the runner afterwards, given the number of the next task. -/
inductive RunnerStep (k : Worker) (task : TaskId) (r : Runner) :
    Option Episode → Option Worker → Runner → Prop
  | quits (hp : k.phase = .choosing) (hc : k.cancelled = true) : RunnerStep k task r none none r
  | idles (hp : k.phase = .choosing) (hc : k.cancelled = false) (hq : r.pending = []) :
      RunnerStep k task r none none (r.vacates k.generation)
  | takes {job : Job} {rest : List Job} (hp : k.phase = .choosing) (hc : k.cancelled = false)
      (hq : r.pending = job :: rest) :
      RunnerStep k task r (some (.taken job)) (some (k.inPhase (.admitting job)))
        { r with pending := rest }
  | begins {t : Taken} (hp : k.phase = .beginning t) :
      RunnerStep k task r (some (.started t.job.untried)) (some (k.inPhase (.calling t)))
        (r.counts .started)
  | calls {t : Taken} (hp : k.phase = .calling t) :
      RunnerStep k task r (some (.called t.job.untried)) (some (k.inPhase (.awaiting t task))) r
  | ends {h : Hand} {v : Runner.Verdict} {goal : Phase} (hh : k.phase.hand? = some h)
      (hv : if h.begun then v = .succeeded ∨ v = .failed else v ≠ .succeeded)
      (hg : goal.hand? = none) :
      RunnerStep k task r (some (.ended h.job v)) (some (k.inPhase goal)) (r.counts (.ended v))
  | goesOn {goal : Phase} (hp : k.phase ≠ .choosing) (hg : goal.hand? = k.phase.hand?) :
      RunnerStep k task r none (some (k.inPhase goal)) r

variable (k : Worker) {w v : World} {r : Runner}

/-- After a job its worker has none in hand. -/
theorem afterJob_hand? (t : Taken) : (afterJob t).hand? = none := by
  unfold afterJob
  split <;> rfl

/-- What is told leaves a runner as it is. -/
theorem tell_find? {name : String} {e : Runner.Event} (hr : w.runners.find? name = some r) :
    (tell w e).runners.find? name = some r := hr

/-- Writing a status leaves a runner as it is. -/
theorem writeStatus_find? (job : Job) (status : JobStatus)
    (hr : w.runners.find? k.runner = some r) :
    (k.writeStatus job status w).2.runners.find? k.runner = some r := by
  unfold writeStatus
  split
  · rename_i ha
    exact World.find?_of_perform (a := .nothing) ha hr
  · rename_i ha
    have hu := World.find?_of_perform (a := .nothing) ha hr
    split
    · exact tell_find? hu
    · exact hu

/-- A failed job is counted by its runner. -/
theorem countFailed_find? (hr : w.runners.find? k.runner = some r) :
    (k.countFailed w).runners.find? k.runner = some (r.counts (.ended .failed)) :=
  World.modifyRunner_find? hr

/-- Giving a job up because its status could not be written. -/
theorem abort_runner (task : TaskId) {t : Taken} {begun : Bool} (cause : StoreError)
    (hr : v.runners.find? k.runner = some r) (hh : k.phase.hand? = some ⟨t.job.untried, begun⟩) :
    ∃ r', k.RunnerStep task r (some (.ended t.job.untried .failed))
        (some (k.abort t cause v).1) r' ∧
      (k.abort t cause v).2.runners.find? k.runner = some r' := by
  refine ⟨_, .ends hh ?_ (afterJob_hand? t), k.countFailed_find? (tell_find? hr)⟩
  cases begun <;> simp

/-- What a worker does to its runner when it looks for a job. -/
theorem choose_runner (task : TaskId) (hp : k.phase = .choosing)
    (hr : w.runners.find? k.runner = some r) :
    ∃ r', k.RunnerStep task r (k.episode? w) (k.choose w).1.state? r' ∧
      (k.choose w).2.runners.find? k.runner = some r' := by
  simp only [episode?, hp, step, choose, hr, Option.map_some]
  cases hc : k.cancelled with
  | true => exact ⟨r, .quits hp hc, hr⟩
  | false =>
      simp only [Bool.false_eq_true, if_false]
      cases hq : r.pending with
      | nil => exact ⟨_, .idles hp hc hq, tell_find? (World.modifyRunner_find? hr)⟩
      | cons job rest => exact ⟨_, .takes hp hc hq, World.modifyRunner_find? hr⟩

/-- Asking for a slot leaves the runner as it is. -/
theorem askForSlot_runner (task : TaskId) {job : Job} (hp : k.phase = .admitting job)
    (hr : w.runners.find? k.runner = some r) :
    k.RunnerStep task r none (some (k.askForSlot job w).1) r ∧
      (k.askForSlot job w).2.runners.find? k.runner = some r := by
  have hne : k.phase ≠ .choosing := by
    rw [hp]
    nofun
  unfold askForSlot
  split
  · split
    · rename_i ha
      exact ⟨.goesOn hne (by rw [hp]; rfl), World.find?_of_perform (a := .flag) ha hr⟩
    · rename_i ha
      exact ⟨.goesOn hne (by rw [hp]; rfl), World.find?_of_perform (a := .flag) ha hr⟩
    · rename_i ha
      exact ⟨.goesOn hne (by rw [hp]; rfl), World.find?_of_perform (a := .flag) ha hr⟩
  · exact ⟨.goesOn hne (by rw [hp]; rfl), hr⟩

/-- What a worker does to its runner when it refuses a job. -/
theorem refuse_runner (task : TaskId) {job : Job} {why : Runner.Refusal}
    (hp : k.phase = .refusing job why) (hr : w.runners.find? k.runner = some r) :
    ∃ r', k.RunnerStep task r (k.episode? w) (some (k.refuse job why w).1) r' ∧
      (k.refuse job why w).2.runners.find? k.runner = some r' := by
  have hh : k.phase.hand? = some ⟨job.untried, false⟩ := by
    rw [hp]
    rfl
  simp only [episode?, hp]
  cases ha : w.perform (statusCall (w.runnerConfig k.runner) job .failed) with
  | mk a u =>
      have hu := World.find?_of_perform (a := .nothing) ha hr
      by_cases hc : job.criticality = .bestEffort
      · rw [if_pos hc]
        refine ⟨r.counts (.ended .dropped), .ends hh (by rintro ⟨⟩) rfl, ?_⟩
        simp only [refuse, ha, hc]
        refine World.modifyRunner_find? (tell_find? ?_)
        cases a <;> exact hu
      · rw [if_neg hc]
        refine ⟨r.counts (.ended .rejected), .ends hh (by rintro ⟨⟩) rfl, ?_⟩
        simp only [refuse, ha]
        cases hj : job.criticality with
        | bestEffort => exact absurd hj hc
        | _ =>
            refine World.modifyRunner_find? (tell_find? ?_)
            cases a <;> exact hu

/-- What a worker does to its runner when it begins a job. -/
theorem markRunning_runner (task : TaskId) {t : Taken} (hp : k.phase = .beginning t)
    (hr : w.runners.find? k.runner = some r) :
    ∃ r', k.RunnerStep task r (k.episode? w) (some (k.markRunning t w).1) r' ∧
      (k.markRunning t w).2.runners.find? k.runner = some r' := by
  have hh : k.phase.hand? = some ⟨t.job.untried, false⟩ := by
    rw [hp]
    rfl
  have hu := k.writeStatus_find? t.job .running hr
  cases ha : k.writeStatus t.job .running w with
  | mk a u =>
      rw [ha] at hu
      cases a with
      | ok _ =>
          have hrec : k.records t.job .running w = true := by rw [records, ha]
          simp only [episode?, hp, hrec, markRunning, ha]
          exact ⟨_, .begins hp, World.modifyRunner_find? (tell_find? hu)⟩
      | error cause =>
          have hrec : k.records t.job .running w = false := by rw [records, ha]
          simp only [episode?, hp, hrec, markRunning, ha]
          exact k.abort_runner task cause hu hh

/-- Learning how a call has ended leaves the runner as it is. -/
theorem join_runner (task : TaskId) {id : TaskId} {t : Taken} (hp : k.phase = .awaiting t id)
    (hr : w.runners.find? k.runner = some r) :
    k.RunnerStep task r none (some (k.join t id w).1) r ∧
      (k.join t id w).2.runners.find? k.runner = some r := by
  have hne : k.phase ≠ .choosing := by
    rw [hp]
    nofun
  have hend : (w.endTask id).runners.find? k.runner = some r := hr
  unfold join
  simp only
  split
  · exact ⟨.goesOn hne (by rw [hp]; rfl), hend⟩
  · unfold recordAttempt
    simp only
    split
    · exact ⟨.goesOn hne (by rw [hp]; rfl), tell_find? hend⟩
    · exact ⟨.goesOn hne (by rw [hp]; rfl), tell_find? hend⟩

/-- What a worker does to its runner when a job has succeeded. -/
theorem succeed_runner (task : TaskId) {t : Taken} (hp : k.phase = .succeeding t)
    (hr : w.runners.find? k.runner = some r) :
    ∃ r', k.RunnerStep task r (k.episode? w) (some (k.succeed t w).1) r' ∧
      (k.succeed t w).2.runners.find? k.runner = some r' := by
  have hh : k.phase.hand? = some ⟨t.job.untried, true⟩ := by
    rw [hp]
    rfl
  have hu := k.writeStatus_find? t.job .succeeded hr
  cases ha : k.writeStatus t.job .succeeded w with
  | mk a u =>
      rw [ha] at hu
      cases a with
      | ok _ =>
          have hrec : k.records t.job .succeeded w = true := by rw [records, ha]
          simp only [episode?, hp, hrec, succeed, ha]
          exact ⟨_, .ends hh (by simp) (afterJob_hand? t),
            World.modifyRunner_find? (tell_find? hu)⟩
      | error cause =>
          have hrec : k.records t.job .succeeded w = false := by rw [records, ha]
          simp only [episode?, hp, hrec, succeed, ha]
          exact k.abort_runner task cause hu hh

/-- What a worker does to its runner when a job has failed. -/
theorem fail_runner (task : TaskId) {t : Taken} {event : Runner.Event}
    (hh : k.phase.hand? = some ⟨t.job.untried, true⟩) (hr : w.runners.find? k.runner = some r) :
    ∃ r', k.RunnerStep task r (some (.ended t.job.untried .failed)) (some (k.fail t event w).1) r' ∧
      (k.fail t event w).2.runners.find? k.runner = some r' := by
  have hu := k.writeStatus_find? t.job .failed hr
  simp only [fail]
  cases ha : k.writeStatus t.job .failed w with
  | mk a u =>
      rw [ha] at hu
      cases a with
      | ok _ =>
          exact ⟨_, .ends hh (by simp) (afterJob_hand? t), k.countFailed_find? (tell_find? hu)⟩
      | error cause => exact k.abort_runner task cause hu hh

/-- Giving a slot back leaves the runner as it is. -/
theorem release_runner (task : TaskId) {t : Taken} {attempt : Nat}
    (hp : k.phase = .releasing t attempt) (hr : w.runners.find? k.runner = some r) :
    k.RunnerStep task r none (some (k.release t attempt w).1) r ∧
      (k.release t attempt w).2.runners.find? k.runner = some r := by
  have hne : k.phase ≠ .choosing := by
    rw [hp]
    nofun
  unfold release
  split
  · rename_i ha
    exact ⟨.goesOn hne (by rw [hp]; rfl), World.find?_of_perform (a := .count) ha hr⟩
  · rename_i ha
    have hu := World.find?_of_perform (a := .count) ha hr
    simp only
    split
    · exact ⟨.goesOn hne (by rw [hp]; rfl), tell_find? hu⟩
    · exact ⟨.goesOn hne (by rw [hp]; rfl), tell_find? hu⟩

/-- Every step of a worker makes one of a few things of its runner. -/
theorem step_runner (hr : w.runners.find? k.runner = some r) :
    ∃ r', k.RunnerStep w.nextTask r (k.episode? w) (k.step w).1.state? r' ∧
      (k.step w).2.runners.find? k.runner = some r' := by
  have hkeeps : ∀ {goal : Phase} {u : World}, k.phase ≠ .choosing → goal.hand? = k.phase.hand? →
      u.runners.find? k.runner = some r → ∃ r', k.RunnerStep w.nextTask r none
        (some (k.inPhase goal)) r' ∧ u.runners.find? k.runner = some r' :=
    fun hp hg hu => ⟨r, .goesOn hp hg, hu⟩
  cases hp : k.phase with
  | starting =>
      simp only [step, episode?, hp]
      exact hkeeps (by rw [hp]; rintro ⟨⟩) (by rw [hp]; rfl) (tell_find? hr)
  | choosing =>
      have hd := k.choose_runner w.nextTask hp hr
      simpa only [step, hp] using hd
  | admitting job =>
      have hd := k.askForSlot_runner w.nextTask hp hr
      simp only [step, episode?, hp]
      exact ⟨r, hd⟩
  | refusing job why =>
      have hd := k.refuse_runner w.nextTask hp hr
      simp only [step, hp]
      exact hd
  | beginning t =>
      have hd := k.markRunning_runner w.nextTask hp hr
      simp only [step, hp]
      exact hd
  | calling t =>
      simp only [step, episode?, hp]
      exact ⟨r, .calls hp, hr⟩
  | awaiting t id =>
      have hd := k.join_runner w.nextTask hp hr
      simp only [step, episode?, hp]
      exact ⟨r, hd⟩
  | succeeding t =>
      have hd := k.succeed_runner w.nextTask hp hr
      simp only [step, hp]
      exact hd
  | exhausted t =>
      simp only [step, episode?, hp]
      exact k.fail_runner w.nextTask (by rw [hp]; rfl) hr
  | backingOff t wake =>
      simp only [step, episode?, hp]
      refine hkeeps (by rw [hp]; rintro ⟨⟩) ?_ hr
      rw [hp]
      split <;> rfl
  | abandoning t =>
      simp only [step, episode?, hp]
      exact k.fail_runner w.nextTask (by rw [hp]; rfl) hr
  | releasing t attempt =>
      have hd := k.release_runner w.nextTask hp hr
      simp only [step, episode?, hp]
      exact ⟨r, hd⟩
  | resting t attempt wake =>
      simp only [step, episode?, hp]
      exact hkeeps (by rw [hp]; rintro ⟨⟩) (by rw [hp]; rfl) hr

end Worker

/-! ## Stops -/

namespace StopPhase

/-- What a step of a stop makes of its runner: how it goes on, the runner afterwards, and the task
that it cancels. -/
inductive RunnerStep (r : Runner) :
    StopPhase → Progress StopPhase Unit → Runner → Option TaskId → Prop
  | rests (hs : r.slot = none) : RunnerStep r .entering (.ended ()) r none
  | follows {s : Runner.Slot} (hs : r.slot = some s) (ha : s.awaited = true) :
      RunnerStep r .entering (.on (.draining .looking)) r (some s.task)
  | halts {s : Runner.Slot} (hs : r.slot = some s) (ha : s.awaited = false) :
      RunnerStep r .entering (.on (.awaiting s.task s.generation))
        { r with slot := some { s with awaited := true } } (some s.task)
  | clears {task : TaskId} {generation : Nat} :
      RunnerStep r (.awaiting task generation) (.ended ()) (r.vacates generation) none
  | looks {q : DrainPhase} {next : Progress StopPhase Unit}
      (hn : ∀ p, next = .on p → ∃ q, p = .draining q) : RunnerStep r (.draining q) next r none

/-- What cancelling a task, or none, makes of a crew. -/
def Cancels (name : String) (w v : World) (cancelled : Option TaskId) : Prop :=
  ∀ i, v.crew name i =
    if some i = cancelled then (w.crew name i).map Worker.cancel else w.crew name i

/-- Where no task changes, none has been cancelled. -/
theorem cancels_none {name : String} {w v : World} (ht : v.tasks = w.tasks) :
    Cancels name w v none := by
  intro i
  rw [if_neg nofun]
  exact World.crew_of_tasks ht

/-- Every step of a stop makes one of a few things of its runner. -/
theorem step_runner {name : String} {w : World} {r : Runner} (p : StopPhase)
    (hr : w.runners.find? name = some r) :
    ∃ r' cancelled, RunnerStep r p (p.step name w).1 r' cancelled ∧
      (p.step name w).2.runners.find? name = some r' ∧
      Cancels name w (p.step name w).2 cancelled := by
  cases p with
  | entering =>
      simp only [step, enter, hr, Option.bind_some]
      cases hs : r.slot with
      | none => exact ⟨r, none, .rests hs, hr, cancels_none rfl⟩
      | some s =>
          have hc : ∀ i, (w.cancel s.task).crew name i =
              if some i = some s.task then (w.crew name i).map Worker.cancel
              else w.crew name i := by
            intro i
            simp only [Option.some.injEq]
            exact w.crew_cancel s.task name i
          simp only
          cases ha : s.awaited with
          | true => exact ⟨r, some s.task, .follows hs ha, hr, hc⟩
          | false =>
              refine ⟨_, some s.task, .halts hs ha, ?_, hc⟩
              exact World.modifyRunner_find? (w := w.cancel s.task) hr
  | awaiting task generation =>
      exact ⟨_, none, .clears, World.modifyRunner_find? hr, cancels_none rfl⟩
  | draining q =>
      refine ⟨r, none, .looks ?_, hr, cancels_none rfl⟩
      intro p hp
      obtain ⟨q', -, he⟩ := Progress.map_on hp
      exact ⟨q', he⟩

end StopPhase

end JobFleet
