import JobFleet.Proofs.Fleet.Footprint

/-!
# A step, split in two

`Task.act` gives the world after a task's deeds and what the task has become; `World.put` files
that. A step that is taken is the one after the other. The deeds are among those that
`Task.MayDo` lists, and a task never becomes one of another sort.
-/

namespace JobFleet

/-! ## Requests and processes -/

namespace App

open World (Via)
open Http (Request Route)

variable {w v : World}

/-- The health route only looks. -/
theorem health_via (w : World) : w.Via Deed.Aside (health w).2 := by
  unfold health
  split
  · rename_i hp
    exact World.Via.same.of_perform hp .ping
  · rename_i hp
    have hc : w.Via Deed.Aside _ := World.Via.same.of_perform hp .ping
    exact hc.log rfl

/-- Reading a job's status only looks. -/
theorem readStatus_via (key : JobKey) (w : World) : w.Via Deed.Aside (w.jobStatus key).2 := by
  unfold World.jobStatus
  split
  · rename_i hp
    exact World.Via.same.of_perform hp (.get _)
  · rename_i hp
    have hc : w.Via Deed.Aside _ := World.Via.same.of_perform hp (.get _)
    split
    · exact hc
    · exact hc.log rfl
  · rename_i hp
    have hc : w.Via Deed.Aside _ := World.Via.same.of_perform hp (.get _)
    exact hc.log rfl

/-- The route for a job's status only looks. -/
theorem jobStatus_via (rawKey : String) (w : World) :
    w.Via Deed.Aside (jobStatus rawKey w).2 := by
  unfold jobStatus
  split
  · exact .same
  · split
    · exact .same
    · exact readStatus_via _ w

/-- Changed settings concern nobody but their scheduler. -/
theorem applyChange_via (app : String) (c : Document.SettingsChange) (w : World) :
    w.Via Deed.Aside (applyChange app c w).2 := by
  unfold applyChange
  split
  · exact .same
  · split
    · exact .same
    · refine World.Via.log (World.Via.scheduler .same ?_) rfl
      intro s
      obtain ⟨lock, source, service, session, gate⟩ := s
      cases source <;> exact ⟨rfl, rfl, rfl, id⟩

/-- The route that changes settings does nothing that others notice. -/
theorem changeSettings_via (app : String) (r : Request) (w : World) :
    w.Via Deed.Aside (changeSettings app r w).2 := by
  unfold changeSettings
  split
  · exact .same
  · split
    · split
      · exact applyChange_via app _ w
      · exact .same
      · exact .same
    · exact .same

/-- The route that checks a login only looks. -/
theorem checkLogin_via (app : String) (head : Bool) (r : Request) (w : World) :
    w.Via Deed.Aside (checkLogin app head r w).2 := by
  unfold checkLogin
  split
  · rename_i email l _ _
    have hc := Limiter.check_via (fun _ h => h) l .login email (clientOf app r w)
      (World.Via.same (D := Deed.Aside) (w := w))
    split <;> rename_i hk <;> rw [hk] at hc <;> simp only [answer] at hc ⊢ <;> exact hc
  · exact .same

/-- Whatever the route, looking at a request does nothing that others notice. -/
theorem serve_via (app : String) (head : Bool) (route : Route) (r : Request) (w : World) :
    w.Via Deed.Aside (serve app head route r w).2 := by
  unfold serve
  split
  · exact health_via w
  · exact .same
  · exact jobStatus_via _ w
  · exact .same
  · split <;> exact .same
  · split
    · exact changeSettings_via app r w
    · exact .same
  · exact checkLogin_via app head r w

/-- Looking at a request does nothing that others notice. -/
theorem receive_via (app : String) (r : Request) (w : World) :
    w.Via Deed.Aside (receive app r w).2 := by
  unfold receive
  split
  · exact .same
  · split
    · exact serve_via app _ _ r w
    · exact .same

/-- A step of a request does what its task may do. -/
theorem requestStep_via (self : TaskId) (app : String) (p : RequestPhase) (w : World) :
    w.Via (Task.MayDo w (.operation (.request app p))) (requestStep self app p w).2 := by
  cases p with
  | arrived r => exact (receive_via app r w).mono fun _ h => .aside h
  | cycling head c =>
      have hs := (c.step_via self w).mono fun d hd =>
        hd.task (t := .operation (.request app (.cycling head c))) (w := w) rfl
      unfold requestStep
      simp only
      split <;> rename_i hk <;> rw [hk] at hs <;> exact hs
  | counting head key => exact World.Via.same.perform (.aside (.attempts key))

end App

namespace AppStart

/-- A step of the process does what its task may do. -/
theorem step_via (self : TaskId) (name : String) (p : AppStart) (w : World) :
    w.Via (Task.MayDo w (.operation (.startApp name p))) (p.step self name w).2 := by
  cases p with
  | pinging =>
      unfold step
      simp only
      split
      · rename_i hp
        exact World.Via.same.of_perform hp (.aside .ping)
      · rename_i hp
        exact (World.Via.same.of_perform hp (.aside .ping)).log (.aside rfl)
  | scheduler p =>
      exact (Schedule.StartPhase.step_turn self name p w).via.mono fun _ h =>
        .control rfl (h.mono fun _ => .scheduler)

end AppStart

namespace AppShutdown

/-- A step of the process does what its task may do. -/
theorem step_via (name : String) (p : AppShutdown) (w : World) :
    w.Via (Task.MayDo w (.operation (.shutdownApp name p))) (p.step name w).2 := by
  cases p with
  | scheduler p =>
      have hs := (Schedule.StopPhase.step_turn name p w).via.mono fun d hd =>
        Task.MayDo.control (w := w) (t := .operation (.shutdownApp name (.scheduler p))) rfl
          (hd.mono fun _ => .scheduler)
      unfold step
      simp only
      split <;> rename_i hk <;> rw [hk] at hs <;> exact hs
  | draining p =>
      unfold step
      simp only
      split <;> exact .same
  | stopping p =>
      have hs := StopPhase.step_via (t := .operation (.shutdownApp name (.stopping p))) rfl w
      unfold step
      simp only
      split
      · rename_i hk
        rw [hk] at hs
        exact hs
      · rename_i hk
        rw [hk] at hs
        exact hs.log (.aside rfl)

end AppShutdown

/-- An operation does nothing but what it may. -/
theorem Operation.step_via (self : TaskId) (o : Operation) (w : World) :
    w.Via (Task.MayDo w (.operation o)) (o.step self w).2 := by
  cases o with
  | enqueue e => exact (e.step_via self w).mono fun _ h => .handIn rfl h
  | drain runner deadline p => exact .same
  | stop runner p => exact StopPhase.step_via rfl w
  | startScheduler name p =>
      exact (p.step_turn self name w).via.mono fun _ h => .control rfl (h.mono fun _ => .scheduler)
  | stopScheduler name p =>
      exact (p.step_turn name w).via.mono fun _ h => .control rfl (h.mono fun _ => .scheduler)
  | runCycle c => exact (c.step_via self w).mono fun _ h => h.task rfl
  | guard g => exact g.step_via w
  | startApp name p => exact p.step_via self name w
  | shutdownApp name p => exact p.step_via name w
  | request app p => exact App.requestStep_via self app p w

/-! ## Every task -/

/-- What a machine's progress leaves of its task: the next state, what an end is kept as, or
nothing. -/
def Progress.kept {σ α : Type} (f : σ → Task) (g : α → Option Task) :
    Progress σ α → Option Task
  | .on s => some (f s)
  | .ended a => g a

/-- What the next step of a task leaves of it, and the world after what the step does. -/
def Task.act (self : TaskId) (w : World) : Task → Option Task × World
  | .worker k => ((k.step w).1.kept .worker fun _ => none, (k.step w).2)
  | .handler h => (some (.handler (h.step self w).1), (h.step self w).2)
  | .mainLoop m => ((m.step self w).1.kept .mainLoop fun _ => none, (m.step self w).2)
  | .extender x => ((x.step w).1.kept .extender fun _ => none, (x.step w).2)
  | .operation o => ((o.step self w).1.kept .operation fun r => some (.ended r),
      (o.step self w).2)
  | .ended r => (some (.ended r), w)

/-- Files what is left of a task. -/
def World.put (w : World) (id : TaskId) : Option Task → World
  | some t => w.setTask id t
  | none => w.endTask id

namespace World

/-- Filing what is left of a task changes what is filed under its own number alone. -/
@[simp] theorem put_find? (w : World) (id i : TaskId) (left : Option Task) :
    (w.put id left).tasks.find? i = if i = id then left else w.tasks.find? i := by
  cases left with
  | none => exact w.tasks.find?_erase id i
  | some t => exact w.tasks.find?_insert id i t

/-- Filing what is left of a task gives no number. -/
@[simp] theorem put_nextTask (w : World) (id : TaskId) (left : Option Task) :
    (w.put id left).nextTask = w.nextTask := by
  cases left <;> rfl

/-- Filing the same in two worlds that differ in their books. -/
theorem Booked.put {w v : World} (h : w.Booked v) (id : TaskId) (left : Option Task) :
    (w.put id left).Booked (v.put id left) := by
  cases left with
  | none => exact { h with tasks := congrArg (fun t => t.erase id) h.tasks }
  | some t => exact { h with tasks := congrArg (fun s => s.insert id t) h.tasks }

/-- Filing what is left of a task leaves the runners alone. -/
@[simp] theorem put_runners (w : World) (id : TaskId) (left : Option Task) :
    (w.put id left).runners = w.runners := by
  cases left <;> rfl

/-- Filing what is left of a task leaves the schedulers alone. -/
@[simp] theorem put_schedulers (w : World) (id : TaskId) (left : Option Task) :
    (w.put id left).schedulers = w.schedulers := by
  cases left <;> rfl

/-- Filing what is left of a task leaves the store alone. -/
@[simp] theorem put_entry (w : World) (id : TaskId) (left : Option Task) (k : String) :
    (w.put id left).entry k = w.entry k := by
  cases left <;> rfl

/-- Filing what is left of a task leaves the faults alone. -/
@[simp] theorem put_network (w : World) (id : TaskId) (left : Option Task) :
    (w.put id left).network = w.network := by
  cases left <;> rfl

/-- Filing what is left of a task enters nothing in the journal. -/
@[simp] theorem put_journal (w : World) (id : TaskId) (left : Option Task) :
    (w.put id left).journal = w.journal := by
  cases left <;> rfl

end World

/-- Settling a task files what its progress has kept. -/
theorem World.settleTask_eq {σ α : Type} (id : TaskId) (f : σ → Task) (g : α → Option Task)
    (p : Progress σ α × World) : World.settleTask id f g p = p.2.put id (p.1.kept f g) := by
  obtain ⟨p, v⟩ := p
  cases p with
  | on s => rfl
  | ended a =>
      unfold settleTask Progress.kept World.put
      cases g a <;> rfl

/-- A step of a task that has not ended is its deeds, and then the filing. -/
theorem World.stepTask_eq (w : World) (id : TaskId) {t : Task} (ht : ∀ r, t ≠ .ended r) :
    w.stepTask id t = (t.act id w).2.put id (t.act id w).1 := by
  cases t with
  | worker k => exact settleTask_eq id .worker (fun _ => none) (k.step w)
  | handler h => rfl
  | mainLoop m => exact settleTask_eq id .mainLoop (fun _ => none) (m.step id w)
  | extender x => exact settleTask_eq id .extender (fun _ => none) (x.step w)
  | operation o => exact settleTask_eq id .operation (fun r => some (.ended r)) (o.step id w)
  | ended r => exact absurd rfl (ht r)

/-- A step that is taken: the task was there and ready, and what it left was filed. -/
theorem World.step?_eq_some {w v : World} {id : TaskId} (h : w.step? id = some v) :
    ∃ t, w.tasks.find? id = some t ∧ t.ready w id = true ∧
      v = (t.act id w).2.put id (t.act id w).1 := by
  unfold step? at h
  split at h
  · rename_i t ht
    split at h
    · rename_i hr
      have hne : ∀ r, t ≠ .ended r := by
        rintro r rfl
        cases hr
      refine ⟨t, ht, hr, ?_⟩
      rw [← w.stepTask_eq id hne]
      exact (Option.some.inj h).symm
    · cases h
  · cases h

/-- A task's step does nothing but what it may. -/
theorem Task.act_via (t : Task) (self : TaskId) (w : World) :
    w.Via (Task.MayDo w t) (t.act self w).2 := by
  cases t with
  | worker k => exact (k.step_via w).mono fun _ h => .worker rfl h
  | handler h => exact h.step_via self w
  | mainLoop m => exact m.step_via self w
  | extender x =>
      refine (x.step_turn w).via.mono fun _ h => .control rfl (h.mono ?_)
      rintro l rfl
      exact .extender x
  | operation o => exact o.step_via self w
  | ended r => exact .same

/-- The sorts of tasks; an operation that has ended is still one. -/
inductive Task.Sort
  | worker
  | handler
  | mainLoop
  | extender
  | operation
deriving DecidableEq

/-- The sort of a task. -/
def Task.sort : Task → Task.Sort
  | .worker _ => .worker
  | .handler _ => .handler
  | .mainLoop _ => .mainLoop
  | .extender _ => .extender
  | .operation _ | .ended _ => .operation

/-- A task that leaves nothing behind is what it goes on as. -/
theorem Progress.kept_eq {σ α : Type} (f : σ → Task) (p : Progress σ α) :
    (p.kept f fun _ => none) = p.state?.map f := by
  cases p <;> rfl

/-- A machine whose end leaves nothing. -/
theorem Progress.kept_none {σ α : Type} {f : σ → Task} {p : Progress σ α} {t : Task}
    (h : (p.kept f fun _ => none) = some t) : ∃ x, p = .on x ∧ t = f x := by
  cases p with
  | on x => exact ⟨x, rfl, (Option.some.inj h).symm⟩
  | ended a => cases h

/-- A step leaves a task of the same sort, if it leaves one. -/
theorem Task.act_sort {t t' : Task} {self : TaskId} {w : World}
    (h : (t.act self w).1 = some t') : t'.sort = t.sort := by
  cases t with
  | worker k =>
      obtain ⟨x, -, rfl⟩ := Progress.kept_none h
      rfl
  | handler c =>
      cases Option.some.inj h
      rfl
  | mainLoop m =>
      obtain ⟨x, -, rfl⟩ := Progress.kept_none h
      rfl
  | extender x =>
      obtain ⟨y, -, rfl⟩ := Progress.kept_none h
      rfl
  | operation o =>
      simp only [act] at h
      cases hp : (o.step self w).1 <;> rw [hp] at h <;> cases Option.some.inj h <;> rfl
  | ended r =>
      cases Option.some.inj h
      rfl

end JobFleet
