import JobFleet.Proofs.RateLimit.Turn
import JobFleet.Proofs.Runner.HandIn
import JobFleet.Proofs.Runner.Turn
import JobFleet.Proofs.Schedule.Turn

/-!
# The footprint of a step

`Task.act` splits a step of a task into what it does to the world and what becomes of the task.
`Task.MayDo` lists what the next step of a task may do, and `Task.act_via` says that it does
nothing else.
-/

namespace JobFleet

/-- The hand-in that a cycle is in the middle of. -/
def Schedule.Cycle.handIn? (c : Schedule.Cycle) : Option Enqueue :=
  match c.phase with
  | .enqueuing _ e => some e
  | _ => none

/-- The hand-in that a task is in the middle of. -/
def Task.handIn? : Task → Option Enqueue
  | .handler ⟨_, .enqueuing e _⟩ => some e
  | .mainLoop ⟨_, _, .cycling c⟩ => c.handIn?
  | .operation (.enqueue e) => some e
  | .operation (.runCycle c) => c.handIn?
  | .operation (.request _ (.cycling _ c)) => c.handIn?
  | _ => none

/-- The runner whose worker a task stops, and how far it has come. -/
def Task.stops? : Task → Option (String × StopPhase)
  | .operation (.stop name p) => some (name, p)
  | .operation (.shutdownApp name (.stopping p)) => some (name, p)
  | _ => none

/-- A task that starts, renews or ends the session of a scheduler. -/
def Task.controls : Task → Bool
  | .extender _ => true
  | .operation (.startScheduler ..) => true
  | .operation (.stopScheduler ..) => true
  | .operation (.startApp _ (.scheduler _)) => true
  | .operation (.shutdownApp _ (.scheduler _)) => true
  | _ => false

/-- The job that a worker has in hand until its end is recorded. -/
def Worker.Phase.job? : Worker.Phase → Option Job
  | .admitting job => some job
  | .refusing job _ => some job
  | .beginning t => some t.job
  | .calling t => some t.job
  | .awaiting t _ => some t.job
  | .succeeding t => some t.job
  | .exhausted t => some t.job
  | .backingOff t _ => some t.job
  | .abandoning t => some t.job
  | .starting | .choosing | .releasing .. | .resting .. => none

/-- What a worker may do, given the world in which the step is taken. -/
inductive Worker.MayDo (w : World) (k : Worker) : Deed → Prop
  | record {r : Record} {hc : r.call? = none} : MayDo w k (.record r hc)
  | ask {job : Job} (h : k.phase = .admitting job) :
      MayDo w k
        (.call ⟨.flag, .incrementIfBelow jobCounterKey (w.runnerConfig k.runner).maxRunning⟩)
  | release {t : Taken} {attempt : Nat} (h : k.phase = .releasing t attempt) :
      MayDo w k (.call ⟨.count, .decrement jobCounterKey⟩)
  | status {job : Job} {status : JobStatus} (h : k.phase.job? = some job) :
      MayDo w k (.call ⟨.nothing, Worker.statusCall (w.runnerConfig k.runner) job status⟩)
  | runner {f : Runner → Runner}
      (h : ∀ r, (f r).config = r.config ∧ ((f r).slot = r.slot ∨ (f r).slot = none)) :
      MayDo w k (.runner k.runner f)
  | spawn {t : Taken} (h : k.phase = .calling t) :
      MayDo w k (.spawn (.handler (.start t.job.handler)))
  | remove {t : Taken} {id : TaskId} (h : k.phase = .awaiting t id) : MayDo w k (.remove id)

/-- What a task that controls a scheduler may do, given the locks that it minds. -/
inductive Deed.Controls (minds : Lock → Prop) : Deed → Prop
  | aside {d : Deed} (h : d.Aside) : Controls minds d
  | lock {l : Lock} {c : Call .flag} (hl : minds l) (h : l.Asks c) :
      Controls minds (.call ⟨.flag, c⟩)
  | scheduler {name : String} {f : Scheduler → Scheduler}
      (h : ∀ s, (f s).lock = s.lock ∧ (s.delegates = true → (f s).delegates = true)) :
      Controls minds (.scheduler name f)
  | mainLoop {name : String} : Controls minds (.spawn (.mainLoop (.start name)))
  | extender {l : Lock} {main : TaskId} {w : World} (hl : minds l) :
      Controls minds (.spawn (.extender (.start l main w)))
  | cancel {id : TaskId} : Controls minds (.cancel id)

/-- The lock of a scheduler of a given name. -/
def World.LockOf (w : World) (name : String) (l : Lock) : Prop :=
  ∃ s, w.schedulers.find? name = some s ∧ s.lock = l

/-- The locks that a task that controls a scheduler minds: an extender its own, any other that of
a scheduler. -/
inductive Task.Minds (w : World) : Task → Lock → Prop
  | extender (x : Schedule.Extender) : Minds w (.extender x) x.lock
  | scheduler {t : Task} {name : String} {l : Lock} (h : w.LockOf name l) : Minds w t l

/-- What the next step of a task may do, given the world in which it is taken. -/
inductive Task.MayDo (w : World) (t : Task) : Deed → Prop
  | aside {d : Deed} (h : d.Aside) : MayDo w t d
  | handIn {e : Enqueue} {d : Deed} (ht : t.handIn? = some e) (h : e.MayDo w d) :
      MayDo w t d
  | worker {k : Worker} {d : Deed} (ht : t = .worker k) (h : k.MayDo w d) : MayDo w t d
  | set {h : HandlerId} {key value : String} {rest : List Action}
      (ht : t = .handler ⟨h, .acting (.set key value :: rest)⟩) :
      MayDo w t (.call ⟨.nothing, .set key value none⟩)
  | delete {h : HandlerId} {key : String} {rest : List Action}
      (ht : t = .handler ⟨h, .acting (.delete key :: rest)⟩) :
      MayDo w t (.call ⟨.nothing, .delete key⟩)
  | reach {h : HandlerId} {value : Bool} {rest : List Action}
      (ht : t = .handler ⟨h, .acting (.setAvailable value :: rest)⟩) : MayDo w t (.reach value)
  | forget {g : Guard} {k : RateLimitKey} {v : Json.Value} (ht : t = .operation (.guard g))
      (hp : g.phase = .settling k) (ho : g.outcome = .ok v) :
      MayDo w t (.call ⟨.nothing, Limiter.reset k⟩)
  | countFailure {g : Guard} {k : RateLimitKey} {fault : String} (ht : t = .operation (.guard g))
      (hp : g.phase = .settling k) (ho : g.outcome = .error fault) :
      MayDo w t (.call ⟨.count, (g.limiterIn w).recordFailure k⟩)
  | stopWorker {name : String} {r : Runner} {s : Runner.Slot}
      (ht : t.stops? = some (name, .entering)) (hr : w.runners.find? name = some r)
      (hs : r.slot = some s) : MayDo w t (.cancel s.task)
  | stopRunner {name : String} {p : StopPhase} {f : Runner → Runner}
      (ht : t.stops? = some (name, p))
      (h : ∀ r, (f r).config = r.config ∧ (f r).pending = r.pending ∧ (f r).stats = r.stats)
      (hs : ∀ r, (f r).slot = r.slot ∨ (f r).slot = none ∨
        ∃ r' s, w.runners.find? name = some r' ∧ r'.slot = some s ∧
          ((f r).slot.map Runner.Slot.task) = some s.task) :
      MayDo w t (.runner name f)
  | stopRecord {name : String} {p : StopPhase} {pending : Nat} (ht : t.stops? = some (name, p)) :
      MayDo w t (.record (.logged (.runner (.workerStopped pending))) rfl)
  | control {d : Deed} (ht : t.controls = true) (h : d.Controls (t.Minds w)) : MayDo w t d

/-! ## Machines that do nothing that others notice -/

namespace Limiter

open World (Via)

variable {D : Deed → Prop} (hD : ∀ d : Deed, d.Aside → D d) {w v : World}

include hD

/-- A limit check does no more than its reader may. -/
theorem isLimited_via (l : Limiter) (k : RateLimitKey) (h : w.Via D v) :
    w.Via D (l.isLimited k v).2 :=
  (h.perform (hD _ (.attempts k))).trans ((l.isLimited_spec k rfl).2.mono hD)

/-- A check of a guard does no more than the guard may. -/
theorem check_via (l : Limiter) (scope : AuthScope) (identity : String) (client : Option String)
    (h : w.Via D v) : w.Via D (l.check scope identity client v).2 := by
  unfold check
  split
  · exact h
  · rename_i key _
    have hl := isLimited_via hD l key h
    split
    · rename_i hk
      rw [hk] at hl
      exact hl.log (hD _ rfl)
    · rename_i hk
      rw [hk] at hl
      exact hl

end Limiter

/-- A turn of a guard does nothing but what its task may. -/
theorem Guard.Turn.via {g : Guard} {w v : World} {next : Progress Guard Guard.Result}
    (h : g.Turn w next v) : w.Via (Task.MayDo w (.operation (.guard g))) v := by
  have haside : ∀ d : Deed, d.Aside → Task.MayDo w (.operation (.guard g)) d :=
    fun _ h => .aside h
  cases h with
  | nameless hp hk => exact .same
  | refuses hp hk ha hl hv =>
      exact (World.Via.same.of_perform ha (.aside (.attempts _))).trans (hv.mono haside)
  | passes hp hk ha hl hv =>
      exact (World.Via.same.of_perform ha (.aside (.attempts _))).trans (hv.mono haside)
  | begins hp => exact .same
  | finishes hp => exact .same
  | forgets hp ho ha hv =>
      exact (World.Via.same.of_perform ha (.forget rfl hp ho)).trans (hv.mono haside)
  | records hp ho ha hv =>
      exact (World.Via.same.of_perform ha (.countFailure rfl hp ho)).trans (hv.mono haside)

/-- A step of a guard does what a guard may. -/
theorem Guard.step_via (g : Guard) (w : World) :
    w.Via (Task.MayDo w (.operation (.guard g))) (g.step w).2 :=
  (g.step_turn w).via

/-! ## Cycles, handlers and main loops -/

namespace Schedule.Cycle

/-- What a cycle may do: what its hand-in may, and what nobody else notices. -/
def MayDo (w : World) (c : Cycle) (d : Deed) : Prop :=
  d.Aside ∨ ∃ e, c.handIn? = some e ∧ e.MayDo w d

/-- A scripted service of a scheduler is called, and the call is counted. -/
theorem callService_via (c : Cycle) (settings : ParserSettings) {s : Scheduler} (w : World)
    (hs : w.schedulers.find? c.scheduler = some s) :
    w.Via Deed.Aside (c.callService settings s.service w).2 := by
  cases hservice : s.service with
  | runner runner defaults criticality handler => exact .same
  | scripted calls reply =>
      have hcounted : w.Via Deed.Aside (w.modifyScheduler c.scheduler fun s =>
          { s with service := .scripted (calls + 1) reply }) := by
        have hsame : w.modifyScheduler c.scheduler
              (fun s => { s with service := .scripted (calls + 1) reply }) =
            w.modifyScheduler c.scheduler fun s =>
              if s.delegates then s else { s with service := .scripted (calls + 1) reply } := by
          refine World.modifyScheduler_congr hs ?_
          simp [Scheduler.delegates, hservice]
        rw [hsame]
        refine World.Via.same.scheduler fun s => ?_
        cases hd : s.delegates <;> simp [hd]
      unfold callService
      simp only
      split <;> exact hcounted.note rfl

/-- Loading the settings does nothing but log. -/
theorem load_via (c : Cycle) (w : World) : w.Via Deed.Aside (c.load w).2 := by
  unfold load
  split
  · exact .same
  · rename_i hs
    split
    · exact .same
    · split
      · exact c.callService_via _ w hs
      · exact .same

/-- A step of a cycle does what a cycle may. -/
theorem step_via (self : TaskId) (c : Cycle) (w : World) : w.Via (c.MayDo w) (c.step self w).2 := by
  unfold step
  split
  · exact (c.load_via w).mono fun d h => Or.inl h
  · exact World.Via.same.note (Or.inl rfl)
  · rename_i settings inner hphase
    have hin : c.handIn? = some inner := by rw [handIn?, hphase]
    have hs := (inner.step_via self w).mono (E := c.MayDo w) fun d h => Or.inr ⟨inner, hin, h⟩
    split
    · rename_i hk
      rw [hk] at hs
      exact hs
    · rename_i hk
      rw [hk] at hs
      exact hs.log (Or.inl rfl)

/-- An abandoned cycle does what a cycle may. -/
theorem abandon_via (self : TaskId) (c : Cycle) (w : World) :
    w.Via (c.MayDo w) (c.abandon self w) := by
  unfold abandon
  split
  · rename_i inner hphase
    have hin : c.handIn? = some inner := by rw [handIn?, hphase]
    exact (inner.abandon_via self w).mono fun d h => Or.inr ⟨inner, hin, h⟩
  · exact .same

end Schedule.Cycle

/-- A task in the middle of a cycle may do what the cycle may. -/
theorem Schedule.Cycle.MayDo.task {c : Cycle} {t : Task} (ht : t.handIn? = c.handIn?) {w : World}
    {d : Deed} (h : c.MayDo w d) : Task.MayDo w t d := by
  rcases h with h | ⟨e, he, hd⟩
  · exact .aside h
  · exact .handIn (ht.trans he) hd

/-- A step of a main loop does what a main loop may. -/
theorem Schedule.MainLoop.step_via (self : TaskId) (m : MainLoop) (w : World) :
    w.Via (Task.MayDo w (.mainLoop m)) (m.step self w).2 := by
  obtain ⟨scheduler, cancelled, phase⟩ := m
  cases phase with
  | sleeping wake => cases cancelled <;> exact .same
  | cycling c =>
      have hin : (Task.mainLoop ⟨scheduler, cancelled, .cycling c⟩).handIn? = c.handIn? := rfl
      cases cancelled with
      | true => exact (c.abandon_via self w).mono fun d h => h.task hin
      | false =>
          have hs := (c.step_via self w).mono fun d h => h.task (w := w) hin
          unfold step
          simp only [Bool.false_eq_true, if_false]
          split
          · rename_i hk
            rw [hk] at hs
            exact hs
          · rename_i hk
            rw [hk] at hs
            unfold afterCycle
            split
            · exact hs.log (.aside rfl)
            · exact hs.log (.aside rfl)
            · exact hs

/-- A step of a handler does what a handler may. -/
theorem HandlerCall.step_via (self : TaskId) (h : HandlerCall) (w : World) :
    w.Via (Task.MayDo w (.handler h)) (h.step self w).2 := by
  obtain ⟨handler, phase⟩ := h
  cases phase with
  | entering =>
      unfold step enter
      simp only
      split
      · exact (World.Via.same.stage (.aside trivial)).note (.aside rfl)
      · exact World.Via.same.log (.aside rfl)
      · exact .same
  | acting actions =>
      cases actions with
      | nil => exact .same
      | cons action rest =>
          cases action with
          | succeed => exact .same
          | fail fault => exact .same
          | panic message => exact .same
          | sleep d => exact .same
          | wait gate => exact World.Via.same.stage (.aside trivial)
          | setAvailable value => exact World.Via.same.reach (.reach rfl)
          | set key value => exact World.Via.same.perform (.set rfl)
          | delete key => exact World.Via.same.perform (.delete rfl)
          | enqueue runner plan => exact World.Via.same.stage (.aside trivial)
  | sleeping wake rest => exact .same
  | waiting gate rest => exact World.Via.same.stage (.aside trivial)
  | enqueuing inner rest =>
      have hs := (inner.step_via self w).mono fun d hd =>
        Task.MayDo.handIn (w := w) (t := .handler ⟨handler, .enqueuing inner rest⟩) rfl hd
      unfold step
      simp only
      split
      · rename_i hk
        rw [hk] at hs
        exact hs
      · rename_i hk
        rw [hk] at hs
        exact hs.note (.aside rfl)
  | finished ending => exact .same

/-! ## Workers -/

namespace Worker

variable {k : Worker} {w : World}

/-- What only the runner's own books notice, a worker may do. -/
theorem MayDo.books {u v : World} (hu : w.Via (k.MayDo w) u) (h : u.Via k.Books v) :
    w.Via (k.MayDo w) v := by
  refine hu.trans (h.mono ?_)
  intro d hd
  cases hd with
  | record _ => exact .record
  | count => exact .runner fun _ => ⟨rfl, .inl rfl⟩

/-- A phase that ends a job has it. -/
theorem Phase.Ends.job? {p : Phase} {t : Taken} {status : JobStatus} (h : p.Ends t status) :
    p.job? = some t.job := by
  cases h <;> rfl

/-- A turn of a worker does nothing but what the worker may. -/
theorem Turn.via {left : Option Worker} {v : World} (h : k.Turn w left v) :
    w.Via (k.MayDo w) v := by
  cases h with
  | starts hp => exact World.Via.same.log .record
  | quits hp hc => exact .same
  | takes hp hc hr hq => exact World.Via.same.runner (.runner fun _ => ⟨rfl, .inl rfl⟩)
  | idles hp hc hq =>
      refine World.Via.log (World.Via.same.runner (.runner ?_)) .record
      intro r
      split
      · exact ⟨rfl, .inr rfl⟩
      · exact ⟨rfl, .inl rfl⟩
  | waives hp hc => exact .same
  | asks hp hc ha => exact World.Via.same.of_perform ha (.ask hp)
  | refuses hp ha hv =>
      exact MayDo.books (World.Via.same.of_perform ha (.status (by rw [hp]; rfl))) hv
  | begins hp ha ho hv =>
      exact MayDo.books (World.Via.same.of_perform ha (.status (by rw [hp]; rfl))) hv
  | aborts hp ha ho hv =>
      exact MayDo.books (World.Via.same.of_perform ha (.status (by rw [hp]; rfl))) hv
  | calls hp => exact World.Via.same.spawn (.spawn hp)
  | joins hp hgoal hv => exact MayDo.books (World.Via.same.remove (.remove hp)) hv
  | ends hp ha hv => exact MayDo.books (World.Via.same.of_perform ha (.status hp.job?)) hv
  | resumes hp hc => exact .same
  | abandons hp hc => exact .same
  | releases hp ha => exact World.Via.same.of_perform ha (.release hp)
  | retries hp ha hmore hv => exact MayDo.books (World.Via.same.of_perform ha (.release hp)) hv
  | sticks hp ha hmore => exact (World.Via.same.of_perform ha (.release hp)).log .record
  | rests hp => exact .same

/-- A worker does nothing but what it may. -/
theorem step_via (k : Worker) (w : World) : w.Via (k.MayDo w) (k.step w).2 :=
  (k.step_turn w).via

end Worker

/-! ## Stops of a runner -/

namespace StopPhase

/-- Stopping a runner does nothing but what it may. -/
theorem step_via {t : Task} {name : String} {p : StopPhase} (ht : t.stops? = some (name, p))
    (w : World) : w.Via (Task.MayDo w t) (p.step name w).2 := by
  unfold step
  split
  · unfold enter
    split
    · exact .same
    · rename_i slot hs
      obtain ⟨r, hr, hslot⟩ := Option.bind_eq_some_iff.mp hs
      have hc : w.Via (Task.MayDo w t) (w.cancel slot.task) :=
        World.Via.same.cancel (.stopWorker ht hr hslot)
      simp only
      split
      · exact hc
      · exact hc.runner (.stopRunner ht (fun _ => ⟨rfl, rfl, rfl⟩)
          fun _ => .inr (.inr ⟨r, slot, hr, hslot, rfl⟩))
  · refine World.Via.log (World.Via.same.runner (.stopRunner ht ?_ ?_)) (.stopRecord ht)
    · intro r
      split <;> exact ⟨rfl, rfl, rfl⟩
    · intro r
      split
      · exact .inr (.inl rfl)
      · exact .inl rfl
  · exact .same

end StopPhase

/-! ## Control of schedulers -/

namespace Schedule

open World (Via)

variable {w v : World}

/-- What an extender does to the world. -/
theorem Extender.Turn.via {x : Extender} {next : Progress Extender Unit} (h : x.Turn w next v) :
    w.Via (Deed.Controls (· = x.lock)) v := by
  cases h with
  | quits hp hc => exact .same
  | wakes hp hc => exact .same
  | renews hp ha => exact (World.Via.same.of_perform ha (.lock rfl .extend)).log (.aside rfl)
  | demotes hp ha hne =>
      exact ((World.Via.same.of_perform ha (.lock rfl .extend)).log (.aside rfl)).cancel .cancel

/-- A start that leaves the guard does what a controller may. -/
theorem StartPhase.leave_via {minds : Lock → Prop} (name : String) (session : Option Session)
    (h : w.Via (Deed.Controls minds) v) : w.Via (Deed.Controls minds) (leave name session v) :=
  h.scheduler (.scheduler fun _ => ⟨rfl, id⟩)

/-- What starting a scheduler does to the world. -/
theorem StartPhase.Turn.via {self : TaskId} {name : String} {p : StartPhase}
    {next : Progress StartPhase Bool} (h : p.Turn self name w next v) :
    w.Via (Deed.Controls (w.LockOf name)) v := by
  cases h with
  | misses hs => exact .same
  | rests hs hp hr => exact .same
  | enters hs hp hr => exact World.Via.same.scheduler (.scheduler fun _ => ⟨rfl, id⟩)
  | @wins s u hs hp ha =>
      have hl : w.LockOf name s.lock := ⟨s, hs, rfl⟩
      refine leave_via name _ (World.Via.spawn (World.Via.spawn ?_ .mainLoop) (.extender hl))
      exact (World.Via.same.of_perform ha (.lock hl .acquire)).log (.aside rfl)
  | @loses s a e u hs hp ha hne =>
      have hl : w.LockOf name s.lock := ⟨s, hs, rfl⟩
      exact leave_via name _
        ((World.Via.same.of_perform ha (.lock hl .acquire)).log (.aside rfl))

/-- What stopping a scheduler does to the world. -/
theorem StopPhase.Turn.via {name : String} {p : StopPhase} {next : Progress StopPhase Unit}
    (h : p.Turn name w next v) : w.Via (Deed.Controls (w.LockOf name)) v := by
  cases h with
  | misses hs => exact .same
  | rests hs hp hn => exact .same
  | takes hs hp hn =>
      exact (World.Via.same.scheduler (.scheduler fun _ => ⟨rfl, id⟩)).cancel .cancel
  | cancels hs hp => exact World.Via.same.cancel .cancel
  | waits hs hp => exact .same
  | @releases s a u hs hp ha =>
      have hl : w.LockOf name s.lock := ⟨s, hs, rfl⟩
      exact (World.Via.same.of_perform ha (.lock hl .release)).log (.aside rfl)

end Schedule

/-- Who minds more locks may do more. -/
theorem Deed.Controls.mono {minds minds' : Lock → Prop} {d : Deed} (h : d.Controls minds)
    (hm : ∀ l, minds l → minds' l) : d.Controls minds' := by
  cases h with
  | aside h => exact .aside h
  | lock hl h => exact .lock (hm _ hl) h
  | scheduler h => exact .scheduler h
  | mainLoop => exact .mainLoop
  | extender hl => exact .extender (hm _ hl)
  | cancel => exact .cancel

end JobFleet
