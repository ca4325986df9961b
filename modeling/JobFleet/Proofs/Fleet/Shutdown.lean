import JobFleet.Proofs.Fleet.Closing
import JobFleet.Proofs.Fleet.Conservation
import JobFleet.Proofs.Fleet.Wakeups

/-!
# Shutting a process down

A shutdown stops the scheduler, which hands in jobs, waits until the runner has nothing left to do,
and stops its worker then. If nobody feeds the process from outside meanwhile and nobody else stops
its scheduler or its runner, then nothing is lost: when the shutdown returns, the scheduler's tasks
have ended, no worker is there, no job waits, and every job that has ever been accepted has come to
an end that is counted. Another stop beside it may make it return too early.
-/

namespace JobFleet

open Schedule (Session)
open Runner (Episode Verdict)

/-- The scheduler that a task stops. -/
def Task.closes? (t : Task) : Option String :=
  match t.role? with
  | some (.stops name _) => some name
  | _ => none

namespace World

/-- The handler's call that the worker in a runner's slot waits for. -/
def callee? (w : World) (name : String) : Option TaskId :=
  (((w.runners.find? name).bind Runner.slot).bind fun s => w.crew name s.task).bind
    fun k => k.phase.awaits?

end World

/-- A task that hands jobs in to a process from inside: a main loop of its scheduler, or the call
that its worker waits for. -/
def Task.inside (name : String) (id : TaskId) (w : World) : Task → Bool
  | .mainLoop m => m.scheduler = name
  | .handler _ => w.callee? name = some id
  | _ => false

/-- A task that starts a process's scheduler, or hands a job in to its runner from outside. -/
def Task.feeds (name : String) (id : TaskId) (w : World) (t : Task) : Bool :=
  t.starts?.any (fun e => e.1 = name) ||
    t.hands?.any (fun e => e.runner = name) && !t.inside name id w

/-- A task that stops a process's scheduler or its runner. -/
def Task.halts (name : String) (t : Task) : Bool :=
  t.closes? = some name || t.stops?.any (fun e => e.1 = name)

namespace World

variable {w u v : World} {name : String} {task : TaskId} {m : Move}

/-- A move by which nobody starts a process's scheduler or hands a job in from outside. -/
def Unfed (name : String) (w : World) : Move → Prop
  | .step id => (w.tasks.find? id).any (Task.feeds name id w) = false
  | _ => True

instance (name : String) (w : World) (m : Move) : Decidable (w.Unfed name m) :=
  match m with
  | .step id => inferInstanceAs (Decidable ((w.tasks.find? id).any (Task.feeds name id w) = false))
  | .pass _ | .turn _ | .favour _ | .launch _ | .collect _ | .disturb _ | .reach _ | .call _
  | .openGate .. | .handler _ | .runner .. | .scheduler .. | .limiter .. | .lock .. | .app ..
  | .update .. => .isTrue trivial

/-- A move by which nobody but one task stops a process's scheduler or its runner. -/
def Unhalted (name : String) (task : TaskId) (w : World) : Move → Prop
  | .step id => id = task ∨ (w.tasks.find? id).any (Task.halts name) = false
  | _ => True

instance (name : String) (task : TaskId) (w : World) (m : Move) :
    Decidable (w.Unhalted name task m) :=
  match m with
  | .step id =>
      inferInstanceAs (Decidable (id = task ∨ (w.tasks.find? id).any (Task.halts name) = false))
  | .pass _ | .turn _ | .favour _ | .launch _ | .collect _ | .disturb _ | .reach _ | .call _
  | .openGate .. | .handler _ | .runner .. | .scheduler .. | .limiter .. | .lock .. | .app ..
  | .update .. => .isTrue trivial

/-- A move by which nobody interferes with the shutdown of a process. -/
def Undisturbed (name : String) (task : TaskId) (w : World) (m : Move) : Prop :=
  w.Unfed name m ∧ w.Unhalted name task m

instance (name : String) (task : TaskId) (w : World) (m : Move) :
    Decidable (w.Undisturbed name task m) :=
  inferInstanceAs (Decidable (w.Unfed name m ∧ w.Unhalted name task m))

/-- A stop of a scheduler has begun and has not returned. -/
def Stopping (name : String) (w : World) : Prop :=
  ∃ e ∈ w.tasks.entries, e.2.stopping? = some name

instance (name : String) (w : World) : Decidable (w.Stopping name) :=
  inferInstanceAs (Decidable (∃ e ∈ w.tasks.entries, e.2.stopping? = some name))

section Moves

variable {id : TaskId} {t : Task}

/-- While nobody feeds the scheduler none starts it. -/
theorem Unfed.not_starts (h : w.Unfed name (.step id)) (ht : w.tasks.find? id = some t)
    (p : Schedule.StartPhase) : t.starts? ≠ some (name, p) := by
  intro hp
  simp [Unfed, ht, Task.feeds, hp] at h

/-- While nobody feeds the runner only its own tasks hand in. -/
theorem Unfed.inside (h : w.Unfed name (.step id)) (ht : w.tasks.find? id = some t)
    {e : Enqueue} (he : t.hands? = some e) (hn : e.runner = name) : t.inside name id w = true := by
  simp only [Unfed, ht, Option.any_some, Task.feeds, he, hn, Bool.or_eq_false_iff] at h
  simpa using h.2

/-- No other task stops the scheduler. -/
theorem Unhalted.not_closes (h : w.Unhalted name task (.step id)) (hid : id ≠ task)
    (p : Schedule.StopPhase) : w.role id ≠ some (.stops name p) := by
  intro hp
  obtain ⟨t, ht, hrole⟩ := Option.bind_eq_some_iff.mp hp
  rcases h with he | h
  · exact hid he
  · simp [ht, Task.halts, Task.closes?, hrole] at h

/-- No other task stops the runner. -/
theorem Unhalted.not_stops (h : w.Unhalted name task (.step id)) (hid : id ≠ task)
    (ht : w.tasks.find? id = some t) (p : StopPhase) : t.stops? ≠ some (name, p) := by
  intro hp
  rcases h with he | h
  · exact hid he
  · simp [ht, Task.halts, hp] at h

end Moves

/-! ## Stops of the scheduler -/

/-- How a stop of a scheduler that has begun came to be where it is: it was there, or has taken a
step. -/
theorem Sound.stopper_was (h : w.Sound) (hm : w.Admits m) {q : TaskId} {p : Schedule.StopPhase}
    (hq : (w.move m).role q = some (.stops name p)) (hp : p ≠ .entering) :
    w.role q = some (.stops name p) ∨
      m = .step q ∧ ∃ p', w.role q = some (.stops name p') := by
  obtain ⟨t', ht', hrole⟩ := Option.bind_eq_some_iff.mp hq
  rcases h.move_was hm ht' with ⟨t, ht, hcore⟩ | ⟨-, hnew | ⟨c, rfl⟩⟩ | ⟨t, he, ht, hleft⟩
  · left
    rw [role_of_find? ht]
    cases t' with
    | operation o =>
        cases t with
        | operation o' =>
            cases hcore
            exact hrole
        | _ => cases hcore
    | _ => cases hrole
  · cases hnew with
    | @operation o ho =>
        rcases role_of_fresh ho with hnone | ⟨n, hn⟩
        · cases hnone.symm.trans hrole
        · cases hn.symm.trans hrole
          exact absurd rfl hp
    | _ => cases hrole
  · cases hrole
  · refine .inr ⟨he, ?_⟩
    rw [role_of_find? ht]
    have hafter : (t.act q w).1.bind Task.role? = some (.stops name p) := by
      rw [hleft]
      exact hrole
    cases hc : t.controls with
    | false =>
        rcases Task.act_role q w hc with hsame | ⟨-, hnone⟩
        · exact ⟨p, hsame.symm.trans hafter⟩
        · rw [hnone] at hafter
          cases hafter
    | true =>
        rcases Task.controls_cases hc with ⟨x, rfl⟩ | ⟨n, p', hp'⟩ | ⟨n, p', hp'⟩
        · obtain ⟨y, -, rfl⟩ := Progress.kept_none hleft
          cases hrole
        · rw [(Task.act_starts q w hp').2.1] at hafter
          cases hafter
        · obtain ⟨next, -, hl⟩ := Task.act_stops q w hp'
          rw [hafter] at hl
          obtain ⟨p'', -, he'⟩ := Option.map_eq_some_iff.mp hl.symm
          cases he'
          exact ⟨p', hp'⟩

/-- A stop that takes its first step leaves the scheduler without a session. -/
theorem session?_of_closes (hm : w.Admits (.step task))
    (hq : w.role task = some (.stops name .entering)) :
    (w.move (.step task)).session? name = none := by
  obtain ⟨t, ht, -, he⟩ := move_step hm
  obtain ⟨next, hturn, -⟩ := Task.act_stops task w ((role_of_find? ht).symm.trans hq)
  rw [he, session?_put]
  generalize (t.act task w).2 = u at hturn
  generalize hphase : Schedule.StopPhase.entering = p at hturn
  cases hturn with
  | misses hs => rw [session?, hs]; rfl
  | @rests s hs hp hn =>
      rw [session?, hs]
      exact hn
  | @takes s session hs hp hn =>
      have hsession := w.session?_modifyScheduler (f := fun s => { s with session := none }) name
        name
      rw [if_pos rfl, hs] at hsession
      exact hsession
  | cancels hs hp => cases hphase.trans hp
  | waits hs hp => cases hphase.trans hp
  | releases hs hp ha => cases hphase.trans hp

/-- A scheduler without a session gets none while nobody starts it. -/
theorem Regular.unstarted (h : w.Regular) (hm : w.Admits m) (hu : w.Unfed name m)
    (hs : w.session? name = none) : (w.move m).session? name = none := by
  cases h.schedulerMove hm name with
  | passes session gate => exact session.trans hs
  | enters _ _ _ _ _ session gate => exact session.trans hs
  | loses _ _ _ session gate => exact session.trans hs
  | wins he ht hp =>
      subst he
      exact absurd hp (hu.not_starts ht _)
  | takes _ _ _ _ session => exact session

/-- Without a session, and without a stop that has begun, a scheduler has no main loop. -/
theorem Steered.unled (h : w.Steered name) (hs : w.session? name = none)
    (hstops : ∀ q p, w.role q = some (.stops name p) → p = .entering) (j : TaskId) (c : Bool) :
    w.role j ≠ some (.leads name c) := by
  intro hj
  obtain ⟨s, rfl, hspans⟩ := h.led j c hj
  cases hspans.stage with
  | own hown => cases hs.symm.trans hown
  | ending hq => cases hstops _ _ hq
  | closing hq hext => cases hstops _ _ hq
  | past hmain hext =>
      obtain ⟨t, ht, -⟩ := Option.bind_eq_some_iff.mp hj
      rw [running, Table.contains, ht] at hmain
      cases hmain

/-! ## The phases of a shutdown -/

/-- A runner that has no worker, and no job waits. -/
def Resting (name : String) (w : World) : Prop :=
  ∀ r, w.runners.find? name = some r → r.slot = none ∧ r.pending = []

/-- How far the shutdown of a process has come, and what it has reached by then. -/
inductive ShutsDown (name : String) (task : TaskId) (w : World) : Prop
  | begins (ht : w.tasks.find? task = some (.operation (.shutdownApp name (.scheduler .entering))))
      (manned : w.Manned name)
  | ends {p : Schedule.StopPhase}
      (ht : w.tasks.find? task = some (.operation (.shutdownApp name (.scheduler p))))
      (session : w.session? name = none) (manned : w.Manned name)
  | drains {p : DrainPhase}
      (ht : w.tasks.find? task = some (.operation (.shutdownApp name (.draining p))))
      (session : w.session? name = none) (manned : w.Manned name)
  | rests (ht : ∀ t, w.tasks.find? task = some t →
        t = .operation (.shutdownApp name (.stopping .entering)) ∨ ∃ r, t = .ended r)
      (session : w.session? name = none) (resting : w.Resting name)

/-- A process that is being shut down by one task. -/
structure Retires (name : String) (task : TaskId) (w : World) : Prop where
  steered : w.Steered name
  staffed : w.Staffed name
  known : task < w.nextTask
  alone : ∀ q p, w.role q = some (.stops name p) → p = .entering ∨ q = task
  phase : w.ShutsDown name task

namespace Retires

/-- Nobody else begins to stop the scheduler. -/
theorem alone_move (h : w.Retires name task) (hm : w.Admits m) (hu : w.Unhalted name task m)
    (q : TaskId) (p : Schedule.StopPhase) (hq : (w.move m).role q = some (.stops name p)) :
    p = .entering ∨ q = task := by
  by_cases hp : p = .entering
  · exact .inl hp
  · right
    rcases h.steered.regular.sound.stopper_was hm hq hp with hwas | ⟨rfl, p', hp'⟩
    · exact (h.alone q p hwas).resolve_left hp
    · by_cases hself : q = task
      · exact hself
      · exact absurd hp' (hu.not_closes hself p')

/-- The runner stays manned while the shutdown has not come to its worker. -/
theorem manned_move (h : w.Retires name task) (hm : w.Admits m) (hu : w.Unhalted name task m)
    {t : Task} (ht : w.tasks.find? task = some t) (hself : t.stops? = none)
    (hmanned : w.Manned name) : (w.move m).Manned name := by
  refine hmanned.move h.steered.regular h.staffed hm ?_
  cases m with
  | step id =>
      intro hhalts
      obtain ⟨⟨n, p⟩, hp, hn⟩ := Option.map_eq_some_iff.mp hhalts
      obtain ⟨t', ht', hstops⟩ := Option.bind_eq_some_iff.mp hp
      have hname : n = name := hn
      subst hname
      by_cases hid : id = task
      · cases ht.symm.trans (hid ▸ ht')
        cases hself.symm.trans hstops
      · exact hu.not_stops hid ht' p hstops
  | _ => exact id

/-- Nobody inside hands in a job once the worker rests and the scheduler has no session. -/
theorem not_inside (h : w.Retires name task) (hs : w.session? name = none)
    (hself : ∀ p, w.role task ≠ some (.stops name p)) (hr : w.Resting name) {id : TaskId} {t : Task}
    (ht : w.tasks.find? id = some t) : t.inside name id w = false := by
  have hstops : ∀ q p, w.role q = some (.stops name p) → p = .entering := by
    intro q p hq
    rcases h.alone q p hq with hp | rfl
    · exact hp
    · exact absurd hq (hself p)
  cases t with
  | mainLoop loop =>
      have hne : loop.scheduler ≠ name := by
        rintro rfl
        exact h.steered.unled hs hstops id loop.cancelled (role_of_find? ht)
      simpa [Task.inside] using hne
  | handler c =>
      have hnone : w.callee? name = none := by
        unfold callee?
        cases hrunner : w.runners.find? name with
        | none => rfl
        | some r => simp [(hr r hrunner).1]
      simp [Task.inside, hnone]
  | _ => rfl

/-- A runner that rests goes on resting. -/
theorem resting_move (h : w.Retires name task) (hm : w.Admits m) (hu : w.Undisturbed name task m)
    (ht : ∀ t, w.tasks.find? task = some t →
      t = .operation (.shutdownApp name (.stopping .entering)) ∨ ∃ r, t = .ended r)
    (hs : w.session? name = none) (hrest : w.Resting name) : (w.move m).Resting name := by
  have hself : ∀ p, w.role task ≠ some (.stops name p) := by
    intro p hp
    obtain ⟨t, htask, hrole⟩ := Option.bind_eq_some_iff.mp hp
    rcases ht t htask with rfl | ⟨r, rfl⟩ <;> cases hrole
  intro r' hr'
  cases hr : w.runners.find? name with
  | none =>
      obtain ⟨config, worker, rfl⟩ := (h.steered.regular.sound.founds hm hr).2 r' hr'
      exact ⟨rfl, rfl⟩
  | some r =>
      obtain ⟨hslot, hpending⟩ := hrest r hr
      cases h.steered.regular.runnerMove hr hm with
      | passes apart shuns =>
          rw [apart.runner, hr] at hr'
          cases hr'
          exact ⟨hslot, hpending⟩
      | handsIn he htask hin hn step made left leaves =>
          subst he
          have hinside := hu.1.inside htask hin hn
          rw [h.not_inside hs hself hrest htask] at hinside
          cases hinside
      | givesUp he htask hin hands hn left leaves =>
          cases leaves.runner.symm.trans hr'
          split
          · exact ⟨hslot, hpending⟩
          · exact ⟨hslot, hpending⟩
      | @works id k _ _ _ he hk tells made runner crew =>
          have hnone := h.staffed.none_of_empty hr hslot id
          cases hnone.symm.trans hk
      | @stops id t p _ _ _ he htask hp made left runner crew =>
          subst he
          cases runner.symm.trans hr'
          by_cases hid : id = task
          · subst hid
            rcases ht t htask with rfl | ⟨r, rfl⟩
            · cases hp
              cases made with
              | rests hs => exact ⟨hslot, hpending⟩
              | follows hsome ha => cases hslot.symm.trans hsome
              | halts hsome ha => cases hslot.symm.trans hsome
            · cases hp
          · exact absurd hp (hu.2.not_stops hid htask p)

/-- What becomes of the shutdown in a step of another task, or in a move that is no step. -/
theorem phase_kept (h : w.Retires name task) (hm : w.Admits m) (hu : w.Undisturbed name task m)
    (hstep : m ≠ .step task) : (w.move m).ShutsDown name task := by
  have hsound := h.steered.regular.sound
  cases h.phase with
  | begins ht manned =>
      exact .begins (hsound.move_operation hm ht hstep) (h.manned_move hm hu.2 ht rfl manned)
  | ends ht session manned =>
      exact .ends (hsound.move_operation hm ht hstep)
        (h.steered.regular.unstarted hm hu.1 session) (h.manned_move hm hu.2 ht rfl manned)
  | drains ht session manned =>
      exact .drains (hsound.move_operation hm ht hstep)
        (h.steered.regular.unstarted hm hu.1 session) (h.manned_move hm hu.2 ht rfl manned)
  | rests ht session resting =>
      refine .rests ?_ (h.steered.regular.unstarted hm hu.1 session)
        (h.resting_move hm hu ht session resting)
      intro t' ht'
      rcases hsound.move_was hm ht' with ⟨t, htask, hcore⟩ | ⟨hle, -⟩ | ⟨t, he, -, -⟩
      · rcases ht t htask with rfl | ⟨r, rfl⟩
        · left
          cases t' <;> cases hcore
          rfl
        · right
          cases t' <;> cases hcore
          exact ⟨r, rfl⟩
      · exact absurd h.known (Nat.not_lt_of_le hle)
      · exact absurd he hstep

/-- A drain that returns leaves the runner at rest. -/
theorem drained_rests (h : w.Retires name task) (hm : w.Admits (.step task))
    (hu : w.Unhalted name task (.step task)) {p : DrainPhase}
    (ht : w.tasks.find? task = some (.operation (.shutdownApp name (.draining p))))
    (hnext : (w.move (.step task)).tasks.find? task =
      some (.operation (.shutdownApp name (.stopping .entering))))
    (manned : w.Manned name) : (w.move (.step task)).Resting name := by
  obtain ⟨hpending, hcrew⟩ := manned.drained h.staffed hm ht hnext .shutdown
  intro r hr
  refine ⟨?_, hpending r hr⟩
  have hafter := h.manned_move hm hu ht rfl manned
  cases hslot : r.slot with
  | none => rfl
  | some s =>
      obtain ⟨k, hk, -⟩ := (hafter r hr).2 s hslot
      cases (hcrew s.task).symm.trans hk

/-- What becomes of the shutdown in its own next step. -/
theorem phase_step (h : w.Retires name task) (hm : w.Admits (.step task))
    (hu : w.Undisturbed name task (.step task)) :
    (w.move (.step task)).ShutsDown name task := by
  obtain ⟨t, ht, hready, he⟩ := move_step hm
  have hleft : (w.move (.step task)).tasks.find? task = (t.act task w).1 := by
    rw [he, put_find?, if_pos rfl]
  have hstops : ∀ p, t = .operation (.shutdownApp name (.scheduler p)) → w.Manned name →
      (w.move (.step task)).session? name = none → (w.move (.step task)).ShutsDown name task := by
    rintro p rfl manned session
    have hmanned := h.manned_move hm hu.2 ht rfl manned
    simp only [Task.act, Operation.step, AppShutdown.step] at hleft
    cases hp : p.step name w with
    | mk next v =>
        rw [hp] at hleft
        cases next with
        | on p' => exact .ends hleft session hmanned
        | ended _ => exact .drains hleft session hmanned
  cases h.phase with
  | begins ht' manned =>
      cases ht.symm.trans ht'
      exact hstops _ rfl manned (session?_of_closes hm (role_of_find? ht))
  | ends ht' session manned =>
      cases ht.symm.trans ht'
      exact hstops _ rfl manned (h.steered.regular.unstarted hm hu.1 session)
  | @drains p ht' session manned =>
      cases ht.symm.trans ht'
      have hsession := h.steered.regular.unstarted hm hu.1 session
      simp only [Task.act, Operation.step, AppShutdown.step] at hleft
      cases hp : p.step name w with
      | on p' =>
          rw [hp] at hleft
          exact .drains hleft hsession (h.manned_move hm hu.2 ht rfl manned)
      | ended _ =>
          rw [hp] at hleft
          have hnext : (w.move (.step task)).tasks.find? task =
              some (.operation (.shutdownApp name (.stopping .entering))) := hleft
          refine .rests ?_ hsession (h.drained_rests hm hu.2 ht hnext manned)
          intro t' ht''
          cases hnext.symm.trans ht''
          exact .inl rfl
  | rests ht' session resting =>
      refine .rests ?_ (h.steered.regular.unstarted hm hu.1 session)
        (h.resting_move hm hu ht' session resting)
      intro t' ht''
      rw [hleft] at ht''
      rcases ht' t ht with rfl | ⟨r, rfl⟩
      · right
        have hslot : (w.runners.find? name).bind Runner.slot = none := by
          cases hr : w.runners.find? name with
          | none => rfl
          | some r => exact (resting r hr).1
        simp only [Task.act, Operation.step, AppShutdown.step, StopPhase.step, StopPhase.enter,
          hslot] at ht''
        cases ht''
        exact ⟨_, rfl⟩
      · cases hready

/-- Every move that does not interfere takes the shutdown further. -/
theorem move (h : w.Retires name task) (hm : w.Admits m) (hu : w.Undisturbed name task m) :
    (w.move m).Retires name task where
  steered := h.steered.move hm
  staffed := h.staffed.move h.steered.regular hm
  known := Nat.lt_of_lt_of_le h.known (move_nextTask hm)
  alone := h.alone_move hm hu.2
  phase := by
    by_cases hstep : m = .step task
    · subst hstep
      exact h.phase_step hm hu
    · exact h.phase_kept hm hu hstep

end Retires

/-! ## When a shutdown returns -/

/-- Somebody asks for a process to be shut down. -/
def shutdownOf (name : String) : Move := .launch (.shutdownApp name (.scheduler .entering))

/-- A shutdown begins where no other stop of the scheduler has begun. -/
theorem Steered.retires (h : u.Steered name) (hs : u.Staffed name) (hmanned : u.Manned name)
    (hquiet : ¬ u.Stopping name) : (u.move (shutdownOf name)).Retires name u.nextTask := by
  have hm : u.Admits (shutdownOf name) := rfl
  constructor
  case steered => exact h.move hm
  case staffed => exact hs.move h.regular hm
  case known => exact Nat.lt_succ_self _
  case alone =>
    intro q p hq
    have hrole := u.role_spawn (.operation (.shutdownApp name (.scheduler .entering))) q
    by_cases hnew : q = u.nextTask
    · exact .inr hnew
    · left
      rw [if_neg hnew] at hrole
      obtain ⟨t, ht, hstops⟩ := Option.bind_eq_some_iff.mp (hrole.symm.trans hq)
      by_cases hp : p = .entering
      · exact hp
      · exact absurd ⟨_, Table.mem_of_find? ht, Task.stopping?_of_stops hstops hp⟩ hquiet
  case phase =>
    refine .begins (Table.find?_insert_self _ _ _) (hmanned.move h.regular hs hm ?_)
    exact id

/-- A process has a runner. -/
theorem History.runner_of_app {rule : World → Move → Prop} {utc : Int} {store : Store}
    {ms : List Move} {settings : Settings} (h : History rule (around utc store) ms w)
    (happ : .app name settings ∈ ms) : ∃ r, w.runners.find? name = some r := by
  obtain ⟨first, last, rfl⟩ := List.append_of_mem happ
  obtain ⟨v, -, hrest⟩ := h.split
  obtain ⟨r, hr, -⟩ := hrest.uncons.2.2.runner (Table.find?_insert_self _ _ _)
  exact ⟨r, hr⟩

end World

namespace Runner.Episode

/-- As many jobs have been counted under a verdict as have ended with it. -/
theorem countP_ended (tale : List Episode) (v : Verdict) :
    (tale.countP fun e => e.item? = some (.ended v)) =
      (tale.filterMap Episode.ended?).countP fun e => e.2 = v := by
  rw [List.countP_filterMap]
  apply List.countP_congr
  intro e _
  cases e <;> simp [item?, ended?]

/-- As many jobs have been counted as accepted as there are. -/
theorem countP_accepted (tale : List Episode) :
    (tale.countP fun e => e.item? = some .enqueued) =
      (tale.filterMap Episode.accepted?).length := by
  rw [List.length_filterMap_eq_countP]
  apply List.countP_congr
  intro e _
  cases e <;> simp [item?, accepted?]

end Runner.Episode

namespace World

variable {w u : World} {name : String}

/-- When the shutdown has returned, nobody is about to end a session, the scheduler has none, and
the runner rests. -/
theorem Retires.ended {task : TaskId} (h : w.Retires name task) (hdone : w.hasEnded task = true) :
    (∀ q p, w.role q = some (.stops name p) → p = .entering) ∧ w.session? name = none ∧
      w.Resting name := by
  obtain ⟨result, hresult⟩ := (w.hasEnded_iff _).mp hdone
  have hself : ∀ p, w.role task ≠ some (.stops name p) := by
    rw [role_of_find? hresult]
    nofun
  refine ⟨?_, ?_⟩
  · intro q p hq
    rcases h.alone q p hq with hp | rfl
    · exact hp
    · exact absurd hq (hself p)
  · cases h.phase with
    | begins ht => cases ht.symm.trans hresult
    | ends ht => cases ht.symm.trans hresult
    | drains ht => cases ht.symm.trans hresult
    | rests ht session resting => exact ⟨session, resting⟩

/-- When no job waits and nobody works, the jobs that a runner has accepted are those that have
ended, and each has been counted once. -/
theorem History.settled {utc : Int} {store : Store} {ms : List Move}
    (h : History (fun _ _ => True) (around utc store) ms w) {r : Runner}
    (hr : w.runners.find? name = some r) (hpending : r.pending = [])
    (hcrew : ∀ i, w.crew name i = none) :
    (((around utc store).tale name ms).filterMap Episode.accepted?).map Job.untried =
        (((around utc store).tale name ms).filterMap Episode.ended?).map Prod.fst ∧
      (∀ v, r.stats.get (.ended v) =
        (((around utc store).tale name ms).filterMap Episode.ended?).countP fun e => e.2 = v) ∧
      r.stats.enqueued =
        (((around utc store).tale name ms).filterMap Episode.accepted?).length ∧
      r.stats.enqueued =
        r.stats.succeeded + r.stats.failed + r.stats.dropped + r.stats.rejected := by
  have hhand : w.hand? name = none := by
    cases hh : w.hand? name with
    | none => rfl
    | some hand =>
        obtain ⟨i, k, hk, -⟩ := hand?_eq_some hh
        cases (hcrew i).symm.trans hk
  have hreckons := (h.reckons name).1 r hr
  have hqueue := hreckons.queue
  have hhands := hreckons.hands
  have hbalance := hreckons.balance
  simp only [account, hpending, hhand, Option.toList_none, List.map_nil, List.append_nil,
    List.length_nil] at hqueue hhands hbalance
  refine ⟨?_, ?_, ?_, ?_⟩
  · rw [hqueue, hhands]
  · intro v
    rw [← Episode.countP_ended]
    exact hreckons.counts (.ended v) (by rintro ⟨⟩)
  · rw [← Episode.countP_accepted]
    exact hreckons.counts .enqueued (by rintro ⟨⟩)
  · omega

/-- A process whose runner has never been stopped is shut down, while no other stop of its scheduler
is under way. If meanwhile nobody starts the scheduler, nobody hands in a job but the scheduler and
the process's own jobs, and nobody else stops the scheduler or the runner, then nothing is lost,
whatever becomes of the calls on the store: when the shutdown returns, the tasks of every session
that the scheduler has ever had have ended, the runner has no worker, no job waits, and the jobs
that were ever accepted are those that have ended, in the same order, each of which is counted in
one of four counts. -/
theorem shutdown_loses_nothing {utc : Int} {store : Store} {before after moves : List Move}
    {settings : Settings} (h₀ : History (Unstopped name) (around utc store) before u)
    (happ : .app name settings ∈ before) (hquiet : ¬ u.Stopping name)
    (h₁ : History (Undisturbed name u.nextTask) (u.move (shutdownOf name)) after w)
    (hdone : w.hasEnded u.nextTask = true)
    (hmoves : before ++ shutdownOf name :: after = moves) :
    (∀ first last s, moves = first ++ last →
      ((around utc store).after first).session? name = some s →
        w.running s.main = false ∧ w.running s.extender = false) ∧
    (∀ j loop, w.tasks.find? j = some (.mainLoop loop) → loop.scheduler ≠ name) ∧
    (∀ i, w.crew name i = none) ∧
    ∃ r, w.runners.find? name = some r ∧ r.pending = [] ∧
      (((around utc store).tale name moves).filterMap Episode.accepted?).map Job.untried =
        (((around utc store).tale name moves).filterMap Episode.ended?).map Prod.fst ∧
      (∀ v, r.stats.get (.ended v) =
        (((around utc store).tale name moves).filterMap Episode.ended?).countP fun e => e.2 = v) ∧
      r.stats.enqueued =
        (((around utc store).tale name moves).filterMap Episode.accepted?).length ∧
      r.stats.enqueued =
        r.stats.succeeded + r.stats.failed + r.stats.dropped + r.stats.rejected := by
  have h : History (fun _ _ => True) (around utc store) moves w := by
    rw [← hmoves]
    refine History.append (h₀.mono fun _ _ _ => trivial) (.cons ?_ trivial ?_)
    · exact rfl
    · exact h₁.mono fun _ _ _ => trivial
  have hin : .app name settings ∈ moves := by
    rw [← hmoves]
    exact List.mem_append_left _ happ
  have hretires : w.Retires name u.nextTask :=
    h₁.keeps ((h₀.steered happ).retires (h₀.staffed name) h₀.manned hquiet)
      fun _ _ hm hu hv => hv.move hm hu
  obtain ⟨hstops, hsession, hresting⟩ := hretires.ended hdone
  obtain ⟨r, hr⟩ := h.runner_of_app hin
  obtain ⟨hslot, hpending⟩ := hresting r hr
  have hcrew : ∀ i, w.crew name i = none := hretires.staffed.none_of_empty hr hslot
  refine ⟨?_, ?_, hcrew, r, hr, hpending, h.settled hr hpending hcrew⟩
  · rintro first last s rfl hs
    cases (h.spans hin hs).stage with
    | own hown => cases hsession.symm.trans hown
    | ending hq => cases hstops _ _ hq
    | closing hq hext => cases hstops _ _ hq
    | past hmain hext => exact ⟨hmain, hext⟩
  · rintro j loop hloop rfl
    exact hretires.steered.unled hsession hstops j loop.cancelled (role_of_find? hloop)

/-- The settings of a process whose scheduler hands in a tick every hour. -/
def desk : Settings where
  redisUrl := none
  bindAddress := ⟨.v4 0 0 0 0, 8080, 0⟩
  trustedProxies := []
  logFormat := "text"
  maxRunning := 4
  queueCapacity := 8
  jobDefaults := ⟨3, .ofSecs 1⟩
  schedulerLockTtl := .ofSecs 90
  parser := ⟨true, 60⟩
  limitAttempts := 5
  limitWindow := .ofSecs 60
  limitPolicy := .failOpen

/-- A handler that hands in another job. -/
def passesOn : Handler :=
  .scripted "first" 0 fun _ =>
    [.enqueue "a" (.mk ⟨"second", .refl false⟩ 1 (.ofSecs 0) .important fun _ => [])]

/-- A process starts as the scheduler, and a job is handed in whose handler hands in another. -/
def deskOpen : List Move :=
  [.app "a" desk, .handler passesOn, .launch (.startApp "a" .pinging), .step 0, .step 0, .step 0,
    .launch (.enqueue (.start "a" (.new ⟨"first", .refl false⟩ 1))), .step 3, .step 3, .step 3]

/-- The scheduler is about to hand in its tick when the shutdown begins, and hands it in; then it
stops. The worker carries out the first job, whose handler hands in the second, then the tick and
the second job. The drain looks again, and the shutdown returns. -/
def deskCloses : List Move :=
  [.step 1, .step 1, .step 1, .step 5, .step 1, .step 2, .step 5, .step 1, .step 4, .step 4,
    .step 4, .step 4, .step 4, .step 5, .step 5, .step 5, .step 6, .step 6, .step 6, .step 6,
    .step 6, .step 6, .step 4, .step 4, .step 4, .step 4, .step 4, .step 4, .step 4, .step 7,
    .step 4, .step 4, .step 4, .step 4, .step 4, .step 4, .step 4, .step 8, .step 8, .step 4,
    .step 4, .step 4, .step 4, .pass 100000000, .step 5, .step 5, .step 5]

/-- A process in which everything has come to its end by a shutdown. -/
def deskClosed : World :=
  (((around 0 .empty).after deskOpen).move (shutdownOf "a")).after deskCloses

/-- Three jobs were accepted, two of them after the shutdown began, and all of them have ended. -/
theorem shutdown_loses_nothing_desk :
    (deskClosed.running 1 = false ∧ deskClosed.running 2 = false) ∧
    (∀ i, deskClosed.crew "a" i = none) ∧
    ∃ r, deskClosed.runners.find? "a" = some r ∧ r.pending = [] ∧ r.stats.enqueued = 3 ∧
      r.stats.succeeded + r.stats.failed + r.stats.dropped + r.stats.rejected = 3 := by
  have hopen : History (Unstopped "a") (around 0 .empty) deskOpen _ := .of_check (by decide +kernel)
  have hcloses : History (Undisturbed "a" 5)
      (((around 0 .empty).after deskOpen).move (shutdownOf "a")) deskCloses deskClosed :=
    .of_check (by decide +kernel)
  obtain ⟨hsessions, -, hcrew, r, hr, hpending, -, -, henqueued, hbalance⟩ :=
    shutdown_loses_nothing hopen (.head _) (by decide +kernel) hcloses
      (by decide +kernel) rfl
  have hthree : r.stats.enqueued = 3 := by
    rw [henqueued]
    decide +kernel
  exact ⟨hsessions deskOpen _ ⟨1, 2⟩ rfl (by decide +kernel), hcrew, r, hr, hpending, hthree,
    hbalance.symm.trans hthree⟩

/-- A handler that takes its time. -/
def naps : Handler := .scripted "nap" 0 fun _ => [.sleep (.ofMillis 50)]

/-- A process has two jobs handed in, and its worker carries out the first. -/
def twoNaps : List Move :=
  [.app "a" desk, .handler naps,
    .launch (.enqueue (.start "a" (.new ⟨"x", .refl false⟩ 1))), .step 0, .step 0, .step 0,
    .launch (.enqueue (.start "a" (.new ⟨"y", .refl false⟩ 1))), .step 2, .step 2,
    .step 2, .step 1, .step 1, .step 1, .step 1, .step 1, .step 3, .step 3]

/-- When the shutdown waits for the drain, somebody stops the runner. The worker leaves the second
job behind. -/
def napsCutShort : List Move :=
  [.step 4, .step 4, .launch (.stop "a" .entering), .step 5, .pass 50000000, .step 3, .step 3,
    .step 1, .step 1, .step 1, .step 1, .step 5, .pass 100000000, .step 4, .step 4, .step 4]

/-- A process has started as the scheduler, and a shutdown of it is asked for. -/
def deskClosing : List Move :=
  [.app "a" desk, .launch (.startApp "a" .pinging), .step 0, .step 0, .step 0, shutdownOf "a"]

/-- A second shutdown takes all of its steps. -/
def hasty : List Move := [.step 4, .step 4, .step 4]

/-- The process with the two jobs when it has been asked to shut down. -/
def napsClosing : World := (around 0 .empty).after (twoNaps ++ [shutdownOf "a"])

/-- The process of the scheduler when it has been asked to shut down twice. -/
def deskClosingTwice : World := (around 0 .empty).after (deskClosing ++ [shutdownOf "a"])

/-- The same process, if the first shutdown has begun to stop the scheduler before the second is
asked for. -/
def deskStopping : World := (around 0 .empty).after (deskClosing ++ [.step 3, shutdownOf "a"])

/-- Nobody starts anything or hands anything in from outside, yet a shutdown may return too early
where somebody else stops something: with a job that waits and is never carried out, if it is the
runner that is stopped meanwhile; with both tasks of the scheduler alive, if it is the scheduler,
which another shutdown begins to stop meanwhile or had begun to stop before. -/
theorem shutdown_beside_stop :
    (History (Unstopped "a") (around 0 .empty) twoNaps ((around 0 .empty).after twoNaps) ∧
      History (Unfed "a") napsClosing napsCutShort (napsClosing.after napsCutShort) ∧
      (napsClosing.after napsCutShort).hasEnded 4 = true ∧
      ((napsClosing.after napsCutShort).runners.find? "a").map
        (fun r => (r.pending.length, r.slot.isSome, r.stats.enqueued, r.stats.succeeded)) =
          some (1, false, 2, 1)) ∧
    (History (Unstopped "a") (around 0 .empty) (deskClosing ++ [.step 3])
        ((around 0 .empty).after (deskClosing ++ [.step 3])) ∧
      History (Unfed "a") deskClosingTwice (.step 3 :: hasty)
        (deskClosingTwice.after (.step 3 :: hasty)) ∧
      (deskClosingTwice.after (.step 3 :: hasty)).hasEnded 4 = true ∧
      (deskClosingTwice.after (.step 3 :: hasty)).running 1 = true ∧
      (deskClosingTwice.after (.step 3 :: hasty)).running 2 = true) ∧
    History (Undisturbed "a" 4) deskStopping hasty (deskStopping.after hasty) ∧
      (deskStopping.after hasty).hasEnded 4 = true ∧
      (deskStopping.after hasty).running 1 = true ∧ (deskStopping.after hasty).running 2 = true :=
  ⟨⟨.of_check (by decide +kernel), .of_check (by decide +kernel), by decide +kernel,
      by decide +kernel⟩,
    ⟨.of_check (by decide +kernel), .of_check (by decide +kernel), by decide +kernel,
      by decide +kernel, by decide +kernel⟩,
    .of_check (by decide +kernel), by decide +kernel, by decide +kernel, by decide +kernel⟩

end World

end JobFleet
