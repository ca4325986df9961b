import JobFleet.Proofs.Fleet.Staff
import JobFleet.Proofs.Runner.Account

/-!
# No job is lost

The tale of a runner is what happens to its jobs, move by move. Whatever else goes on in the fleet,
the tale is that of a first-in, first-out line with one server: every job accepted waits in the
queue, is in the hands of the one worker, or has ended and is counted once.
-/

namespace JobFleet

open Runner (Account Episode Hand Item)

/-- The job that a worker has in hand. -/
def Worker.hand? (k : Worker) : Option Hand := k.phase.hand?

/-- What happens to a job of a runner in the next step of a task: a worker of the runner works on
it, or it is accepted. -/
def Task.episode? (name : String) (id : TaskId) (w : World) (t : Task) : Option Episode :=
  match t.crew? name, t.hands? with
  | some k, _ => k.episode? w
  | none, some e =>
      match (e.step id w).1 with
      | .ended .enqueued => if e.runner = name then some (.accepted e.job) else none
      | _ => none
  | none, none => none

/-- Nothing happens to a runner's jobs in the step of a task that has nothing to do with it. -/
theorem Task.Shuns.episode? {t : Task} {name : String} {id : TaskId} {w : World}
    (h : t.Shuns name) : t.episode? name id w = none := by
  unfold Task.episode?
  rw [h.crew]
  cases hin : t.hands? with
  | none => rfl
  | some e =>
      have hne := h.handIn e (hands?_handIn hin)
      simp only [if_neg hne]
      split <;> rfl

namespace World

variable {w v : World} {name : String} {r r' : Runner} {m : Move}

/-- What happens to a runner's jobs in a move. -/
def episode? (name : String) (w : World) : Move → Option Episode
  | .step id => (w.tasks.find? id).bind (Task.episode? name id w)
  | _ => none

/-- What happens to a runner's jobs in moves one after another. -/
def tale (name : String) (w : World) : List Move → List Episode
  | [] => []
  | m :: ms => (w.episode? name m).toList ++ tale name (w.move m) ms

/-- The tale goes on one move at a time. -/
theorem tale_snoc (name : String) (w : World) (ms : List Move) (m : Move) :
    w.tale name (ms ++ [m]) = w.tale name ms ++ ((w.after ms).episode? name m).toList := by
  induction ms generalizing w with
  | nil => simp [tale]
  | cons m' ms ih => simp [tale, ih, List.append_assoc]

/-- The job that the worker in a runner's slot has in hand. -/
def hand? (w : World) (name : String) : Option Hand :=
  (((w.runners.find? name).bind Runner.slot).bind fun s => w.crew name s.task).bind Worker.hand?

/-- The account of a runner. -/
def account (w : World) (name : String) (r : Runner) : Account := ⟨r.pending, w.hand? name, r.stats⟩

/-- The job in hand is that of the runner's worker. -/
theorem Staffed.hand?_of_crew (h : w.Staffed name) {i : TaskId} {k : Worker}
    (hk : w.crew name i = some k) : w.hand? name = k.hand? := by
  obtain ⟨r, s, hr, hs, rfl, -⟩ := h.seat i k hk
  simp [hand?, hr, hs, hk]

/-- A job in hand is in the hands of a worker. -/
theorem hand?_eq_some {h : Hand} (hh : w.hand? name = some h) :
    ∃ i k, w.crew name i = some k ∧ k.hand? = some h := by
  obtain ⟨k, hk, hh⟩ := Option.bind_eq_some_iff.mp hh
  obtain ⟨s, -, hk⟩ := Option.bind_eq_some_iff.mp hk
  exact ⟨s.task, k, hk, hh⟩

/-- A job in one worker's hands is in the other's, if the workers have the same jobs in hand. -/
theorem Staffed.hand?_mono (hw : w.Staffed name)
    (h : ∀ i, (v.crew name i).bind Worker.hand? = (w.crew name i).bind Worker.hand?) {hand : Hand}
    (hh : v.hand? name = some hand) : w.hand? name = some hand := by
  obtain ⟨i, k, hk, hk'⟩ := hand?_eq_some hh
  have hi := h i
  rw [hk, Option.bind_some, hk'] at hi
  obtain ⟨k₀, hk₀, hh₀⟩ := Option.bind_eq_some_iff.mp hi.symm
  rw [hw.hand?_of_crew hk₀, hh₀]

/-- The job in hand stays the same if every worker's does. -/
theorem Staffed.hand?_eq (hw : w.Staffed name) (hv : v.Staffed name)
    (h : ∀ i, (v.crew name i).bind Worker.hand? = (w.crew name i).bind Worker.hand?) :
    v.hand? name = w.hand? name := by
  apply Option.ext
  intro hand
  exact ⟨hw.hand?_mono h, hv.hand?_mono fun i => (h i).symm⟩

/-- A hand-in leaves the job in hand alone. -/
theorem Staffed.hand?_leaves (hw : w.Staffed name) (hv : v.Staffed name) (hf : w.Fresh)
    {hired : Option Worker} (h : w.Leaves name v r hired) (hh : hired.bind Worker.hand? = none) :
    v.hand? name = w.hand? name := by
  refine hw.hand?_eq hv ?_
  intro i
  rw [h.crew]
  by_cases hi : i = w.nextTask
  · rw [if_pos hi, hh, crew_of_none (hf i (Nat.le_of_eq hi.symm))]
    rfl
  · rw [if_neg hi]

/-- A stop leaves the job in hand alone. -/
theorem Staffed.hand?_cancels (hw : w.Staffed name) (hv : v.Staffed name)
    {cancelled : Option TaskId} (h : StopPhase.Cancels name w v cancelled) :
    v.hand? name = w.hand? name := by
  refine hw.hand?_eq hv ?_
  intro i
  rw [h i]
  split
  · cases w.crew name i <;> rfl
  · rfl

/-- What happens to a runner's jobs in a step of a hand-in is what is told of its job. -/
theorem episode?_of_handIn {id : TaskId} {t : Task} {e : Enqueue} (ht : w.tasks.find? id = some t)
    (hin : t.hands? = some e) (hn : e.runner = name) :
    w.episode? name (.step id) = e.tells (e.step id w).1 := by
  simp only [episode?, ht, Option.bind_some, Task.episode?,
    Task.crew?_of_handIn (Task.hands?_handIn hin), hin, if_pos hn]
  cases (e.step id w).1 with
  | on e' => rfl
  | ended outcome => cases outcome <;> rfl

/-- Nothing happens to a runner's jobs in the step of a task that is no worker of the runner and
hands nothing in. -/
theorem episode?_of_none {id : TaskId} {t : Task} (ht : w.tasks.find? id = some t)
    (hc : t.crew? name = none) (hin : t.hands? = none) : w.episode? name (.step id) = none := by
  simp only [episode?, ht, Option.bind_some, Task.episode?, hc, hin]

/-- What happens to a runner's jobs in a step of one of its workers. -/
theorem episode?_of_crew {id : TaskId} {k : Worker} (hk : w.crew name id = some k) :
    w.episode? name (.step id) = k.episode? w := by
  have ht := (crew_eq_some.mp hk).1
  simp only [episode?, ht, Option.bind_some, Task.episode?, (crew_of_find? ht).symm.trans hk]

/-- While a runner's worker takes no step, jobs are accepted at most. -/
theorem Staffed.episode?_other (h : w.Staffed name) {i : TaskId} {k : Worker}
    (hk : w.crew name i = some k) (hstep : m ≠ .step i) :
    w.episode? name m = none ∨ ∃ job, w.episode? name m = some (.accepted job) := by
  cases m with
  | step id =>
      cases ht : w.tasks.find? id with
      | none => exact .inl (by simp only [episode?, ht, Option.bind_none])
      | some t =>
          cases hc : t.crew? name with
          | some k' =>
              cases h.unique ((crew_of_find? ht).trans hc) hk
              exact absurd rfl hstep
          | none =>
              simp only [episode?, ht, Option.bind_some, Task.episode?, hc]
              cases t.hands? with
              | none => exact .inl rfl
              | some e =>
                  simp only
                  split
                  · split
                    · exact .inr ⟨_, rfl⟩
                    · exact .inl rfl
                  · exact .inl rfl
  | _ => exact .inl rfl

/-- Every move enters what happens in it into the account of a runner. -/
theorem Regular.posts (h : w.Regular) (hs : w.Staffed name) (hm : w.Admits m)
    (hr : w.runners.find? name = some r) (hr' : (w.move m).runners.find? name = some r') :
    (w.account name r).Posts (w.episode? name m) ((w.move m).account name r') := by
  have hs' := hs.move h hm
  cases h.runnerMove hr hm with
  | passes apart shuns =>
      rw [apart.runner, hr] at hr'
      cases hr'
      have hhand : (w.move m).hand? name = w.hand? name :=
        hs.hand?_eq hs' fun i => by rw [apart.crew]
      have hepisode : w.episode? name m = none := by
        cases m with
        | step id =>
            obtain ⟨t, ht, -⟩ := move_step hm
            simp only [episode?, ht, Option.bind_some]
            exact (shuns id t rfl ht).episode?
        | _ => rfl
      rw [hepisode, account, account, hhand]
      exact .rests
  | @handsIn id t e next _ hired he ht hin hn step made left leaves =>
      cases leaves.runner.symm.trans hr'
      subst he
      have hhand : (w.move (.step id)).hand? name = w.hand? name := by
        refine hs.hand?_leaves hs' h.sound.fresh leaves ?_
        cases made <;> rfl
      rw [episode?_of_handIn ht hin hn, step, account, account, hhand]
      exact made.posts _
  | givesUp he ht hin hands hn left leaves =>
      cases leaves.runner.symm.trans hr'
      subst he
      have hhand := hs.hand?_leaves hs' h.sound.fresh leaves rfl
      rw [episode?_of_none ht (Task.crew?_of_handIn hin) hands, account, account, hhand]
      split <;> exact .rests
  | @works id k episode left _ he hk tells made runner crew =>
      cases runner.symm.trans hr'
      subst he
      rw [episode?_of_crew hk, tells]
      refine made.posts (hs.hand?_of_crew hk) ?_ ?_
      · rintro k' rfl
        exact hs'.hand?_of_crew ((crew id).trans (if_pos rfl))
      · rintro rfl hp
        refine hs.hand?_eq hs' ?_
        intro i
        rw [crew i]
        by_cases hi : i = id
        · rw [if_pos hi, hi, hk, Option.bind_some, Worker.hand?, hp]
          rfl
        · rw [if_neg hi]
  | @stops id t p next _ cancelled he ht hp made left runner crew =>
      cases runner.symm.trans hr'
      subst he
      obtain ⟨hcrew, hin⟩ := Task.idle_of_stops hp
      rw [episode?_of_none ht hcrew hin, account, account, hs.hand?_cancels hs' crew]
      exact made.posts _

/-- Nothing happens to the jobs of a runner that is not there. -/
theorem Sound.episode?_of_missing (h : w.Sound) (hr : w.runners.find? name = none) :
    w.episode? name m = none := by
  cases m with
  | step id =>
      cases ht : w.tasks.find? id with
      | none => simp only [episode?, ht, Option.bind_none]
      | some t =>
          cases hc : t.crew? name with
          | some k =>
              obtain ⟨rfl, rfl⟩ := Task.crew?_eq_some.mp hc
              obtain ⟨r, hr'⟩ := h.employed id _ _ ht rfl
              rw [hr] at hr'
              cases hr'
          | none =>
              cases hin : t.hands? with
              | none => exact episode?_of_none ht hc hin
              | some e =>
                  by_cases hn : e.runner = name
                  · subst hn
                    have hstep : (e.step id w).1 = .ended .unavailable := by
                      simp only [Enqueue.step, hr]
                    rw [episode?_of_handIn ht hin rfl, hstep]
                    rfl
                  · simp only [episode?, ht, Option.bind_some, Task.episode?, hc, hin, if_neg hn]
                    split <;> rfl
  | _ => rfl

/-- The account of every runner agrees with its tale. -/
theorem History.reckons {rule : World → Move → Prop} {utc : Int} {s : Store} {ms : List Move}
    (h : History rule (around utc s) ms w) (name : String) :
    (∀ r, w.runners.find? name = some r →
      (w.account name r).Reckons ((around utc s).tale name ms)) ∧
      (w.runners.find? name = none → (around utc s).tale name ms = []) := by
  induction h with
  | nil =>
      refine ⟨?_, fun _ => rfl⟩
      intro r hr
      cases hr
  | @snoc ms w m h hm _ ih =>
      have hw := h.regular
      have hs := h.staffed name
      rw [tale_snoc, h.after_eq]
      cases hr : w.runners.find? name with
      | none =>
          rw [hw.sound.episode?_of_missing hr, ih.2 hr]
          refine ⟨?_, fun _ => rfl⟩
          intro r' hr'
          obtain ⟨config, worker, rfl⟩ := (hw.sound.founds hm hr).2 r' hr'
          have hhand : (w.move m).hand? name = none := by
            simp [hand?, hr', Runner.new]
          rw [account, hhand]
          exact Account.reckons_nil
      | some r =>
          obtain ⟨r', hr', -⟩ := move_runner hm hr
          refine ⟨?_, ?_⟩
          · intro r'' hr''
            exact (ih.1 r hr).post (hw.posts hs hm hr hr'')
          · intro hn
            rw [hr'] at hn
            cases hn

end World

end JobFleet
