import JobFleet.Proofs.Fleet.Gate
import JobFleet.Proofs.Fleet.Served

/-!
# Whether a stopped runner starts again

Only a job that is handed in starts a worker, and it is turned away before that if the queue is
full. So a runner without a worker starts again exactly if its slot is empty and there is room; one
that was stopped with a full queue stays as it is for ever.
-/

namespace JobFleet

open World

namespace Enqueue

variable {e : Enqueue} {w : World} {r : Runner} (id : TaskId)

/-- The first step of a hand-in looks whether there is room. -/
theorem step_waiting (hr : w.runners.find? e.runner = some r) (hp : e.phase = .waiting) :
    (e.step id w).1 = (if r.config.capacity ≤ r.pending.length then .ended .queueFull
        else .on { e with phase := .reading }) ∧
      (e.step id w).2.store = w.store ∧ (e.step id w).2.network = w.network ∧
      (e.step id w).2.now = w.now := by
  simp only [step, hr, hp]
  split
  · exact ⟨rfl, rfl, rfl, rfl⟩
  · exact ⟨rfl, rfl, rfl, rfl⟩

/-- The second step of a hand-in reads that its key is absent, if it is. -/
theorem step_reading (hr : w.runners.find? e.runner = some r) (hp : e.phase = .reading)
    (hs : w.Serves e.job.key.statusKey) (hk : w.entry e.job.key.statusKey = none) :
    (e.step id w).1 = .on { e with phase := .claiming none } ∧
      (e.step id w).2.Serves e.job.key.statusKey ∧
      (e.step id w).2.entry e.job.key.statusKey = none := by
  have hread : (Call.get e.job.key.statusKey).effect w.now (w.entry e.job.key.statusKey) =
      .ok (none, none) := by
    rw [hk]
    rfl
  obtain ⟨hanswer, hafter⟩ := hs.answers _ rfl hread
  have hserves := hs.perform (.get e.job.key.statusKey)
  cases ha : w.perform (.get e.job.key.statusKey) with
  | mk x u =>
      rw [ha] at hanswer hafter hserves
      cases hanswer
      simp only [step, hr, hp, ha, judge]
      exact ⟨trivial, hserves, hafter⟩

/-- The third step of a hand-in claims its key, if it is absent. -/
theorem step_claiming (hr : w.runners.find? e.runner = some r) (hp : e.phase = .claiming none)
    (hs : w.Serves e.job.key.statusKey) (hk : w.entry e.job.key.statusKey = none) :
    (e.step id w).1 = .ended .enqueued := by
  have hclaim : (e.claim r.config.queuedTtl none).effect w.now (w.entry e.job.key.statusKey) =
      .ok (true, some ⟨JobStatus.queued.text, expiryOf w.now (some r.config.queuedTtl)⟩) := by
    rw [hk]
    rfl
  obtain ⟨hanswer, -⟩ := hs.answers _ rfl hclaim
  cases ha : w.perform (e.claim r.config.queuedTtl none) with
  | mk x u =>
      rw [ha] at hanswer
      cases hanswer
      simp only [step, hr, hp, ha, accept]

end Enqueue

/-- A job is handed in by a task that nothing comes between. -/
def handIn (name : String) (job : Job) (id : TaskId) : List Move :=
  [.launch (.enqueue (.start name job)), .step id, .step id, .step id]

namespace World

variable {w v : World} {name k : String} {r r' : Runner} {m : Move}

/-- A step of a job that is being handed in as an operation of its own. -/
theorem move_enqueue {e : Enqueue} {id : TaskId}
    (ht : w.tasks.find? id = some (.operation (.enqueue e))) (he : e.ready w = true) :
    w.Admits (.step id) ∧ w.move (.step id) = (e.step id w).2.put id
      (some (match (e.step id w).1 with
        | .on e => .operation (.enqueue e)
        | .ended outcome => .ended (.enqueued outcome))) := by
  have hready : (Task.operation (.enqueue e)).ready w id = true := he
  have hm : w.Admits (.step id) := by
    simp [Admits, enabled, ht, hready]
  refine ⟨hm, ?_⟩
  obtain ⟨t, ht', -, hmove⟩ := move_step hm
  cases ht.symm.trans ht'
  rw [hmove]
  simp only [Task.act, Operation.step]
  cases (e.step id w).1 <;> rfl

/-- A task that has ended takes no step. -/
theorem move_ended {id : TaskId} {x : Result} (ht : w.tasks.find? id = some (.ended x)) :
    w.move (.step id) = w := by
  simp [move, step?, ht, Task.ready]

/-- The same store behind the same network serves a key alike. -/
theorem Serves.of_eq (h : w.Serves k) (hs : v.store = w.store) (hn : v.network = w.network) :
    v.Serves k where
  available := by rw [hs, h.available]
  network := by
    rw [hn]
    exact h.network

/-- A job is being handed in to a runner that nobody works for. -/
structure Lull (name : String) (job : Job) (id : TaskId) (phase : Enqueue.Phase) (r : Runner)
    (w : World) : Prop where
  regular : w.Regular
  task : w.tasks.find? id = some (.operation (.enqueue ⟨name, job, phase⟩))
  runner : w.runners.find? name = some r
  nobody : ∀ i, w.crew name i = none
  serves : w.Serves job.key.statusKey
  absent : w.entry job.key.statusKey = none

variable {job : Job} {id : TaskId} {phase : Enqueue.Phase}

/-- A step of the hand-in leaves nobody working for the runner, unless it starts a worker. -/
theorem Leaves.nobody (h : w.Leaves name v r none) (hn : ∀ i, w.crew name i = none) (i : TaskId) :
    v.crew name i = none := by
  rw [h.crew, hn]
  split <;> rfl

/-- A step by which the hand-in goes on. -/
theorem Lull.goesOn (h : w.Lull name job id phase r) {next : Enqueue.Phase}
    (he : (Enqueue.mk name job phase).ready w = true)
    (hstep : ((Enqueue.mk name job phase).step id w).1 = .on ⟨name, job, next⟩)
    (hserves : ((Enqueue.mk name job phase).step id w).2.Serves job.key.statusKey)
    (habsent : ((Enqueue.mk name job phase).step id w).2.entry job.key.statusKey = none) :
    ∃ r', (Enqueue.mk name job phase).RunnerStep id w.nextTask r (.on ⟨name, job, next⟩) r' none ∧
      (w.move (.step id)).Lull name job id next r' := by
  obtain ⟨hm, hmove⟩ := move_enqueue h.task he
  obtain ⟨r', hired, made, -, leaves⟩ := h.regular.hands h.runner hm h.task rfl rfl
  rw [hstep] at made
  have hnone : hired = none := by cases made <;> rfl
  subst hnone
  refine ⟨r', made, h.regular.move hm, ?_, leaves.runner, leaves.nobody h.nobody, ?_, ?_⟩
  · rw [hmove, put_find?, if_pos rfl, hstep]
  · rw [hmove]
    exact hserves.of_eq rfl (put_network _ _ _)
  · rw [hmove, put_entry, habsent]

/-- A hand-in that finds room passes the gate. -/
theorem Lull.enters (h : w.Lull name job id .waiting r) (hg : r.gate = none)
    (hroom : r.pending.length < r.config.capacity) :
    (w.move (.step id)).Lull name job id .reading { r with gate := some id } := by
  have hready : (Enqueue.mk name job .waiting).ready w = true := by
    simp [Enqueue.ready, h.runner, hg]
  obtain ⟨hstep, hstore, hnetwork, hnow⟩ := Enqueue.step_waiting (e := ⟨name, job, .waiting⟩)
    id h.runner rfl
  rw [if_neg (Nat.not_le_of_lt hroom)] at hstep
  have habsent : ((Enqueue.mk name job .waiting).step id w).2.entry job.key.statusKey = none := by
    rw [entry, hstore, hnow]
    exact h.absent
  obtain ⟨r', made, hlull⟩ := h.goesOn hready hstep (h.serves.of_eq hstore hnetwork) habsent
  cases made with
  | enters => exact hlull

/-- A hand-in that finds no room ends, and nobody has been started. -/
theorem Lull.overflows (h : w.Lull name job id .waiting r) (hg : r.gate = none)
    (hfull : r.config.capacity ≤ r.pending.length) :
    (w.move (.step id)).tasks.find? id = some (.ended (.enqueued .queueFull)) ∧
      ∀ i, (w.move (.step id)).crew name i = none := by
  have hready : (Enqueue.mk name job .waiting).ready w = true := by
    simp [Enqueue.ready, h.runner, hg]
  obtain ⟨hstep, -⟩ := Enqueue.step_waiting (e := ⟨name, job, .waiting⟩) id h.runner rfl
  rw [if_pos hfull] at hstep
  obtain ⟨hm, hmove⟩ := move_enqueue h.task hready
  obtain ⟨r', hired, made, -, leaves⟩ := h.regular.hands h.runner hm h.task rfl rfl
  rw [hstep] at made
  cases made with
  | overflows =>
      refine ⟨?_, leaves.nobody h.nobody⟩
      rw [hmove, put_find?, if_pos rfl, hstep]

/-- A hand-in that has passed the gate reads that its key is absent. -/
theorem Lull.reads (h : w.Lull name job id .reading r) :
    (w.move (.step id)).Lull name job id (.claiming none) r := by
  obtain ⟨hstep, hserves, habsent⟩ := Enqueue.step_reading (e := ⟨name, job, .reading⟩) id h.runner
    rfl h.serves h.absent
  obtain ⟨r', made, hlull⟩ := h.goesOn rfl hstep hserves habsent
  cases made with
  | reads => exact hlull

/-- A hand-in that claims its key is taken in, and starts a worker if the slot is empty. -/
theorem Lull.claims (h : w.Lull name job id (.claiming none) r) :
    (w.move (.step id)).tasks.find? id = some (.ended (.enqueued .enqueued)) ∧
      ((∃ i k, (w.move (.step id)).crew name i = some k ∧ k.cancelled = false) ↔
        r.slot = none) := by
  have hstep := Enqueue.step_claiming (e := ⟨name, job, .claiming none⟩) id h.runner rfl h.serves
    h.absent
  obtain ⟨hm, hmove⟩ := move_enqueue h.task rfl
  obtain ⟨r', hired, made, -, leaves⟩ := h.regular.hands h.runner hm h.task rfl rfl
  refine ⟨by rw [hmove, put_find?, if_pos rfl, hstep], ?_⟩
  rw [hstep] at made
  cases made with
  | joins hp hs =>
      constructor
      · rintro ⟨i, k, hk, -⟩
        rw [leaves.nobody h.nobody i] at hk
        cases hk
      · intro hn
        cases hs.symm.trans hn
  | hires hp hs =>
      have hhired := leaves.crew w.nextTask
      rw [if_pos rfl] at hhired
      exact ⟨fun _ => hs, fun _ => ⟨w.nextTask, _, hhired, rfl⟩⟩

/-- A job begins to be handed in. -/
theorem Lull.launch (hw : w.Regular) (hr : w.runners.find? name = some r)
    (hn : ∀ i, w.crew name i = none) (hs : w.Serves job.key.statusKey)
    (hk : w.entry job.key.statusKey = none) :
    (w.move (.launch (.enqueue (.start name job)))).Lull name job w.nextTask .waiting r := by
  have hm : w.Admits (.launch (.enqueue (.start name job))) := rfl
  have hapart := hw.apart_of_quiet hr hm nofun
  refine ⟨hw.move hm, ?_, hapart.runner.trans hr, fun i => (hapart.crew i).trans (hn i),
    hs.of_eq rfl rfl, hk⟩
  exact Table.find?_insert_self _ _ _

/-- A job that is handed in while there is room is taken in, and a worker is started for it exactly
if the slot is empty. -/
theorem Regular.handIn_taken (hw : w.Regular) (hr : w.runners.find? name = some r)
    (hn : ∀ i, w.crew name i = none) (hg : r.gate = none) (hs : w.Serves job.key.statusKey)
    (hk : w.entry job.key.statusKey = none) (hroom : r.pending.length < r.config.capacity) :
    (w.after (handIn name job w.nextTask)).tasks.find? w.nextTask =
        some (.ended (.enqueued .enqueued)) ∧
      ((∃ i k, (w.after (handIn name job w.nextTask)).crew name i = some k ∧
        k.cancelled = false) ↔ r.slot = none) := by
  simp only [handIn, after_cons, after_nil]
  exact ((Lull.launch hw hr hn hs hk).enters hg hroom).reads.claims

/-- A job that is handed in while the queue is full is turned away, and nobody is started. -/
theorem Regular.handIn_refused (hw : w.Regular) (hr : w.runners.find? name = some r)
    (hn : ∀ i, w.crew name i = none) (hg : r.gate = none) (hs : w.Serves job.key.statusKey)
    (hk : w.entry job.key.statusKey = none) (hfull : r.config.capacity ≤ r.pending.length) :
    (w.after (handIn name job w.nextTask)).tasks.find? w.nextTask =
        some (.ended (.enqueued .queueFull)) ∧
      ∀ i, (w.after (handIn name job w.nextTask)).crew name i = none := by
  obtain ⟨hended, hnobody⟩ := (Lull.launch hw hr hn hs hk).overflows hg hfull
  simp only [handIn, after_cons, after_nil]
  rw [move_ended hended, move_ended hended]
  exact ⟨hended, hnobody⟩

/-! ## A queue that stays full -/

/-- A runner whose slot is empty and whose queue is full. -/
def Wedged (name : String) (jobs : List Job) (w : World) : Prop :=
  ∃ r, w.runners.find? name = some r ∧ r.slot = none ∧ r.pending = jobs ∧
    r.config.capacity ≤ jobs.length

/-- Whoever hands in a job to a runner whose queue is full and whose slot is empty is turned
away. -/
theorem Wedged.refuses {jobs : List Job} (h : w.Wedged name jobs) (hg : w.Gated name) {t : Task}
    {e : Enqueue} (ht : w.tasks.find? id = some t) (hin : t.hands? = some e)
    (hn : e.runner = name) :
    (e.step id w).1 = .ended .queueFull := by
  obtain ⟨r, hr, -, rfl, hfull⟩ := h
  subst hn
  by_cases hp : e.phase = .waiting
  · obtain ⟨hstep, -⟩ := Enqueue.step_waiting id hr hp
    rw [hstep, if_pos hfull]
  · obtain ⟨r', hr', -, hroom⟩ := hg id t e ht (Task.hands?_handIn hin) rfl hp
    cases hr.symm.trans hr'
    omega

/-- No move gets a runner going again whose queue is full and whose slot is empty. -/
theorem Wedged.move {jobs : List Job} (h : w.Wedged name jobs) (hw : w.Regular)
    (hs : w.Staffed name) (hg : w.Gated name) (hm : w.Admits m) :
    (w.move m).Wedged name jobs := by
  obtain ⟨r, hr, hslot, hq, hfull⟩ := id h
  cases hw.runnerMove hr hm with
  | passes apart shuns => exact ⟨r, apart.runner.trans hr, hslot, hq, hfull⟩
  | handsIn he ht hin hn step made left leaves =>
      refine ⟨_, leaves.runner, ?_⟩
      rw [h.refuses hg ht hin hn] at step
      subst step
      cases made with
      | overflows => exact ⟨hslot, hq, hfull⟩
  | givesUp he ht hin hands hn left leaves =>
      refine ⟨_, leaves.runner, ?_⟩
      split <;> exact ⟨hslot, hq, hfull⟩
  | works he hk tells made runner crew =>
      rw [hs.none_of_empty hr hslot] at hk
      cases hk
  | stops he ht hp made left runner crew =>
      refine ⟨_, runner, ?_⟩
      cases made with
      | clears =>
          rw [Runner.vacates_pending, Runner.vacates_config]
          exact ⟨by simp [Runner.vacates, hslot], hq, hfull⟩
      | follows hs' => cases hslot.symm.trans hs'
      | halts hs' => cases hslot.symm.trans hs'
      | _ => exact ⟨hslot, hq, hfull⟩

/-- A job that nothing comes between is handed in to a runner without a worker, while the store
answers and the key of the job is absent. It starts a worker exactly if the runner's slot is empty
and there is room in the queue. If the slot is empty and the queue is full, no move whatever gets
the runner going again: the queue stays as it is, nobody works for the runner, and whoever hands in
a job is turned away. -/
theorem restarts_iff {rule : World → Move → Prop} {utc : Int} {s : Store} {ms : List Move}
    (h : History rule (around utc s) ms w) (hr : w.runners.find? name = some r)
    (hn : ∀ i, w.crew name i = none) :
    (∀ job : Job, r.gate = none → w.Serves job.key.statusKey →
        w.entry job.key.statusKey = none →
        (w.after (handIn name job w.nextTask)).tasks.find? w.nextTask = some (.ended (.enqueued
          (if r.pending.length < r.config.capacity then .enqueued else .queueFull))) ∧
        ((∃ i k, (w.after (handIn name job w.nextTask)).crew name i = some k ∧
            k.cancelled = false) ↔
          r.slot = none ∧ r.pending.length < r.config.capacity)) ∧
      (r.slot = none → r.config.capacity ≤ r.pending.length →
        ∀ rule' ms' v, History rule' w ms' v →
          (∃ r', v.runners.find? name = some r' ∧ r'.slot = none ∧ r'.pending = r.pending) ∧
            (∀ i, v.crew name i = none) ∧
            ∀ id t e, v.tasks.find? id = some t → t.hands? = some e → e.runner = name →
              (e.step id v).1 = .ended .queueFull) := by
  have hw := h.regular
  constructor
  · intro job hg hs hk
    by_cases hroom : r.pending.length < r.config.capacity
    · obtain ⟨hended, hiff⟩ := hw.handIn_taken hr hn hg hs hk hroom
      rw [if_pos hroom]
      refine ⟨hended, hiff.trans ?_⟩
      exact ⟨fun hslot => ⟨hslot, hroom⟩, And.left⟩
    · have hfull := Nat.le_of_not_lt hroom
      obtain ⟨hended, hnobody⟩ := hw.handIn_refused hr hn hg hs hk hfull
      rw [if_neg hroom]
      refine ⟨hended, ?_⟩
      constructor
      · rintro ⟨i, k, hk, -⟩
        rw [hnobody i] at hk
        cases hk
      · exact fun hroom' => absurd hroom'.2 hroom
  · intro hslot hfull rule' ms' v hv
    have hall : v.Regular ∧ v.Staffed name ∧ v.Gated name ∧ v.Wedged name r.pending := by
      refine hv.keeps (P := fun u => u.Regular ∧ u.Staffed name ∧ u.Gated name ∧
        u.Wedged name r.pending) ⟨hw, h.staffed name, h.gated name, r, hr, hslot, rfl, hfull⟩ ?_
      rintro u m hm - ⟨hu, hs, hg, hwedged⟩
      exact ⟨hu.move hm, hs.move hu hm, hg.move hu hm, hwedged.move hu hs hg hm⟩
    obtain ⟨-, hs, hg, hwedged⟩ := hall
    obtain ⟨r', hr', hslot', hq', -⟩ := id hwedged
    refine ⟨⟨r', hr', hslot', hq'⟩, fun i => hs.none_of_empty hr' hslot' i, ?_⟩
    intro id t e ht hin hn
    exact hwedged.refuses hg ht hin hn

/-- A runner whose queue holds one job. -/
def narrow : Runner.Config := { Runner.Config.usual with capacity := 1 }

/-- Three jobs. -/
def first : Job := .new ⟨"first", by decide⟩ 0

@[inherit_doc first]
def second : Job := .new ⟨"second", by decide⟩ 0

@[inherit_doc first]
def third : Job := .new ⟨"third", by decide⟩ 0

/-- A runner is set up whose queue holds one job. -/
def setUp : List Move := [.runner "a" narrow]

/-- The worker of a runner is at its first job, and a second one waits, when the runner is
stopped. -/
def stopFull : List Move :=
  setUp ++ handIn "a" first 0 ++ [.step 1, .step 1] ++ handIn "a" second 2 ++
    [.launch (.stop "a" .entering), .step 3, .step 1, .step 1, .step 1, .step 4, .step 1, .step 1,
      .step 1, .step 1, .step 3]

/-- The stop has returned, nobody works for the runner, the store answers and the third job's key is
absent; but the job is turned away, and nobody is there to carry out the second one. -/
theorem restart_refused :
    History (fun _ _ => True) (around 0 .empty) stopFull ((around 0 .empty).after stopFull) ∧
      (((around 0 .empty).after stopFull).runners.find? "a").map
        (fun r => (r.slot, r.gate, r.config.capacity, r.pending)) =
          some (none, none, 1, [second]) ∧
      ((around 0 .empty).after stopFull).Serves third.key.statusKey ∧
      ((around 0 .empty).after stopFull).entry third.key.statusKey = none ∧
      ((around 0 .empty).after (stopFull ++ handIn "a" third 5)).tasks.find? 5 =
        some (.ended (.enqueued .queueFull)) ∧
      ∀ i, ((around 0 .empty).after (stopFull ++ handIn "a" third 5)).crew "a" i = none := by
  have h : History (fun _ _ => True) (around 0 .empty) stopFull _ := .of_check (by decide +kernel)
  have hr : (((around 0 .empty).after stopFull).runners.find? "a").map
      (fun r => (r.slot, r.gate, r.config.capacity, r.pending)) =
        some (none, none, 1, [second]) := by decide +kernel
  have hserves : ((around 0 .empty).after stopFull).Serves third.key.statusKey :=
    serves_of_undisturbed (by decide +kernel) (by decide +kernel)
  have habsent : ((around 0 .empty).after stopFull).entry third.key.statusKey = none := by
    decide +kernel
  have hid : ((around 0 .empty).after stopFull).nextTask = 5 := by decide +kernel
  obtain ⟨r, hr', he⟩ := Option.map_eq_some_iff.mp hr
  obtain ⟨hslot, hgate, hcapacity, hpending⟩ : r.slot = none ∧ r.gate = none ∧
      r.config.capacity = 1 ∧ r.pending = [second] := by simpa using he
  have hfull : r.config.capacity ≤ r.pending.length := by simp [hcapacity, hpending]
  have hrefused := h.regular.handIn_refused hr' (fun i => (h.staffed "a").none_of_empty hr' hslot i)
    hgate hserves habsent hfull
  rw [hid] at hrefused
  rw [after_append]
  exact ⟨h, hr, hserves, habsent, hrefused⟩

/-- The runner starts when the first job is handed in. Once it has been stopped with a full queue,
nobody ever works for it again. -/
theorem restarts_iff_stopFull :
    (∃ i k, ((around 0 .empty).after (setUp ++ handIn "a" first 0)).crew "a" i = some k ∧
      k.cancelled = false) ∧
      ∀ rule ms v, History rule ((around 0 .empty).after stopFull) ms v →
        ∀ i, v.crew "a" i = none := by
  constructor
  · have h : History (fun _ _ => True) (around 0 .empty) setUp _ := .of_check (by decide +kernel)
    have hr : (((around 0 .empty).after setUp).runners.find? "a").map
        (fun r => (r.slot, r.gate, r.config.capacity, r.pending)) = some (none, none, 1, []) := by
      decide +kernel
    have hserves : ((around 0 .empty).after setUp).Serves first.key.statusKey :=
      serves_of_undisturbed (by decide +kernel) (by decide +kernel)
    obtain ⟨r, hr, he⟩ := Option.map_eq_some_iff.mp hr
    obtain ⟨hslot, hgate, hcapacity, hpending⟩ : r.slot = none ∧ r.gate = none ∧
        r.config.capacity = 1 ∧ r.pending = [] := by simpa using he
    have hnobody := fun i => (h.staffed "a").none_of_empty hr hslot i
    have hstarts := ((restarts_iff h hr hnobody).1 first hgate hserves (by decide +kernel)).2
    rw [show ((around 0 .empty).after setUp).nextTask = 0 from rfl] at hstarts
    rw [after_append]
    exact hstarts.mpr ⟨hslot, by simp [hcapacity, hpending]⟩
  · have h : History (fun _ _ => True) (around 0 .empty) stopFull _ := .of_check (by decide +kernel)
    have hr : (((around 0 .empty).after stopFull).runners.find? "a").map
        (fun r => (r.slot, r.config.capacity, r.pending)) = some (none, 1, [second]) := by
      decide +kernel
    obtain ⟨r, hr, he⟩ := Option.map_eq_some_iff.mp hr
    obtain ⟨hslot, hcapacity, hpending⟩ : r.slot = none ∧ r.config.capacity = 1 ∧
        r.pending = [second] := by simpa using he
    have hnobody := fun i => (h.staffed "a").none_of_empty hr hslot i
    intro rule ms v hv
    have hfull : r.config.capacity ≤ r.pending.length := by simp [hcapacity, hpending]
    exact ((restarts_iff h hr hnobody).2 hslot hfull rule ms v hv).2.1

end World

end JobFleet
