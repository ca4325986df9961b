import JobFleet.Proofs.Fleet.WorldDeeds

/-!
# The turns of a worker

Every step of a worker is one of a few turns: it makes no call, or one call whose answer decides
what the worker does next. A turn says which phase it starts in, what must hold for it, what the
worker becomes, and what the world is afterwards; what only the runner's own books notice is
left open.
-/

namespace JobFleet

/-- The state that a machine goes on from, if it goes on. -/
def Progress.state? {σ α : Type} : Progress σ α → Option σ
  | .on s => some s
  | .ended _ => none

/-- A deed that only the books of a worker's runner notice: what it tells and what it counts. -/
inductive Worker.Books (k : Worker) : Deed → Prop
  | record {r : Record} {hc : r.call? = none} (h : r.Plain) : Books k (.record r hc)
  | count {f : Runner.Stats → Runner.Stats} :
      Books k (.runner k.runner fun r => { r with stats := f r.stats })

namespace Worker

/-- What a worker does keeps the books. -/
theorem Books.keeps {k : Worker} {d : Deed} (h : k.Books d) : d.Keeps := by
  cases h with
  | record h => exact .record h
  | count => exact .runner fun _ => rfl

/-- What becomes of a job that asked for a slot. -/
def verdict (job : Job) : Except StoreError Bool → Phase
  | .ok true => .beginning ⟨job, true⟩
  | .ok false => .refusing job .ceiling
  | .error cause => .refusing job (.unreachable cause)

/-- The final status that a phase writes for the job in hand. -/
inductive Phase.Ends : Phase → Taken → JobStatus → Prop
  | succeeding {t : Taken} : Ends (.succeeding t) t .succeeded
  | exhausted {t : Taken} : Ends (.exhausted t) t .failed
  | abandoning {t : Taken} : Ends (.abandoning t) t .failed

/-- The same admission with one more failure of its job. -/
def again (t : Taken) : Taken := { t with job := t.job.recordFailure }

/-- What follows a call that has ended: success, another attempt later, or no more of them. -/
inductive Follows (t : Taken) : Phase → Prop
  | succeeding : Follows t (.succeeding t)
  | backingOff {wake : Nat} : Follows t (.backingOff (again t) wake)
  | exhausted : Follows t (.exhausted (again t))

/-- A turn of a worker: what it becomes, unless it ends, and the world afterwards. -/
inductive Turn (k : Worker) (w : World) : Option Worker → World → Prop
  | starts (hp : k.phase = .starting) :
      Turn k w (some (k.inPhase .choosing)) (tell w .workerStarted)
  | quits (hp : k.phase = .choosing) (hc : k.cancelled = true) : Turn k w none w
  | takes {r : Runner} {job : Job} {rest : List Job} (hp : k.phase = .choosing)
      (hc : k.cancelled = false) (hr : w.runners.find? k.runner = some r)
      (hq : r.pending = job :: rest) :
      Turn k w (some (k.inPhase (.admitting job)))
        (w.modifyRunner k.runner fun r => { r with pending := rest })
  | idles (hp : k.phase = .choosing) (hc : k.cancelled = false)
      (hq : ∀ r, w.runners.find? k.runner = some r → r.pending = []) :
      Turn k w none (tell (w.modifyRunner k.runner fun r =>
        if r.slot.map Runner.Slot.generation = some k.generation then { r with slot := none }
        else r) .workerIdle)
  | waives {job : Job} (hp : k.phase = .admitting job) (hc : job.criticality.counted = false) :
      Turn k w (some (k.inPhase (.beginning ⟨job, false⟩))) w
  | asks {job : Job} {a : Except StoreError Bool} {u : World} (hp : k.phase = .admitting job)
      (hc : job.criticality.counted = true)
      (ha : w.perform (.incrementIfBelow jobCounterKey (w.runnerConfig k.runner).maxRunning) =
        (a, u)) : Turn k w (some (k.inPhase (verdict job a))) u
  | refuses {job : Job} {why : Runner.Refusal} {a : Except StoreError Unit} {u v : World}
      (hp : k.phase = .refusing job why)
      (ha : w.perform (statusCall (w.runnerConfig k.runner) job .failed) = (a, u))
      (hv : u.Via k.Books v) : Turn k w (some (k.inPhase .choosing)) v
  | begins {t : Taken} {a : Except StoreError Unit} {u v : World} (hp : k.phase = .beginning t)
      (ha : w.perform (statusCall (w.runnerConfig k.runner) t.job .running) = (a, u))
      (ho : a = .ok () ∨ t.job.criticality = .critical) (hv : u.Via k.Books v) :
      Turn k w (some (k.inPhase (.calling t))) v
  | aborts {t : Taken} {cause : StoreError} {u v : World} (hp : k.phase = .beginning t)
      (ha : w.perform (statusCall (w.runnerConfig k.runner) t.job .running) = (.error cause, u))
      (ho : t.job.criticality ≠ .critical) (hv : u.Via k.Books v) :
      Turn k w (some (k.inPhase (afterJob t))) v
  | calls {t : Taken} (hp : k.phase = .calling t) :
      Turn k w (some (k.inPhase (.awaiting t w.nextTask)))
        (w.spawn (.handler (.start t.job.handler))).2
  | joins {t : Taken} {task : TaskId} {goal : Phase} {v : World} (hp : k.phase = .awaiting t task)
      (hgoal : Follows t goal) (hv : (w.endTask task).Via k.Books v) :
      Turn k w (some (k.inPhase goal)) v
  | ends {t : Taken} {status : JobStatus} {a : Except StoreError Unit} {u v : World}
      (hp : k.phase.Ends t status)
      (ha : w.perform (statusCall (w.runnerConfig k.runner) t.job status) = (a, u))
      (hv : u.Via k.Books v) : Turn k w (some (k.inPhase (afterJob t))) v
  | resumes {t : Taken} {wake : Nat} (hp : k.phase = .backingOff t wake)
      (hc : k.givesUp wake w = false) : Turn k w (some (k.inPhase (.calling t))) w
  | abandons {t : Taken} {wake : Nat} (hp : k.phase = .backingOff t wake)
      (hc : k.givesUp wake w = true) : Turn k w (some (k.inPhase (.abandoning t))) w
  | releases {t : Taken} {attempt : Nat} {n : Int} {u : World}
      (hp : k.phase = .releasing t attempt)
      (ha : w.perform (.decrement jobCounterKey) = (.ok n, u)) :
      Turn k w (some (k.inPhase .choosing)) u
  | retries {t : Taken} {attempt wake : Nat} {cause : StoreError} {u v : World}
      (hp : k.phase = .releasing t attempt)
      (ha : w.perform (.decrement jobCounterKey) = (.error cause, u))
      (hmore : (w.runnerConfig k.runner).release.allowsAfter attempt = true)
      (hv : u.Via k.Books v) : Turn k w (some (k.inPhase (.resting t attempt wake))) v
  | sticks {t : Taken} {attempt : Nat} {cause : StoreError} {u : World}
      (hp : k.phase = .releasing t attempt)
      (ha : w.perform (.decrement jobCounterKey) = (.error cause, u))
      (hmore : (w.runnerConfig k.runner).release.allowsAfter attempt = false) :
      Turn k w (some (k.inPhase .choosing)) (tell u (.slotStuck t.job attempt cause))
  | rests {t : Taken} {attempt wake : Nat} (hp : k.phase = .resting t attempt wake) :
      Turn k w (some (k.inPhase (.releasing t (attempt + 1)))) w

variable (k : Worker) {w v : World}

/-- Two more entries in the books. -/
theorem booked {u : World} {e : Runner.Event} {f : Runner.Stats → Runner.Stats}
    (he : (Record.logged (.runner e)).Plain) (h : u.Via k.Books v) :
    u.Via k.Books ((tell v e).count k.runner f) :=
  World.Via.count (h.log (.record he)) .count

/-- Reporting a failed call is in the books of the worker. -/
theorem abort_booked {u : World} (t : Taken) (cause : StoreError) (h : u.Via k.Books v) :
    u.Via k.Books (k.abort t cause v).2 := by
  simp only [abort, countFailed]
  exact k.booked ⟨rfl, rfl⟩ h

/-- Writing a status: the one call, then at most a word about its failure. -/
theorem writeStatus_eq (job : Job) (status : JobStatus) (w : World) :
    ∃ a u v, w.perform (statusCall (w.runnerConfig k.runner) job status) = (a, u) ∧
      u.Via k.Books v ∧
      ((k.writeStatus job status w = (.ok (), v) ∧ (a = .ok () ∨ job.criticality = .critical)) ∨
        ∃ cause, k.writeStatus job status w = (.error cause, v) ∧ a = .error cause ∧
          job.criticality ≠ .critical) := by
  unfold writeStatus
  cases ha : w.perform (statusCall (w.runnerConfig k.runner) job status) with
  | mk a u =>
      cases a with
      | ok x => exact ⟨_, u, u, rfl, .same, .inl ⟨rfl, .inl rfl⟩⟩
      | error cause =>
          by_cases hc : job.criticality = .critical
          · refine ⟨_, u, tell u (.statusUnwritten job status cause), rfl, ?_, .inl ⟨?_, .inr hc⟩⟩
            · exact World.Via.same.log (.record ⟨rfl, rfl⟩)
            · simp only [hc]
          · refine ⟨_, u, u, rfl, .same, .inr ⟨cause, ?_, rfl, hc⟩⟩
            cases hj : job.criticality <;> simp_all

/-- The turn of a worker that chooses. -/
theorem choose_turn (hp : k.phase = .choosing) (w : World) :
    k.Turn w (k.choose w).1.state? (k.choose w).2 := by
  unfold choose
  split
  · rename_i hc
    exact .quits hp hc
  · rename_i hc
    have hn : k.cancelled = false := Bool.eq_false_iff.mpr hc
    split
    · rename_i job rest hq
      obtain ⟨r, hr, hpend⟩ := Option.map_eq_some_iff.mp hq
      exact .takes hp hn hr hpend
    · rename_i hq
      refine .idles hp hn ?_
      intro r hr
      cases hpend : r.pending with
      | nil => rfl
      | cons job rest =>
          refine absurd ?_ (hq job rest)
          rw [hr, Option.map_some, hpend]

/-- The turn of a worker that asks for a slot. -/
theorem askForSlot_turn {job : Job} (hp : k.phase = .admitting job) (w : World) :
    k.Turn w (some (k.askForSlot job w).1) (k.askForSlot job w).2 := by
  unfold askForSlot
  cases hc : job.criticality.counted with
  | false => exact .waives hp hc
  | true =>
      cases ha : w.perform (.incrementIfBelow jobCounterKey
        (w.runnerConfig k.runner).maxRunning) with
      | mk a u =>
          have ht := Turn.asks hp hc ha
          cases a with
          | error cause => exact ht
          | ok b => cases b <;> exact ht

/-- The turn of a worker that refuses a job. -/
theorem refuse_turn {job : Job} {why : Runner.Refusal} (hp : k.phase = .refusing job why)
    (w : World) : k.Turn w (some (k.refuse job why w).1) (k.refuse job why w).2 := by
  cases ha : w.perform (statusCall (w.runnerConfig k.runner) job .failed) with
  | mk a u =>
      refine .refuses hp ha ?_
      unfold refuse
      simp only [ha]
      refine k.booked ⟨rfl, rfl⟩ ?_
      cases a with
      | ok x => exact .same
      | error cause => exact World.Via.same.log (.record ⟨rfl, rfl⟩)

/-- The turn of a worker that marks its job running. -/
theorem markRunning_turn {t : Taken} (hp : k.phase = .beginning t) (w : World) :
    k.Turn w (some (k.markRunning t w).1) (k.markRunning t w).2 := by
  obtain ⟨a, u, v, ha, hv, ⟨hw, ho⟩ | ⟨cause, hw, rfl, ho⟩⟩ :=
    k.writeStatus_eq t.job .running w
  · simp only [markRunning, hw]
    exact .begins hp ha ho (k.booked ⟨rfl, rfl⟩ hv)
  · simp only [markRunning, hw]
    exact .aborts hp ha ho (k.abort_booked t cause hv)

/-- The turn of a worker whose job succeeded. -/
theorem succeed_turn {t : Taken} (hp : k.phase = .succeeding t) (w : World) :
    k.Turn w (some (k.succeed t w).1) (k.succeed t w).2 := by
  have he : k.phase.Ends t .succeeded := hp ▸ .succeeding
  obtain ⟨a, u, v, ha, hv, ⟨hw, -⟩ | ⟨cause, hw, -, -⟩⟩ := k.writeStatus_eq t.job .succeeded w
  · simp only [succeed, hw]
    exact .ends he ha (k.booked ⟨rfl, rfl⟩ hv)
  · simp only [succeed, hw]
    exact .ends he ha (k.abort_booked t cause hv)

/-- The turn of a worker whose job failed. -/
theorem fail_turn {t : Taken} {event : Runner.Event} (hp : k.phase.Ends t .failed)
    (he : (Record.logged (.runner event)).Plain) (w : World) :
    k.Turn w (some (k.fail t event w).1) (k.fail t event w).2 := by
  obtain ⟨a, u, v, ha, hv, ⟨hw, -⟩ | ⟨cause, hw, -, -⟩⟩ := k.writeStatus_eq t.job .failed w
  · simp only [fail, hw]
    exact .ends hp ha (k.booked he hv)
  · simp only [fail, hw]
    exact .ends hp ha (k.abort_booked t cause hv)

/-- The turn of a worker whose call has ended. -/
theorem join_turn {t : Taken} {task : TaskId} (hp : k.phase = .awaiting t task) (w : World) :
    k.Turn w (some (k.join t task w).1) (k.join t task w).2 := by
  unfold join
  simp only
  split
  · exact .joins hp .succeeding .same
  · unfold recordAttempt
    simp only
    split
    · exact .joins hp .backingOff (World.Via.same.log (.record ⟨rfl, rfl⟩))
    · exact .joins hp .exhausted (World.Via.same.log (.record ⟨rfl, rfl⟩))

/-- The turn of a worker that gives its slot back. -/
theorem release_turn {t : Taken} {attempt : Nat} (hp : k.phase = .releasing t attempt)
    (w : World) : k.Turn w (some (k.release t attempt w).1) (k.release t attempt w).2 := by
  cases ha : w.perform (.decrement jobCounterKey) with
  | mk a u =>
      have hcfg : u.runnerConfig k.runner = w.runnerConfig k.runner := by
        have h := w.perform_runnerConfig (.decrement jobCounterKey) k.runner
        rwa [ha] at h
      unfold release
      simp only [ha]
      cases a with
      | ok n => exact .releases hp ha
      | error cause =>
          simp only [hcfg]
          split
          · rename_i hmore
            exact .retries hp ha hmore (World.Via.same.log (.record ⟨rfl, rfl⟩))
          · rename_i hmore
            exact .sticks hp ha (Bool.eq_false_iff.mpr hmore)

/-- Every step of a worker is one of its turns. -/
theorem step_turn (w : World) : k.Turn w (k.step w).1.state? (k.step w).2 := by
  unfold step
  split
  · rename_i hp
    exact .starts hp
  · rename_i hp
    exact k.choose_turn hp w
  · rename_i hp
    exact k.askForSlot_turn hp w
  · rename_i hp
    exact k.refuse_turn hp w
  · rename_i hp
    exact k.markRunning_turn hp w
  · rename_i hp
    exact .calls hp
  · rename_i hp
    exact k.join_turn hp w
  · rename_i hp
    exact k.succeed_turn hp w
  · rename_i t hp
    exact k.fail_turn (hp ▸ .exhausted) ⟨rfl, rfl⟩ w
  · rename_i t wake hp
    cases hc : k.givesUp wake w with
    | true => exact .abandons hp hc
    | false => exact .resumes hp hc
  · rename_i t hp
    exact k.fail_turn (hp ▸ .abandoning) ⟨rfl, rfl⟩ w
  · rename_i hp
    exact k.release_turn hp w
  · rename_i hp
    exact .rests hp

/-- A turn of a worker changes its phase only. -/
theorem Turn.exists_inPhase {k k' : Worker} {w v : World} (h : k.Turn w (some k') v) :
    ∃ p, k' = k.inPhase p := by
  cases h <;> exact ⟨_, rfl⟩

/-- A step of a worker changes its phase only. -/
theorem step_inPhase {k k' : Worker} {w : World} (h : (k.step w).1 = .on k') :
    ∃ p, k' = k.inPhase p := by
  have hturn := k.step_turn w
  rw [h] at hturn
  exact hturn.exists_inPhase

end Worker

end JobFleet
