import JobFleet.Proofs.Fleet.Landing
import JobFleet.Proofs.Runner.RunnerSteps

/-!
# The course of an admitted job

What a worker that has not been cancelled does with a job that it has admitted, if the store answers
its calls: it marks the job as running, calls its handler, waits after a call that failed, calls
again, and marks the end. `Worker.Advance` lists these steps with everything that decides them; the
turns leave open how long a wait is and how a call has ended.
-/

namespace JobFleet

/-- The waits of a job grow with its failures up to the longest duration; the cap of its retry
policy is never below them. -/
theorem Job.delayAfter_nanos (j : Job) {n : Nat} (h₀ : 0 < n) (hn : n ≤ j.maxAttempts) :
    (j.retryPolicy.delayAfter n).nanos = min (j.backoff.nanos * n) maxNanos := by
  have hne : n ≠ 0 := Nat.pos_iff_ne_zero.mp h₀
  have hle : j.backoff.nanos * n ≤ j.backoff.nanos * j.maxAttempts :=
    Nat.mul_le_mul_left _ hn
  simp only [RetryPolicy.delayAfter, if_neg hne, Job.retryPolicy, RetryPolicy.factor,
    Duration.nanos_capped, Duration.nanos_scale]
  omega

/-- The admission of a job when a number of its attempts have failed. -/
def Taken.tried (t : Taken) (n : Nat) : Taken := { t with job := { t.job with failures := n } }

/-- How a handler's call has ended, if it is one and has. -/
def World.ending? (w : World) (task : TaskId) : Option Ending :=
  match w.tasks.find? task with
  | some (.handler c) => c.ending?
  | _ => none

/-- A worker can go on, or it waits for a call or for an instant. -/
theorem World.goes_on {w : World} {i : TaskId} {k : Worker}
    (hi : w.tasks.find? i = some (.worker k)) (hcall : ∀ t task, k.phase = .awaiting t task →
      ∃ c, w.tasks.find? task = some (.handler c)) :
    w.enabled i = true ∨ (∃ t task, k.phase = .awaiting t task ∧ w.ending? task = none) ∨
      (∃ t wake, k.phase = .backingOff t wake ∧ k.cancelled = false ∧ w.now < wake) ∨
      ∃ t attempt wake, k.phase = .resting t attempt wake ∧ w.now < wake := by
  have hready : w.enabled i = k.ready w := by
    simp only [World.enabled, hi]
    rfl
  rw [hready]
  cases hphase : k.phase with
  | awaiting t task =>
      obtain ⟨c, hc⟩ := hcall t task hphase
      cases he : w.ending? task with
      | none => exact .inr (.inl ⟨t, task, rfl, he⟩)
      | some e =>
          simp only [World.ending?, hc] at he
          left
          simp [Worker.ready, hphase, Worker.callEnded, hc, he]
  | backingOff t wake =>
      by_cases hw : k.cancelled = true ∨ wake ≤ w.now
      · left
        simpa [Worker.ready, hphase] using hw
      · obtain ⟨hc, hlt⟩ := not_or.mp hw
        exact .inr (.inr (.inl ⟨t, wake, rfl, Bool.eq_false_iff.mpr hc, Nat.lt_of_not_le hlt⟩))
  | resting t attempt wake =>
      by_cases hw : wake ≤ w.now
      · left
        simp [Worker.ready, hphase, hw]
      · exact .inr (.inr (.inr ⟨t, attempt, wake, rfl, Nat.lt_of_not_le hw⟩))
  | _ =>
      left
      simp [Worker.ready, hphase]

/-- A step of a handler's call does not change whose call it is. -/
theorem HandlerCall.step_handler (self : TaskId) (c : HandlerCall) (w : World) :
    (c.step self w).1.handler = c.handler := by
  unfold step
  split
  · unfold enter
    split <;> rfl
  · rfl
  · unfold act
    split <;> rfl
  · rfl
  · rfl
  · split <;> rfl
  · rfl

namespace Worker

/-- The job that a worker carries out in a phase, unless it is about to give the job up. -/
def Phase.pursues? : Phase → Option Taken
  | .beginning t => some t
  | .calling t => some t
  | .awaiting t _ => some t
  | .succeeding t => some t
  | .exhausted t => some t
  | .backingOff t _ => some t
  | _ => none

/-- The status that the next step writes for the job that is carried out, if it writes one. -/
def Phase.marks? : Phase → Option (Taken × JobStatus)
  | .beginning t => some (t, .running)
  | .succeeding t => some (t, .succeeded)
  | .exhausted t => some (t, .failed)
  | _ => none

/-- Whether the store answers what the next step writes. -/
def answered (k : Worker) (w : World) : Bool :=
  match k.phase.marks? with
  | some (t, status) =>
      (w.perform (statusCall (w.runnerConfig k.runner) t.job status)).1.toBool
  | none => true

/-- A step of a worker that carries out an admitted job: the phase that it goes on in. -/
inductive Advance (k : Worker) (w : World) : Phase → Prop
  | marks {t : Taken} (hp : k.phase = .beginning t) : Advance k w (.calling t)
  | calls {t : Taken} (hp : k.phase = .calling t) : Advance k w (.awaiting t w.nextTask)
  | succeeds {t : Taken} {task : TaskId} {e : Ending} (hp : k.phase = .awaiting t task)
      (he : w.ending? task = some e) (hok : e.fault? = none) : Advance k w (.succeeding t)
  | backsOff {t : Taken} {task : TaskId} {e : Ending} (hp : k.phase = .awaiting t task)
      (he : w.ending? task = some e) (hfault : e.fault? ≠ none)
      (hmore : t.job.failures + 1 < t.job.maxAttempts) :
      Advance k w (.backingOff (t.tried (t.job.failures + 1))
        (Clock.alarm w.now (t.job.retryPolicy.delayAfter (t.job.failures + 1))))
  | exhausts {t : Taken} {task : TaskId} {e : Ending} (hp : k.phase = .awaiting t task)
      (he : w.ending? task = some e) (hfault : e.fault? ≠ none)
      (hmore : t.job.maxAttempts ≤ t.job.failures + 1) :
      Advance k w (.exhausted (t.tried (t.job.failures + 1)))
  | resumes {t : Taken} {wake : Nat} (hp : k.phase = .backingOff t wake) (hw : wake ≤ w.now) :
      Advance k w (.calling t)
  | closes {t : Taken} {status : JobStatus} (hp : k.phase.marks? = some (t, status))
      (hs : status ≠ .running) : Advance k w (afterJob t)

variable {k : Worker} {w : World} {t : Taken}

/-- After its job a worker pursues nothing. -/
theorem afterJob_pursues? (t : Taken) : (afterJob t).pursues? = none := by
  unfold afterJob
  split <;> rfl

/-- A status whose write the store answers is on the key of its job, for its time to live. -/
theorem answered_entry {status : JobStatus} (hm : k.phase.marks? = some (t, status))
    (ha : k.answered w = true) :
    ∃ u, w.perform (statusCall (w.runnerConfig k.runner) t.job status) = (.ok (), u) ∧
      u.entry t.job.key.statusKey =
        some ⟨status.text, some (Clock.expiry w.now ((w.runnerConfig k.runner).ttl status))⟩ := by
  simp only [answered, hm] at ha
  have hends := w.perform_ends_landing (statusCall (w.runnerConfig k.runner) t.job status) rfl
  generalize w.perform (statusCall (w.runnerConfig k.runner) t.job status) = p at ha hends
  cases hends with
  | answered effect entry =>
      refine ⟨_, rfl, entry.trans ?_⟩
      cases effect
      rw [World.landing_now]
      rfl
  | refused => cases ha
  | lost => cases ha

/-- Writing a status that the store answers. -/
theorem answered_writeStatus {status : JobStatus} (hm : k.phase.marks? = some (t, status))
    (ha : k.answered w = true) :
    ∃ u, k.writeStatus t.job status w = (.ok (), u) ∧ u.entry t.job.key.statusKey =
      some ⟨status.text, some (Clock.expiry w.now ((w.runnerConfig k.runner).ttl status))⟩ := by
  obtain ⟨u, hu, he⟩ := answered_entry hm ha
  refine ⟨u, ?_, he⟩
  simp only [writeStatus, hu]

/-- A worker that was answered has recorded the status. -/
theorem answered_records {status : JobStatus} (hm : k.phase.marks? = some (t, status))
    (ha : k.answered w = true) : k.records t.job status w = true := by
  obtain ⟨u, hu, -⟩ := answered_writeStatus hm ha
  simp only [records, hu]

/-- The step in which a worker learns how a call has ended. -/
theorem join_advance {task : TaskId} {e : Ending} (hp : k.phase = .awaiting t task)
    (he : w.ending? task = some e) : k.Advance w (k.join t task w).1.phase := by
  have hcall : ∃ c, w.tasks.find? task = some (.handler c) ∧ c.ending? = some e := by
    unfold World.ending? at he
    split at he
    · rename_i c hc
      exact ⟨c, hc, he⟩
    · cases he
  obtain ⟨c, hc, hce⟩ := hcall
  simp only [join, hc, hce, Option.getD_some]
  cases hf : e.fault? with
  | none => exact .succeeds hp he hf
  | some fault =>
      have hfault : e.fault? ≠ none := by simp [hf]
      simp only [recordAttempt, RetryPolicy.allowsAfter, Job.recordFailure, Job.retryPolicy]
      by_cases hmore : t.job.failures + 1 < t.job.maxAttempts
      · simp only [hmore, decide_true, if_true]
        exact .backsOff hp he hfault hmore
      · simp only [hmore, decide_false, Bool.false_eq_true, if_false]
        exact .exhausts hp he hfault (Nat.le_of_not_lt hmore)

/-- A worker that is not cancelled takes one of these steps, if the store answers what it writes. -/
theorem step_advance (hready : k.ready w = true) (hc : k.cancelled = false)
    (ha : k.answered w = true) (hp : k.phase.pursues? = some t)
    (hcall : ∀ task, k.phase = .awaiting t task → (w.ending? task).isSome = true) :
    ∃ goal, k.Advance w goal ∧ (k.step w).1 = .on (k.inPhase goal) := by
  cases hphase : k.phase with
  | beginning t' =>
      obtain ⟨u, hu, -⟩ := answered_writeStatus (by rw [hphase]; rfl) ha
      refine ⟨_, .marks hphase, ?_⟩
      simp only [step, hphase, goOn, markRunning, hu]
  | calling t' => exact ⟨_, .calls hphase, by simp only [step, hphase, goOn, call]; rfl⟩
  | awaiting t' task =>
      rw [hphase] at hp
      cases hp
      obtain ⟨e, he⟩ := Option.isSome_iff_exists.mp (hcall task hphase)
      refine ⟨_, join_advance hphase he, ?_⟩
      simp only [step, hphase, goOn]
      congr 1
      simp only [join]
      split
      · rfl
      · simp only [recordAttempt]
        split <;> rfl
  | succeeding t' =>
      obtain ⟨u, hu, -⟩ := answered_writeStatus (by rw [hphase]; rfl) ha
      have hmarks : k.phase.marks? = some (t', .succeeded) := by rw [hphase]; rfl
      refine ⟨_, .closes hmarks (by rintro ⟨⟩), ?_⟩
      simp only [step, hphase, goOn, succeed, hu]
  | exhausted t' =>
      obtain ⟨u, hu, -⟩ := answered_writeStatus (by rw [hphase]; rfl) ha
      have hmarks : k.phase.marks? = some (t', .failed) := by rw [hphase]; rfl
      refine ⟨_, .closes hmarks (by rintro ⟨⟩), ?_⟩
      simp only [step, hphase, goOn, fail, hu]
  | backingOff t' wake =>
      have hw : wake ≤ w.now := by simpa [ready, hphase, hc] using hready
      refine ⟨_, .resumes hphase hw, ?_⟩
      simp only [step, hphase, givesUp_of_free hc, Bool.false_eq_true, if_false]
  | _ =>
      rw [hphase] at hp
      cases hp

/-- What a step leaves on the key of the job: the status that it writes, or what was there. -/
theorem step_entry (ha : k.answered w = true) (hp : k.phase.pursues? = some t)
    (hc : k.cancelled = false) :
    (k.step w).2.entry t.job.key.statusKey =
      match k.phase.marks? with
      | some (_, status) =>
          some ⟨status.text, some (Clock.expiry w.now ((w.runnerConfig k.runner).ttl status))⟩
      | none => w.entry t.job.key.statusKey := by
  cases hphase : k.phase with
  | beginning t' =>
      rw [hphase] at hp
      cases hp
      obtain ⟨u, hu, he⟩ := answered_writeStatus (by rw [hphase]; rfl) ha
      simp only [step, hphase, goOn, markRunning, hu]
      exact he
  | succeeding t' =>
      rw [hphase] at hp
      cases hp
      obtain ⟨u, hu, he⟩ := answered_writeStatus (by rw [hphase]; rfl) ha
      simp only [step, hphase, goOn, succeed, hu]
      exact he
  | exhausted t' =>
      rw [hphase] at hp
      cases hp
      obtain ⟨u, hu, he⟩ := answered_writeStatus (by rw [hphase]; rfl) ha
      simp only [step, hphase, goOn, fail, hu]
      exact he
  | calling t' => simp only [step, hphase, goOn, call]; rfl
  | awaiting t' task =>
      simp only [step, hphase, goOn, join]
      split
      · rfl
      · simp only [recordAttempt]
        split <;> rfl
  | backingOff t' wake => simp only [step, hphase, givesUp_of_free hc]; rfl
  | _ =>
      rw [hphase] at hp
      cases hp

end Worker

end JobFleet
