import JobFleet.Proofs.Runner.Trial

/-!
# Critical jobs

What a worker does with a critical job does not depend on the store: it asks for no slot, and a
status that cannot be written stops nothing. All that decides its steps is what it learns of the
job's own calls and of its cancellation. `Worker.Phase.unaided` is the worker as a machine without
a store, fed with such lessons; every step of a worker with a critical job in hand is one of its
steps.
-/

namespace JobFleet

open Runner (Item)

namespace Worker

/-- What a worker learns in a step: how the call that it waits for has ended, or that it has been
cancelled and is to give its backoff up, and when. -/
inductive Lesson
  | nothing
  | ended (now : Nat) (e : Ending)
  | cancelled (now : Nat)
deriving DecidableEq, Repr

/-- What a worker learns in its next step. -/
def lesson (k : Worker) (w : World) : Lesson :=
  match k.phase with
  | .awaiting _ task => (w.ending? task).elim .nothing (.ended w.now)
  | .backingOff _ wake => if k.givesUp wake w then .cancelled w.now else .nothing
  | _ => .nothing

/-- What follows a call of an admitted job that has ended at an instant. -/
def afterCall (t : Taken) (now : Nat) (e : Ending) : Phase :=
  if e.fault? = none then .succeeding t
  else if t.job.failures + 1 < t.job.maxAttempts then
    .backingOff (t.tried (t.job.failures + 1)) (t.job.due now (t.job.failures + 1))
  else .exhausted (t.tried (t.job.failures + 1))

namespace Phase

/-- The phase without the number of the task that is waited for. -/
def bare : Phase → Phase
  | .awaiting t _ => .awaiting t 0
  | p => p

/-- The phase in which a worker goes on with a critical job, given what it learns. -/
def unaided (l : Lesson) : Phase → Phase
  | .admitting job => .beginning ⟨job, false⟩
  | .beginning t => .calling t
  | .calling t => .awaiting t 0
  | .awaiting t task =>
      match l with
      | .ended now e => afterCall t now e
      | _ => .awaiting t task
  | .backingOff t _ =>
      match l with
      | .cancelled _ => .abandoning t
      | _ => .calling t
  | .succeeding _ | .exhausted _ | .abandoning _ => .choosing
  | p => p

/-- What stands in a worker's diary of a step with a critical job, given what it learns. -/
def jotted (now : Nat) (l : Lesson) : Phase → Diary
  | .beginning _ => ⟨[now], [], [], 1, [.started]⟩
  | .calling _ => ⟨[], [now], [], 1, []⟩
  | .awaiting .. =>
      match l with
      | .ended now e => ⟨[], [], [(now, e)], 1, []⟩
      | _ => ⟨[], [], [], 1, []⟩
  | .succeeding _ => ⟨[], [], [], 1, [.ended .succeeded]⟩
  | .exhausted _ | .abandoning _ => ⟨[], [], [], 1, [.ended .failed]⟩
  | _ => ⟨[], [], [], 1, []⟩

/-- When a worker that is never kept waiting takes a step, given when it took the one before and
what it learns. -/
def prompt (last : Nat) (l : Lesson) : Phase → Nat
  | .awaiting .. =>
      match l with
      | .ended now _ => now
      | _ => last
  | .backingOff _ wake =>
      match l with
      | .cancelled now => now
      | _ => wake
  | _ => last

/-- A worker that has not been kept waiting since it took a step: at that instant it goes on, unless
it waits for a call or for a backoff to be over. -/
def Punctual (last now : Nat) : Phase → Prop
  | .awaiting .. => True
  | .backingOff _ wake => now ≤ wake
  | _ => now = last

/-- Being on time is read off the bare phase. -/
theorem punctual_bare {last now : Nat} {p : Phase} :
    p.bare.Punctual last now ↔ p.Punctual last now := by
  cases p <;> rfl

/-- The phase that lessons lead to. -/
def taught (p : Phase) (ls : List Lesson) : Phase := ls.foldl (fun p l => p.unaided l) p

/-- What stands in the diary after lessons at some instants. -/
def account (p : Phase) : List (Nat × Lesson) → Diary
  | [] => .blank
  | (now, l) :: ls => (p.jotted now l).append (account (p.unaided l) ls)

/-- When a worker that is never kept waiting takes the steps in which it learns its lessons. -/
def pace (last : Nat) (p : Phase) : List Lesson → List Nat
  | [] => []
  | l :: ls => p.prompt last l :: pace (p.prompt last l) (p.unaided l) ls

/-- A lesson more is taught after the others. -/
theorem taught_snoc (p : Phase) (ls : List Lesson) (l : Lesson) :
    p.taught (ls ++ [l]) = (p.taught ls).unaided l := by
  rw [taught, List.foldl_append]
  rfl

/-- The account of a lesson more. -/
theorem account_snoc (p : Phase) (ls : List (Nat × Lesson)) (x : Nat × Lesson) :
    p.account (ls ++ [x]) =
      (p.account ls).append ((p.taught (ls.map Prod.snd)).jotted x.1 x.2) := by
  induction ls generalizing p with
  | nil => simp [account, taught]
  | cons y ls ih =>
      rw [List.cons_append, account, ih, account, Diary.append_assoc]
      rfl

/-- When steps are taken matters only to when calls and the mark are made. -/
theorem account_congr {p : Phase} {ls ls' : List (Nat × Lesson)}
    (h : ls.map Prod.snd = ls'.map Prod.snd) :
    (p.account ls).ends = (p.account ls').ends ∧ (p.account ls).items = (p.account ls').items ∧
      (p.account ls).steps = (p.account ls').steps ∧
      (p.account ls).calls.length = (p.account ls').calls.length := by
  induction ls generalizing p ls' with
  | nil =>
      cases ls' with
      | nil => exact ⟨rfl, rfl, rfl, rfl⟩
      | cons y ls' => cases h
  | cons x ls ih =>
      cases ls' with
      | nil => cases h
      | cons y ls' =>
          obtain ⟨now, l⟩ := x
          obtain ⟨now', l'⟩ := y
          obtain ⟨hl, hls⟩ := List.cons.inj h
          change l = l' at hl
          subst hl
          obtain ⟨hends, hitems, hsteps, hcalls⟩ := ih (p := p.unaided l) hls
          simp only [account, Diary.append, hends, hitems, hsteps, List.length_append, hcalls]
          cases p <;> exact ⟨rfl, rfl, rfl, rfl⟩

/-- The pace of a lesson more. -/
theorem pace_snoc (last : Nat) (p : Phase) (ls : List Lesson) (l : Lesson) :
    pace last p (ls ++ [l]) = pace last p ls ++
      [(p.taught ls).prompt ((pace last p ls).getLast?.getD last) l] := by
  induction ls generalizing last p with
  | nil => simp [pace, taught]
  | cons m ls ih =>
      rw [List.cons_append, pace, ih, pace, List.cons_append, List.getLast?_cons]
      cases (pace (p.prompt last m) (p.unaided m) ls).getLast? <;> rfl

/-- The job that a worker has in hand in a phase and has admitted, or is about to. -/
def carries? : Phase → Option Taken
  | .admitting job => some ⟨job, job.criticality.counted⟩
  | .abandoning t => some t
  | p => p.pursues?

/-- A phase in which a worker has a critical job in hand, for which it holds no slot. -/
structure Unaided (p : Phase) (t : Taken) : Prop where
  carries : p.carries? = some t
  critical : t.job.criticality = .critical
  uncounted : t.counted = false

/-- A critical job that has just been taken needs no slot. -/
theorem Unaided.admitting {p : Phase} {job : Job} (hp : p = .admitting job)
    (hc : job.criticality = .critical) : p.Unaided ⟨job, false⟩ := by
  refine ⟨?_, hc, rfl⟩
  rw [hp, carries?, hc]
  rfl

/-- The job stays critical when more of its attempts have failed. -/
theorem Unaided.tried {p q : Phase} {t : Taken} (h : p.Unaided t) {n : Nat}
    (hq : q.carries? = some (t.tried n)) : q.Unaided (t.tried n) :=
  ⟨hq, h.critical, h.uncounted⟩

end Phase

variable {k : Worker} {w v : World} {t : Taken}

/-- Whatever becomes of a critical job's status, the job goes on. -/
theorem records_critical {job : Job} (hc : job.criticality = .critical) (status : JobStatus)
    (w : World) : k.records job status w = true := by
  obtain ⟨-, -, v, -, -, ⟨he, -⟩ | ⟨cause, -, -, hne⟩⟩ := k.writeStatus_eq job status w
  · simp only [records, he]
  · exact absurd hc hne

/-- What a worker does when the call that it waits for has ended. -/
theorem step_awaiting {task : TaskId} {e : Ending} (hp : k.phase = .awaiting t task)
    (he : w.ending? task = some e) :
    (k.step w).1.state? = some (k.inPhase (afterCall t w.now e)) := by
  have hstep : (k.step w).1 = .on (k.join t task w).1 := by simp only [step, hp, goOn]
  obtain ⟨p, hp'⟩ := step_inPhase hstep
  have hadvance := join_advance hp he
  rw [hstep, Progress.state?, hp']
  rw [hp'] at hadvance
  cases hadvance with
  | succeeds hq hqe hok =>
      cases hp.symm.trans hq
      cases he.symm.trans hqe
      simp [afterCall, hok, inPhase]
  | backsOff hq hqe hfault hmore =>
      cases hp.symm.trans hq
      cases he.symm.trans hqe
      simp [afterCall, hfault, hmore, inPhase, Job.due]
  | exhausts hq hqe hfault hmore =>
      cases hp.symm.trans hq
      cases he.symm.trans hqe
      simp [afterCall, hfault, Nat.not_lt_of_le hmore, inPhase]
  | _ => simp_all [Phase.marks?]

/-- A worker that waits for its call learns how it ended. -/
theorem lesson_awaiting {task : TaskId} {e : Ending} (hp : k.phase = .awaiting t task)
    (he : w.ending? task = some e) : k.lesson w = .ended w.now e := by
  simp [lesson, hp, he]

/-- What a worker puts down of a step with a critical job in hand. -/
theorem jots_unaided (h : k.phase.Unaided t)
    (hended : ∀ t task, k.phase = .awaiting t task → (w.ending? task).isSome = true) :
    k.jots w = k.phase.bare.jotted w.now (k.lesson w) := by
  have hrecords := records_critical (k := k) h.critical
  have hcarries := h.carries
  cases hphase : k.phase with
  | awaiting t' task =>
      obtain ⟨e, he⟩ := Option.isSome_iff_exists.mp (hended t' task hphase)
      rw [jots_awaiting hphase he, lesson_awaiting hphase he]
      rfl
  | beginning t' =>
      rw [hphase] at hcarries
      cases hcarries
      simp [jots, hphase, episode?, hrecords, Runner.Episode.outcome?, Phase.bare, Phase.jotted]
  | succeeding t' =>
      rw [hphase] at hcarries
      cases hcarries
      simp [jots, hphase, episode?, hrecords, Runner.Episode.outcome?, Phase.bare, Phase.jotted]
  | refusing job why =>
      rw [hphase] at hcarries
      cases hcarries
  | choosing =>
      rw [hphase] at hcarries
      cases hcarries
  | _ => simp [jots, hphase, episode?, Runner.Episode.outcome?, Phase.bare, Phase.jotted]

/-- What follows a call of a critical job is known without the store. -/
theorem afterCall_carries? (t : Taken) (now : Nat) (e : Ending) :
    (afterCall t now e).bare = afterCall t now e ∧
      ∃ n, (afterCall t now e).carries? = some (t.tried n) := by
  unfold afterCall
  split
  · exact ⟨rfl, t.job.failures, rfl⟩
  · split <;> exact ⟨rfl, t.job.failures + 1, rfl⟩

/-- A step of a worker with a critical job in hand is one of the machine without a store. -/
theorem step_unaided (h : k.phase.Unaided t)
    (hended : ∀ t task, k.phase = .awaiting t task → (w.ending? task).isSome = true) :
    ∃ goal, (k.step w).1.state? = some (k.inPhase goal) ∧
      goal.bare = k.phase.bare.unaided (k.lesson w) ∧
      (goal = .choosing ∨ ∃ n, goal.Unaided (t.tried n)) := by
  have hsame : t.tried t.job.failures = t := rfl
  have hcarries := h.carries
  have hturn := k.step_turn w
  generalize hleft : (k.step w).1.state? = left at hturn
  generalize (k.step w).2 = v at hturn
  cases hturn with
  | @waives job hp hc =>
      rw [hp] at hcarries
      have ht : ⟨job, false⟩ = t := by simpa [Phase.carries?, hc] using hcarries
      exact ⟨_, rfl, by rw [hp]; rfl, .inr ⟨t.job.failures, h.tried (by rw [hsame, ← ht]; rfl)⟩⟩
  | @asks job a _ hp hc ha =>
      rw [hp] at hcarries
      have ht : ⟨job, true⟩ = t := by simpa [Phase.carries?, hc] using hcarries
      have hn := h.uncounted
      rw [← ht] at hn
      cases hn
  | begins hp ha ho hv =>
      rw [hp] at hcarries
      cases hcarries
      exact ⟨_, rfl, by rw [hp]; rfl, .inr ⟨t.job.failures, h.tried rfl⟩⟩
  | aborts hp ha ho hv =>
      rw [hp] at hcarries
      cases hcarries
      exact absurd h.critical ho
  | calls hp =>
      rw [hp] at hcarries
      cases hcarries
      exact ⟨_, rfl, by rw [hp]; rfl, .inr ⟨t.job.failures, h.tried rfl⟩⟩
  | joins hp hgoal hv =>
      obtain ⟨e, he⟩ := Option.isSome_iff_exists.mp (hended _ _ hp)
      obtain ⟨hbare, n, hn⟩ := afterCall_carries? _ w.now e
      rw [← hleft, step_awaiting hp he]
      rw [hp] at hcarries
      cases hcarries
      refine ⟨_, rfl, ?_, .inr ⟨n, h.tried hn⟩⟩
      rw [hp, lesson_awaiting hp he, hbare]
      rfl
  | ends hp ha hv =>
      have hafter : afterJob t = .choosing := by simp [afterJob, h.uncounted]
      generalize hphase : k.phase = phase at hp
      rw [hphase] at hcarries
      cases hp <;> cases hcarries <;> exact ⟨_, rfl, by rw [hafter]; rfl, .inl hafter⟩
  | resumes hp hc =>
      rw [hp] at hcarries
      cases hcarries
      refine ⟨_, rfl, ?_, .inr ⟨t.job.failures, h.tried rfl⟩⟩
      simp [hp, lesson, hc, Phase.bare, Phase.unaided]
  | abandons hp hc =>
      rw [hp] at hcarries
      cases hcarries
      refine ⟨_, rfl, ?_, .inr ⟨t.job.failures, h.tried rfl⟩⟩
      simp [hp, lesson, hc, Phase.bare, Phase.unaided]
  | starts hp | quits hp | takes hp | idles hp | refuses hp | releases hp | retries hp | sticks hp
  | rests hp =>
      rw [hp] at hcarries
      cases hcarries

/-- A worker that is not kept waiting takes its step when it is due. -/
theorem prompt_unaided {last : Nat} (hready : k.ready w = true)
    (hended : ∀ t task, k.phase = .awaiting t task → (w.ending? task).isSome = true)
    (hp : k.phase.Punctual last w.now) : k.phase.bare.prompt last (k.lesson w) = w.now := by
  cases hphase : k.phase with
  | awaiting t' task =>
      obtain ⟨e, he⟩ := Option.isSome_iff_exists.mp (hended t' task hphase)
      rw [lesson_awaiting hphase he]
      rfl
  | backingOff t' wake =>
      rw [hphase] at hp
      cases hc : k.givesUp wake w with
      | true => simp [lesson, hphase, hc, Phase.bare, Phase.prompt]
      | false =>
          have hwake : wake ≤ w.now := over_of_ready hready hphase hc
          simp only [lesson, hphase, hc, Phase.bare, Phase.prompt]
          exact Nat.le_antisymm hwake hp
  | _ =>
      rw [hphase] at hp
      exact hp.symm

/-- A worker has not been kept waiting when it has just taken a step. -/
theorem punctual_unaided (h : k.phase.Unaided t)
    (hended : ∀ t task, k.phase = .awaiting t task → (w.ending? task).isSome = true) :
    (k.phase.bare.unaided (k.lesson w)).Punctual w.now w.now := by
  have hcarries := h.carries
  cases hphase : k.phase with
  | awaiting t' task =>
      obtain ⟨e, he⟩ := Option.isSome_iff_exists.mp (hended t' task hphase)
      rw [lesson_awaiting hphase he]
      simp only [Phase.bare, Phase.unaided, afterCall]
      split
      · rfl
      · split
        · exact Clock.now_le_alarm _ _
        · rfl
  | backingOff t' wake =>
      simp only [lesson, hphase, Phase.bare, Phase.unaided]
      cases k.givesUp wake w <;> rfl
  | calling t' => exact trivial
  | starting | choosing | refusing | releasing | resting =>
      rw [hphase] at hcarries
      cases hcarries
  | _ => rfl

end Worker

end JobFleet
