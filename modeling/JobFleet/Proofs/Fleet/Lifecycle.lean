import JobFleet.Proofs.Fleet.Tenants

/-!
# The life of a key's status

If the status of a key is kept, then each of its changes is a step in the life of the one job that
has claimed the key last: it is queued where nothing or a failed job was, marked as running, and
marked with its end. Nothing but time takes a success away.
-/

namespace JobFleet.World

variable {key : JobKey} {w : World} {m : Move}

/-- A move is the step of a worker that writes a status for the tenant of a key. -/
def WritesFor (key : JobKey) (w : World) (t : Tenant) (status : JobStatus) (m : Move) : Prop :=
  ∃ id k job, m = .step id ∧ w.tasks.find? id = some (.worker k) ∧
    k.phase.writes? = some (job, status) ∧ job.key = key ∧ k.runner = t.runner ∧
    job.untried = t.job.untried

/-- What a move may do to the status of a key, given the key's tenant. -/
inductive Evolves (key : JobKey) (w : World) (last : Option Tenant) (m : Move) : Prop
  | stays (entry : (w.move m).entry key.statusKey = w.entry key.statusKey)
  | expires (h : w.Lapses key.statusKey m) (after : (w.move m).entry key.statusKey = none)
  | claimed {t : Tenant} (claim : w.tenant? key m = some t)
      (before : w.entry key.statusKey = none ∨ w.Says key .failed)
      (after : (w.move m).Says key .queued)
  | begun {t : Tenant} (tenant : last = some t) (write : w.WritesFor key t .running m)
      (before : w.Says key .queued) (after : (w.move m).Says key .running)
  | failed {t : Tenant} (tenant : last = some t) (write : w.WritesFor key t .failed m)
      (before : w.Says key .queued ∨ w.Says key .running) (after : (w.move m).Says key .failed)
  | succeeded {t : Tenant} (tenant : last = some t) (write : w.WritesFor key t .succeeded m)
      (before : w.Says key .running) (after : (w.move m).Says key .succeeded)
  | leapt {t : Tenant} (tenant : last = some t) (write : w.WritesFor key t .succeeded m)
      (critical : t.job.criticality = .critical) (failed : t.unmarked = true)
      (before : w.Says key .queued) (after : (w.move m).Says key .succeeded)

/-- A key says one thing. -/
theorem Says.unique {status status' : JobStatus} (h : w.Says key status)
    (h' : w.Says key status') : status = status' := by
  obtain ⟨x, hx, htext⟩ := h
  obtain ⟨x', hx', htext'⟩ := h'
  cases hx.symm.trans hx'
  have hread := congrArg JobStatus.ofText? (htext.symm.trans htext')
  rwa [JobStatus.ofText?_text, JobStatus.ofText?_text, Option.some.injEq] at hread

variable {last : Option Tenant}

/-- A worker that is about to write a status has the job in hand that it writes it for: a job that
has begun, if it is to succeed, and none that has, if it is to begin. -/
theorem hand?_of_writes {p : Worker.Phase} {job : Job} {status : JobStatus}
    (h : p.writes? = some (job, status)) :
    ∃ begun, p.hand? = some ⟨job.untried, begun⟩ ∧ (status = .running → begun = false) ∧
      (status = .succeeded → begun = true) := by
  cases p <;> cases h <;> exact ⟨_, rfl, by decide, by decide⟩

/-- Whatever a worker is about to write on a key, it writes for the tenant. -/
theorem Tenanted.writes (h : w.Tenanted key last) {id : TaskId} {k : Worker} {job : Job}
    {status : JobStatus} (ht : w.tasks.find? id = some (.worker k))
    (hw : k.phase.writes? = some (job, status)) (hkey : job.key = key) :
    ∃ t begun, last = some t ∧ w.WritesFor key t status (.step id) ∧ w.Shows key t begun ∧
      (status = .running → begun = false) ∧ (status = .succeeded → begun = true) := by
  obtain ⟨begun, hhand, hrunning, hsucceeded⟩ := hand?_of_writes hw
  have hcrew : w.crew k.runner id = some k := crew_eq_some.mpr ⟨ht, rfl⟩
  obtain ⟨t, hlast, hrunner, hjob, hshows⟩ :=
    h.tenant k.runner _ (.of_crew (h.staffed k.runner) hcrew hhand) hkey
  exact ⟨t, begun, hlast, ⟨id, k, job, rfl, ht, hw, hkey, hrunner.symm, hjob.symm⟩, hshows,
    hrunning, hsucceeded⟩

/-- What every move does to the status of a key that has its tenant in place. -/
theorem Tenanted.evolves (h : w.Tenanted key last) (hm : w.Admits m) (hr : StatusKept key w m) :
    w.Evolves key last m := by
  have hstamp := h.blocked.stamp hm hr.1
  cases hmade : w.tenant? key m with
  | some t =>
      rw [hmade] at hstamp
      cases hstamp with
      | claims vacant marked => exact .claimed hmade vacant marked
  | none =>
      rw [hmade] at hstamp
      cases hstamp with
      | keeps entry => exact .stays entry
      | lapses hl =>
          cases m with
          | pass t => exact .expires hl hl.2
          | _ => exact hl.elim
      | begins he ht hp hkey calls marked =>
          subst he
          obtain ⟨t, begun, hlast, hwrites, hshows, hrunning, -⟩ :=
            h.writes ht (by rw [hp]; rfl) hkey
          cases hrunning rfl
          cases hshows with
          | queued before => exact .begun hlast hwrites before marked
      | @closes id k job status he ht hw hkey ended live marked =>
          subst he
          obtain ⟨t, begun, hlast, hwrites, hshows, -, hsucceeded⟩ := h.writes ht hw hkey
          cases status with
          | queued => cases hp : k.phase <;> rw [hp] at hw <;> cases hw
          | running => exact absurd rfl ended
          | failed =>
              cases hshows with
              | queued before => exact .failed hlast hwrites (.inl before) marked
              | running before => exact .failed hlast hwrites (.inr before) marked
              | unmarked before _ _ => exact .failed hlast hwrites (.inl before) marked
          | succeeded =>
              cases hsucceeded rfl
              cases hshows with
              | running before => exact .succeeded hlast hwrites before marked
              | unmarked before critical failed =>
                  exact .leapt hlast hwrites critical failed before marked

/-- A key that says success is left alone until that lapses. -/
theorem Evolves.succeeded_stays (h : w.Evolves key last m) (hs : w.Says key .succeeded) :
    (w.move m).entry key.statusKey = w.entry key.statusKey ∨ w.Lapses key.statusKey m := by
  cases h with
  | stays entry => exact .inl entry
  | expires hl => exact .inr hl
  | claimed claim before after =>
      exact absurd before (hs.not_vacant nofun)
  | begun tenant write before after => cases hs.unique before
  | failed tenant write before after =>
      rcases before with hq | hq
      · cases hs.unique hq
      · cases hs.unique hq
  | succeeded tenant write before after => cases hs.unique before
  | leapt tenant write critical failed before after => cases hs.unique before

/-- If the status of a key is kept, then every move leaves it as it was, lets it expire, claims the
key where nothing or a failed job was, marks the tenant as running where it was queued, marks it as
failed where it was queued or running, or marks it as succeeded where it was running, or where it
was queued if it is critical and could not be marked as running. So nothing but its expiry takes a
success away, and whatever a worker is about to write on the key, it writes for the tenant: the job
that has claimed the key last. -/
theorem status_lifecycle {utc : Int} {s : Store} {ms : List Move}
    (h : History (StatusKept key) (around utc s) ms w) (hm : w.Admits m)
    (hr : StatusKept key w m) :
    w.Evolves key ((around utc s).lastTenant key none ms) m ∧
      (w.Says key .succeeded → (w.move m).entry key.statusKey = w.entry key.statusKey ∨
        w.Lapses key.statusKey m) ∧
      ∀ id k job status, w.tasks.find? id = some (.worker k) →
        k.phase.writes? = some (job, status) → job.key = key →
        ∃ t, (around utc s).lastTenant key none ms = some t ∧
          w.WritesFor key t status (.step id) := by
  have htenanted := h.tenanted
  have hevolves := htenanted.evolves hm hr
  refine ⟨hevolves, hevolves.succeeded_stays, ?_⟩
  intro id k job status ht hw hkey
  obtain ⟨t, begun, hlast, hwrites, -⟩ := htenanted.writes ht hw hkey
  exact ⟨t, hlast, hwrites⟩

/-- A critical job. -/
def vital : Job := (Job.new shared 0).withCriticality .critical

/-- The critical job is handed in. The write that marks it as running fails without effect, but its
handler is called and succeeds. -/
def unmarkedRun : List Move :=
  [.runner "a" Runner.Config.usual, .handler (.scripted "x" 0 fun _ => []),
    .launch (.enqueue (.start "a" vital)), .step 0, .step 0, .step 0,
    .disturb ⟨.set, 0, 1, none, some (.connection "refused"), false⟩, .step 1, .step 1, .step 1,
    .step 1, .step 1, .step 2, .step 2, .step 1]

/-- The job goes from queued to succeeded, and is the one that has claimed the key. -/
theorem status_lifecycle_unmarked :
    ((around 0 .empty).after unmarkedRun).Says shared .queued ∧
      ((around 0 .empty).after (unmarkedRun ++ [.step 1])).Says shared .succeeded ∧
      (around 0 .empty).lastTenant shared none unmarkedRun = some ⟨"a", vital, true⟩ ∧
      ((around 0 .empty).after unmarkedRun).WritesFor shared ⟨"a", vital, true⟩ .succeeded
        (.step 1) := by
  have h : History (StatusKept shared) (around 0 .empty) unmarkedRun
      ((around 0 .empty).after unmarkedRun) := .of_check (by decide +kernel)
  have hm : ((around 0 .empty).after unmarkedRun).Admits (.step 1) := by decide +kernel
  have hr : StatusKept shared ((around 0 .empty).after unmarkedRun) (.step 1) := by decide +kernel
  have hcrew : (((around 0 .empty).after unmarkedRun).crew "a" 1).map (fun k => k.phase.writes?) =
      some (some (vital, .succeeded)) := by decide +kernel
  obtain ⟨k, hk, hw⟩ := Option.map_eq_some_iff.mp hcrew
  have hlast : (around 0 .empty).lastTenant shared none unmarkedRun = some ⟨"a", vital, true⟩ := by
    decide +kernel
  obtain ⟨-, -, hwrites⟩ := status_lifecycle h hm hr
  obtain ⟨t, ht, hfor⟩ := hwrites 1 k vital .succeeded (crew_eq_some.mp hk).1 hw rfl
  cases hlast.symm.trans ht
  refine ⟨Option.map_eq_some_iff.mp ?_, Option.map_eq_some_iff.mp ?_, hlast, hfor⟩
  · decide +kernel
  · decide +kernel

end JobFleet.World
