import JobFleet.Proofs.Fleet.Conservation
import JobFleet.Proofs.Fleet.Dedup

/-!
# The tenant of a key

The job that has claimed a key last is the key's tenant as long as a job for the key is live. If
nobody else writes the key's status and the status outlives its jobs, then no other job for the key
waits at a runner or is in a worker's hands, and the status shows how far the tenant has come.
-/

namespace JobFleet

open Runner (Hand)

/-- A job that has claimed a key: the runner that took it in, and whether marking it as running has
failed since. -/
structure Tenant where
  runner : String
  job : Job
  unmarked : Bool
deriving DecidableEq

/-- Whether the next step of a worker fails to mark a job for a key as running. -/
def Worker.unmarks (key : JobKey) (k : Worker) (w : World) : Bool :=
  match k.phase with
  | .beginning t =>
      match (w.perform (statusCall (w.runnerConfig k.runner) t.job .running)).1 with
      | .ok _ => false
      | .error _ => t.job.key = key
  | _ => false

variable {key : JobKey} {w v : World} {m : Move} {name : String} {hand : Hand}

/-! ## Jobs in hand -/

namespace Worker

variable {k : Worker} {job : Job}

/-- A job in hand is live for its own key. -/
theorem Phase.lives_of_hand {p : Phase} (h : p.hand? = some hand) (key : JobKey) :
    p.lives key = if hand.job.key = key then 1 else 0 := by
  cases p <;> cases h <;> rfl

/-- Workers accept no jobs. -/
theorem episode?_ne_accepted : k.episode? w ≠ some (.accepted job) := by
  intro he
  unfold episode? at he
  split at he
  · obtain ⟨job', -, hjob⟩ := Option.map_eq_some_iff.mp he
    cases hjob
  · cases he
  · split at he <;> cases he
  all_goals cases he

/-- A worker starts a job by going on from marking it as running. -/
theorem begins_of_started (he : k.episode? w = some (.started job)) :
    ∃ t, k.phase = .beginning t ∧ k.records t.job .running w = true ∧ t.job.untried = job := by
  unfold episode? at he
  split at he
  · obtain ⟨job', -, hjob⟩ := Option.map_eq_some_iff.mp he
    cases hjob
  · cases he
  · rename_i t hp
    split at he
    · rename_i hrec
      cases he
      exact ⟨t, hp, hrec, rfl⟩
    · cases he
  all_goals cases he

end Worker

/-! ## Tenants -/

namespace World

/-- Whether a move fails to mark a job for a key as running. -/
def unmarks (key : JobKey) (w : World) : Move → Bool
  | .step id =>
      match w.tasks.find? id with
      | some (.worker k) => k.unmarks key w
      | _ => false
  | _ => false

/-- The job for a key that a move takes in, which claims the key. -/
def tenant? (key : JobKey) (w : World) : Move → Option Tenant
  | .step id =>
      ((w.tasks.find? id).bind Task.hands?).bind fun e =>
        match (e.step id w).1 with
        | .ended .enqueued => if e.job.key = key then some ⟨e.runner, e.job, false⟩ else none
        | _ => none
  | _ => none

/-- The tenant of a key after a move: the job that the move takes in, or the tenant before it unless
no job for the key is live any more. -/
def nextTenant (key : JobKey) (w : World) (last : Option Tenant) (m : Move) : Option Tenant :=
  match w.tenant? key m with
  | some t => some t
  | none =>
      if (w.move m).live key = 0 then none
      else last.map fun t => { t with unmarked := t.unmarked || w.unmarks key m }

/-- The tenant of a key after moves one after another, if the tenant before them is known. -/
def lastTenant (key : JobKey) (w : World) (last : Option Tenant) : List Move → Option Tenant
  | [] => last
  | m :: ms => (w.move m).lastTenant key (w.nextTenant key last m) ms

/-- The last tenant goes on one move at a time. -/
theorem lastTenant_snoc (key : JobKey) (w : World) (last : Option Tenant) (ms : List Move)
    (m : Move) :
    w.lastTenant key last (ms ++ [m]) =
      (w.after ms).nextTenant key (w.lastTenant key last ms) m := by
  induction ms generalizing w last with
  | nil => rfl
  | cons m' ms ih => exact ih (w.move m') _

variable {last : Option Tenant}

/-- A new tenant follows whoever was there. -/
theorem nextTenant_of_some {t : Tenant} (h : w.tenant? key m = some t) :
    w.nextTenant key last m = some t := by
  rw [nextTenant, h]

/-- While the job lives a tenant stays. -/
theorem nextTenant_of_none {t : Tenant} (h : w.tenant? key m = none)
    (hlive : 0 < (w.move m).live key) :
    w.nextTenant key (some t) m =
      some { t with unmarked := t.unmarked || w.unmarks key m } := by
  rw [nextTenant, h]
  exact if_neg (Nat.ne_of_gt hlive)

/-- A hand-in claims a key when its job for the key is taken in. -/
theorem tenant?_of_enqueued {id : TaskId} {t : Task} {e : Enqueue} (ht : w.tasks.find? id = some t)
    (hin : t.hands? = some e) (hended : e.job.key = key ∧ (e.step id w).1 = .ended .enqueued) :
    w.tenant? key (.step id) = some ⟨e.runner, e.job, false⟩ := by
  simp only [tenant?, ht, hin, Option.bind_some, hended.2]
  exact if_pos hended.1

/-- A hand-in claims a key only when its job for the key is taken in. -/
theorem tenant?_of_not_enqueued {id : TaskId} {t : Task} {e : Enqueue}
    (ht : w.tasks.find? id = some t) (hin : t.hands? = some e)
    (hnot : ¬ (e.job.key = key ∧ (e.step id w).1 = .ended .enqueued)) :
    w.tenant? key (.step id) = none := by
  simp only [tenant?, ht, hin, Option.bind_some]
  split
  · rename_i hended
    exact if_neg fun hkey => hnot ⟨hkey, hended⟩
  · rfl

/-- A task that hands in no job claims no key. -/
theorem tenant?_of_none {id : TaskId} {t : Task} (ht : w.tasks.find? id = some t)
    (hin : t.hands? = none) : w.tenant? key (.step id) = none := by
  simp only [tenant?, ht, hin, Option.bind_some, Option.bind_none]

/-! ## Jobs at a runner -/

/-- A job is at a runner: it waits there, or the runner's worker has it in hand. -/
def Carries (w : World) (name : String) (hand : Hand) : Prop :=
  ∃ r, w.runners.find? name = some r ∧ (w.account name r).Has hand

/-- A worker with a job in hand carries it. -/
theorem Carries.of_crew (hs : w.Staffed name) {i : TaskId} {k : Worker}
    (hk : w.crew name i = some k) (hh : k.phase.hand? = some hand) : w.Carries name hand := by
  obtain ⟨r, -, hr, -⟩ := hs.seat i k hk
  exact ⟨r, hr, .inHand ((hs.hand?_of_crew hk).trans hh)⟩

/-- A job in hand is live. -/
theorem weigh_of_hand {i : TaskId} {k : Worker} (ht : w.tasks.find? i = some (.worker k))
    (hh : k.phase.hand? = some hand) (hkey : hand.job.key = key) :
    w.tasks.weightAt (Task.weigh (Worker.Phase.lives key)) i = 1 := by
  rw [Table.weightAt_some ht, Task.weigh, Worker.Phase.lives_of_hand hh, if_pos hkey]

/-- A job that waits is in its key's queue. -/
theorem queued_pos {r : Runner} (hr : w.runners.find? name = some r) {job : Job}
    (hq : job ∈ r.pending) (hkey : job.key = key) : 0 < w.queued key := by
  have hle := Table.weightAt_le_total w.runners (Runner.queued key) name
  rw [Table.weightAt_some hr] at hle
  have hpos : 0 < r.queued key := List.countP_pos_iff.mpr ⟨job, hq, decide_eq_true hkey⟩
  exact Nat.lt_of_lt_of_le hpos hle

/-- A job at a runner is live. -/
theorem Carries.live (h : w.Carries name hand) (hkey : hand.job.key = key) : 0 < w.live key := by
  obtain ⟨r, hr, hhas⟩ := h
  unfold World.live
  cases hhas with
  | waits hq =>
      have hpos := queued_pos hr hq hkey
      omega
  | inHand hh =>
      obtain ⟨i, k, hk, hh'⟩ := hand?_eq_some hh
      have hle := Table.weightAt_le_total w.tasks (Task.weigh (Worker.Phase.lives key)) i
      rw [weigh_of_hand (crew_eq_some.mp hk).1 hh' hkey] at hle
      exact Nat.lt_of_lt_of_le hle (Nat.le_add_left _ _)

/-- A worker's job is the one at a runner, if there is at most one live job for their key. -/
theorem Carries.only (h : w.Carries name hand) (hkey : hand.job.key = key)
    (hone : w.live key ≤ 1) {i : TaskId} {k : Worker} {own : Hand}
    (ht : w.tasks.find? i = some (.worker k)) (hh : k.phase.hand? = some own)
    (hown : own.job.key = key) : own = hand := by
  obtain ⟨r, hr, hhas⟩ := h
  have hweigh := weigh_of_hand ht hh hown
  unfold World.live weigh at hone
  cases hhas with
  | waits hq =>
      have hpos := queued_pos hr hq hkey
      have hle := Table.weightAt_le_total w.tasks (Task.weigh (Worker.Phase.lives key)) i
      omega
  | inHand hin =>
      obtain ⟨j, k', hk', hh'⟩ := hand?_eq_some hin
      have ht' := (crew_eq_some.mp hk').1
      by_cases hij : i = j
      · subst hij
        rw [ht] at ht'
        cases ht'
        exact Option.some.inj (hh.symm.trans hh')
      · have hsum := w.tasks.weightAt_add_le_total (Task.weigh (Worker.Phase.lives key)) hij
        rw [hweigh, weigh_of_hand ht' hh' hkey] at hsum
        omega

/-- A job that is at a runner after a move was there before it, or has been accepted or started in
it. -/
theorem Regular.carried (h : w.Regular) (hs : w.Staffed name) (hm : w.Admits m)
    (hc : (w.move m).Carries name hand) :
    w.Carries name hand ∨
      (∃ job, w.episode? name m = some (.accepted job) ∧ hand = ⟨job.untried, false⟩) ∨
      ∃ job, w.episode? name m = some (.started job) ∧ hand = ⟨job, true⟩ ∧
        w.Carries name ⟨job, false⟩ := by
  obtain ⟨r', hr', hhas⟩ := hc
  cases hr : w.runners.find? name with
  | some r =>
      rcases (h.posts hs hm hr hr').has hhas with hwas | haccepted | ⟨job, he, hhand, hwas⟩
      · exact .inl ⟨r, hr, hwas⟩
      · exact .inr (.inl haccepted)
      · exact .inr (.inr ⟨job, he, hhand, r, hr, hwas⟩)
  | none =>
      obtain ⟨config, worker, rfl⟩ := (h.sound.founds hm hr).2 r' hr'
      cases hhas with
      | waits hq => cases hq
      | inHand hh => simp [account, hand?, hr', Runner.new] at hh

/-- A job for a key that is accepted claims the key. -/
theorem tenant?_of_accepted {job : Job} (he : w.episode? name m = some (.accepted job))
    (hkey : job.key = key) : w.tenant? key m = some ⟨name, job, false⟩ := by
  cases m with
  | step id =>
      obtain ⟨t, ht, he⟩ := Option.bind_eq_some_iff.mp he
      unfold Task.episode? at he
      split at he
      · exact absurd he Worker.episode?_ne_accepted
      · rename_i e hc hin
        split at he
        · rename_i hended
          split at he
          · rename_i hn
            cases he
            subst hn
            exact tenant?_of_enqueued ht hin ⟨hkey, hended⟩
          · cases he
        · cases he
      · cases he
  | _ => cases he

/-- A job that is started is that of a worker which goes on from marking it as running. -/
theorem begins_of_started {job : Job} (he : w.episode? name m = some (.started job)) :
    ∃ id k t, m = .step id ∧ w.tasks.find? id = some (.worker k) ∧ k.runner = name ∧
      k.phase = .beginning t ∧ k.records t.job .running w = true ∧ t.job.untried = job := by
  cases m with
  | step id =>
      obtain ⟨t, ht, he⟩ := Option.bind_eq_some_iff.mp he
      unfold Task.episode? at he
      split at he
      · rename_i k hk
        obtain ⟨rfl, hn⟩ := Task.crew?_eq_some.mp hk
        obtain ⟨t', hp, hrec, hjob⟩ := Worker.begins_of_started he
        exact ⟨id, k, t', rfl, ht, hn, hp, hrec, hjob⟩
      · split at he
        · split at he <;> cases he
        · cases he
      · cases he
  | _ => cases he

end World

/-! ## What is written on a key -/

namespace Worker

variable {k : Worker}

/-- A worker that goes on from marking a job for a key as running has marked it, or has failed to,
and then the job is critical. -/
theorem step_marks {t : Taken} (hp : k.phase = .beginning t) (hkey : t.job.key = key)
    (hrec : k.records t.job .running w = true) (hs : w.Spared key.statusKey)
    (hprompt : w.Prompt) :
    (k.step w).2.Says key .running ∨
      ((k.step w).2.entry key.statusKey = w.entry key.statusKey ∧ k.unmarks key w = true ∧
        t.job.criticality = .critical) := by
  obtain ⟨a, u, v, ha, hv, ⟨hw, ho⟩ | ⟨cause, hw, -, -⟩⟩ := k.writeStatus_eq t.job .running w
  · have hbooks : u.Via k.Books (k.step w).2 := by
      simp only [step, hp, goOn, markRunning, hw]
      exact k.booked ⟨rfl, rfl⟩ hv
    have hcalm : u.Calm key (k.step w).2 :=
      hbooks.calm (fun _ hd => hd.keeps.calms) (World.spared_of_perform hs ha)
    rcases statusCall_ends hs hprompt ha with ⟨hu, hfail⟩ | ⟨-, -, -, ⟨x, hx, htext⟩, -⟩
    · refine .inr ⟨(hu.trans hcalm).status, ?_, ho.resolve_left (hfail hkey)⟩
      cases a with
      | ok _ => exact absurd rfl (hfail hkey)
      | error cause => simp only [unmarks, hp, ha, hkey, decide_true]
    · exact .inl ⟨x, hcalm.status.trans hx, htext⟩
  · rw [records, hw] at hrec
    cases hrec

end Worker

namespace World

/-- What a move writes on a key, given the job that it takes in for the key: nothing; that the job
is queued, where the key was vacant; that the job which a worker calls next is running; or how a job
has ended. Otherwise the status lapses. -/
inductive Stamp (key : JobKey) (w : World) (m : Move) : Option Tenant → Prop
  | keeps (entry : (w.move m).entry key.statusKey = w.entry key.statusKey) : Stamp key w m none
  | lapses (h : w.Lapses key.statusKey m) : Stamp key w m none
  | claims {t : Tenant} (vacant : w.Vacant key) (marked : (w.move m).Says key .queued) :
      Stamp key w m (some t)
  | begins {id : TaskId} {k : Worker} {t : Taken} (hm : m = .step id)
      (ht : w.tasks.find? id = some (.worker k)) (hp : k.phase = .beginning t)
      (hkey : t.job.key = key)
      (calls : (w.move m).tasks.find? id = some (.worker (k.inPhase (.calling t))))
      (marked : (w.move m).Says key .running) : Stamp key w m none
  | closes {id : TaskId} {k : Worker} {job : Job} {status : JobStatus} (hm : m = .step id)
      (ht : w.tasks.find? id = some (.worker k)) (hw : k.phase.writes? = some (job, status))
      (hkey : job.key = key) (ended : status ≠ .running)
      (live : (w.move m).live key + 1 = w.live key) (marked : (w.move m).Says key status) :
      Stamp key w m none

/-- What a worker's step writes on a key. -/
theorem Sound.stamp_worker (h : w.Sound) {id : TaskId} {k : Worker}
    (ht : w.tasks.find? id = some (.worker k)) (hm : w.Admits (.step id))
    (hs : w.Spared key.statusKey) (hp : w.Prompt) :
    w.Stamp key (.step id) (w.tenant? key (.step id)) := by
  obtain ⟨hentry, -, -, hlive⟩ := h.step_worker ht hm key
  rw [tenant?_of_none ht rfl]
  cases (k.step_turn w).stamp hs hp with
  | keeps entry => exact .keeps (hentry.trans entry)
  | begins hph hkey calls marked =>
      obtain ⟨x, hx, htext⟩ := marked
      refine .begins rfl ht hph hkey ?_ ⟨x, hentry.trans hx, htext⟩
      rw [move_step_worker hm ht, put_find?, if_pos rfl, calls]
      rfl
  | closes hw hkey ended gone queued marked =>
      obtain ⟨x, hx, htext⟩ := marked
      have hlives := Worker.Phase.lives_of_writes hw hkey
      exact .closes rfl ht hw hkey ended (by omega) ⟨x, hentry.trans hx, htext⟩

/-- What the step of a task that hands in a job writes on a key. -/
theorem stamp_handIn (hfree : w.ReadsFree) {id : TaskId} {t : Task} {e : Enqueue}
    (ht : w.tasks.find? id = some t) (hin : t.handIn? = some e) (hm : w.Admits (.step id))
    (hs : w.Spared key.statusKey) (hp : w.Prompt) :
    w.Stamp key (.step id) (w.tenant? key (.step id)) := by
  rcases step_handIn ht hin hm hs with ⟨hands, hcalm⟩ | ⟨hands, hcalm⟩
  · rw [tenant?_of_none ht hands]
    exact .keeps hcalm.status
  · have hturn := e.step_turn id w
    have hreads : ∀ held, e.phase = .claiming held → Enqueue.Free held :=
      fun held hph => hfree id t e held ht hin hph
    rcases hturn.enqueues_or_calm hs hp hreads with ⟨hended, htakes⟩ | ⟨hnot, hc⟩
    · obtain ⟨x, hx, htext⟩ := htakes.marked
      rw [tenant?_of_enqueued ht hands hended]
      exact .claims htakes.vacant ⟨x, hcalm.status.trans hx, htext⟩
    · rw [tenant?_of_not_enqueued ht hands hnot]
      exact .keeps (hc.trans hcalm).status

/-- What a move writes on a key, if it does not intrude on the key's status and every reply
arrives. -/
theorem Sound.stamp (h : w.Sound) (hfree : w.ReadsFree) (hs : w.Spared key.statusKey)
    (hp : w.Prompt) (hm : w.Admits m) (hi : ¬ w.Intrudes key.statusKey m) :
    w.Stamp key m (w.tenant? key m) := by
  cases h.part hs hm hi with
  | works ht => exact h.stamp_worker ht hm hs hp
  | handsIn ht hin => exact stamp_handIn hfree ht hin hm hs hp
  | lapses hl => exact .lapses hl
  | idles calm weigh idle =>
      have hnone : w.tenant? key m = none := by
        cases m with
        | step id =>
            obtain ⟨t, ht, -⟩ := move_step hm
            exact tenant?_of_none ht (Task.hands?_of_none (idle id t rfl ht).2)
        | _ => rfl
      rw [hnone]
      exact .keeps calm.status

/-- Every write on the status is stamped by its tenant. -/
theorem Blocked.stamp (h : w.Blocked key) (hm : w.Admits m)
    (hi : ¬ w.Intrudes key.statusKey m) : w.Stamp key m (w.tenant? key m) :=
  h.sound.stamp h.reads h.spared h.prompt hm hi

/-! ## The tenant and its status -/

/-- What a key shows of its tenant before and after the tenant has begun: it is queued, or running,
or it is critical and has not been marked as running. -/
inductive Shows (key : JobKey) (w : World) (t : Tenant) : Bool → Prop
  | queued (marked : w.Says key .queued) : Shows key w t false
  | running (marked : w.Says key .running) : Shows key w t true
  | unmarked (marked : w.Says key .queued) (critical : t.job.criticality = .critical)
      (failed : t.unmarked = true) : Shows key w t true

/-- Every job for a key that is at a runner is the tenant, and the key shows how far it has come. -/
structure Tenanted (key : JobKey) (w : World) (last : Option Tenant) : Prop where
  blocked : w.Blocked key
  regular : w.Regular
  staffed : ∀ name, w.Staffed name
  tenant : ∀ name hand, w.Carries name hand → hand.job.key = key →
    ∃ t, last = some t ∧ t.runner = name ∧ t.job.untried = hand.job ∧ w.Shows key t hand.begun

variable {last : Option Tenant}

/-- What a status says is read off its entry. -/
theorem Says.of_entry {status : JobStatus} (h : w.Says key status)
    (he : v.entry key.statusKey = w.entry key.statusKey) : v.Says key status := by
  obtain ⟨x, hx, htext⟩ := h
  exact ⟨x, he.trans hx, htext⟩

/-- A key that is left alone goes on showing what it showed. -/
theorem Shows.of_entry {t : Tenant} {begun : Bool} (h : w.Shows key t begun)
    (he : v.entry key.statusKey = w.entry key.statusKey) (failed : Bool) :
    v.Shows key { t with unmarked := t.unmarked || failed } begun := by
  cases h with
  | queued marked => exact .queued (marked.of_entry he)
  | running marked => exact .running (marked.of_entry he)
  | unmarked marked critical hu =>
      exact .unmarked (marked.of_entry he) critical (by rw [hu, Bool.true_or])

/-- A job that stays at its runner stays the tenant. -/
theorem Tenanted.stays (h : w.Tenanted key last) (hm : w.Admits m) (hr : StatusKept key w m)
    {name : String} {hand : Hand} (hwas : w.Carries name hand)
    (hc : (w.move m).Carries name hand) (hkey : hand.job.key = key) :
    ∃ t, w.nextTenant key last m = some t ∧ t.runner = name ∧ t.job.untried = hand.job ∧
      (w.move m).Shows key t hand.begun := by
  obtain ⟨t, rfl, hrunner, hjob, hshows⟩ := h.tenant name hand hwas hkey
  have hbefore := hwas.live hkey
  have hafter := hc.live hkey
  have hone := h.blocked.one
  have hone' := (h.blocked.move hm hr).one
  have hstamp := h.blocked.stamp hm hr.1
  have hnext := fun hnone : w.tenant? key m = none =>
    nextTenant_of_none (t := t) hnone hafter
  generalize w.tenant? key m = made at hstamp hnext
  cases hstamp with
  | keeps entry => exact ⟨_, hnext rfl, hrunner, hjob, hshows.of_entry entry _⟩
  | lapses hl =>
      have hzero := hr.2.2 hl
      omega
  | claims vacant marked => exact absurd vacant (h.blocked.blocks hbefore)
  | begins he ht hp htkey calls marked =>
      have honly := hc.only hkey hone' calls rfl htkey
      subst honly
      exact ⟨_, hnext rfl, hrunner, hjob, .running marked⟩
  | closes he ht hw hjkey ended live marked => omega

/-- Every move keeps the tenant in place. -/
theorem Tenanted.move (h : w.Tenanted key last) (hm : w.Admits m) (hr : StatusKept key w m) :
    (w.move m).Tenanted key (w.nextTenant key last m) := by
  refine ⟨h.blocked.move hm hr, h.regular.move hm, ?_, ?_⟩
  · exact fun name => (h.staffed name).move h.regular hm
  intro name hand hc hkey
  rcases h.regular.carried (h.staffed name) hm hc with
    hwas | ⟨job, he, rfl⟩ | ⟨job, he, rfl, hwas⟩
  · exact h.stays hm hr hwas hc hkey
  · have hmade := tenant?_of_accepted he hkey
    have hstamp := h.blocked.stamp hm hr.1
    rw [hmade] at hstamp
    cases hstamp with
    | claims vacant marked => exact ⟨_, nextTenant_of_some hmade, rfl, rfl, .queued marked⟩
  · obtain ⟨t, rfl, hrunner, hjob, hshows⟩ := h.tenant name _ hwas hkey
    obtain ⟨id, k, taken, rfl, ht, -, hp, hrec, rfl⟩ := begins_of_started he
    have hnext := nextTenant_of_none (t := t) (tenant?_of_none ht rfl) (hc.live hkey)
    obtain ⟨hentry, -⟩ := h.blocked.sound.step_worker ht hm key
    refine ⟨_, hnext, hrunner, hjob, ?_⟩
    rcases Worker.step_marks hp hkey hrec h.blocked.spared h.blocked.prompt with
      hmarked | ⟨hsame, hfailed, hcritical⟩
    · exact .running (hmarked.of_entry hentry)
    · cases hshows with
      | queued marked =>
          refine .unmarked (marked.of_entry (hentry.trans hsame)) ?_ ?_
          · have hsame : t.job.untried.criticality = taken.job.untried.criticality := by rw [hjob]
            exact hsame.trans hcritical
          · have hmove : w.unmarks key (.step id) = true := by
              rw [unmarks, ht]
              exact hfailed
            rw [hmove, Bool.or_true]

/-- After every history that keeps to the rule, the tenant is in place. -/
theorem History.tenanted {utc : Int} {s : Store} {ms : List Move}
    (h : History (StatusKept key) (around utc s) ms w) :
    w.Tenanted key ((around utc s).lastTenant key none ms) := by
  induction h with
  | nil =>
      refine ⟨blocked_around key utc s, regular_around utc s, ?_, ?_⟩
      · exact fun name => staffed_around name utc s
      · rintro name hand ⟨r, hr, -⟩
        cases hr
  | @snoc ms v m h hm hr ih =>
      rw [lastTenant_snoc, h.after_eq]
      exact ih.move hm hr

end World

end JobFleet
