import JobFleet.Proofs.Fleet.Frame
import JobFleet.Proofs.Fleet.HandIns

/-!
# Live jobs of a key

A job is live from the claim that took it into a queue until its runner has recorded its end, or
has failed to. If nobody else writes the key's status and every reply arrives, a turn of a hand-in
takes a job in where the key was vacant, and a turn of a worker writes the status of a live job or
gives one up; every other turn leaves the key's jobs and its status alone.
-/

namespace JobFleet

/-- One if a worker has a job for a key in hand whose end is not recorded yet. -/
def Worker.Phase.lives (key : JobKey) (p : Worker.Phase) : Nat :=
  match p.job? with
  | some job => if job.key = key then 1 else 0
  | none => 0

/-- How many jobs for a key are in a runner's queue. -/
def Runner.queued (key : JobKey) (r : Runner) : Nat :=
  r.pending.countP fun job => job.key = key

namespace World

/-- How many jobs for a key are in a queue, over all runners. -/
def queued (key : JobKey) (w : World) : Nat := w.runners.total (Runner.queued key)

/-- How many jobs for a key are live, over all runners. -/
def live (key : JobKey) (w : World) : Nat := w.queued key + w.weigh (Worker.Phase.lives key)

/-- How often a job for a key has been taken into a queue. -/
def accepted (key : JobKey) (w : World) : Nat :=
  w.journal.countP fun x => x.2.accepts? = some key

/-- What two worlds agree on that differ in nothing that concerns a key but its tasks. -/
structure Calm (key : JobKey) (w v : World) : Prop where
  queued : v.queued key = w.queued key
  status : v.entry key.statusKey = w.entry key.statusKey
  accepted : v.accepted key = w.accepted key

/-- Nothing done is calm. -/
theorem Calm.refl (key : JobKey) (w : World) : w.Calm key w := ⟨rfl, rfl, rfl⟩

/-- Calm changes one after another are calm. -/
theorem Calm.trans {key : JobKey} {w u v : World} (h : w.Calm key u) (h' : u.Calm key v) :
    w.Calm key v :=
  ⟨h'.queued.trans h.queued, h'.status.trans h.status, h'.accepted.trans h.accepted⟩

end World

/-- A deed that does not touch a key: it takes no job for it in, writes no status of it, and
leaves queues alone. -/
def Deed.Calms (key : JobKey) : Deed → Prop
  | .record r _ => r.accepts? ≠ some key
  | .call c => c.2.target ≠ some key.statusKey
  | .runner _ f => ∀ r, (f r).pending = r.pending
  | _ => True

variable {key : JobKey} {w u v : World}

/-- What is entered in the books touches no key. -/
theorem Deed.Keeps.calms {d : Deed} (h : d.Keeps) : d.Calms key := by
  cases h with
  | @record r _ h =>
      have hn : r.accepts? ≠ some key := by
        rw [h.2]
        exact nofun
      exact hn
  | @runner name f h =>
      intro r
      have hp : (f r).bare.pending = r.bare.pending := by rw [h r]
      exact hp

/-- Nobody but a runner tells of a job that is taken in. -/
theorem Record.accepts?_of_ofRunner {r : Record} (h : r.ofRunner = false) : r.accepts? = none := by
  cases r with
  | logged e =>
      cases e with
      | runner e => cases e <;> first | rfl | cases h
      | _ => rfl
  | _ => rfl

/-- What is done aside touches no key. -/
theorem Deed.Aside.calms {d : Deed} (h : d.Aside) : d.Calms key := by
  cases d with
  | record r =>
      have hn : r.accepts? ≠ some key := by
        rw [Record.accepts?_of_ofRunner h]
        exact nofun
      exact hn
  | call c =>
      have hn : c.2.target = none := Call.Looks.target h
      have hne : c.2.target ≠ some key.statusKey := by
        rw [hn]
        exact nofun
      exact hne
  | runner name f => exact h.elim
  | _ => trivial

namespace World

/-- A call takes no job in. -/
theorem accepted_call (key : JobKey) {a : Answer} (w : World) (c : Call a) :
    (w.perform c).2.accepted key = w.accepted key := by
  rw [accepted, perform_journal]
  exact List.countP_cons_of_neg Bool.false_ne_true

/-- A call that does not write the status is calm. -/
theorem calm_perform {a : Answer} {c : Call a} {r : Except StoreError a.Value}
    (hs : w.Spared key.statusKey) (hc : c.target ≠ some key.statusKey)
    (ha : w.perform c = (r, u)) : w.Calm key u := by
  have hu : u = (w.perform c).2 := by rw [ha]
  subst hu
  refine ⟨?_, w.perform_entry_of_ne c hc hs, w.accepted_call key c⟩
  rw [queued, perform_runners, queued]

/-- A call that leaves the status as it was is calm. -/
theorem calm_perform_of_entry {a : Answer} {c : Call a} {r : Except StoreError a.Value}
    (ha : w.perform c = (r, u)) (h : u.entry key.statusKey = w.entry key.statusKey) :
    w.Calm key u := by
  have hu : u = (w.perform c).2 := by rw [ha]
  refine ⟨?_, h, ?_⟩
  · rw [hu, queued, perform_runners, queued]
  · rw [hu, accepted_call]

/-- A deed that does not touch a key is calm. -/
theorem calm_does {d : Deed} (hd : d.Calms key) (hs : w.Spared key.statusKey) :
    w.Calm key (w.does d) := by
  cases d with
  | record r =>
      refine ⟨rfl, rfl, List.countP_cons_of_neg ?_⟩
      rw [decide_eq_true_eq]
      exact hd
  | call c => exact calm_perform hs hd rfl
  | runner name f =>
      refine ⟨Table.total_modify_of_eq _ name ?_, rfl, rfl⟩
      intro r
      rw [Runner.queued, hd r, Runner.queued]
  | _ => exact ⟨rfl, rfl, rfl⟩

/-- Deeds that do not touch a key are calm. -/
theorem Via.calm {D : Deed → Prop} (h : w.Via D v) (hD : ∀ d, D d → d.Calms key)
    (hs : w.Spared key.statusKey) : w.Calm key v := by
  have hboth : w.Calm key v ∧ v.Spared key.statusKey := by
    refine h.keeps (P := fun u => w.Calm key u ∧ u.Spared key.statusKey) ?_ ⟨.refl key w, hs⟩
    rintro u d hd ⟨hc, hu⟩
    exact ⟨hc.trans (calm_does (hD d hd) hu), hu.inherits (does_network d)⟩
  exact hboth.1

/-- A call adds no fault that slips a write in under a key. -/
theorem spared_of_perform {a : Answer} {c : Call a} {r : Except StoreError a.Value} {k : String}
    (hs : w.Spared k) (ha : w.perform c = (r, u)) : u.Spared k := by
  have hu : u = (w.perform c).2 := by rw [ha]
  subst hu
  exact hs.inherits (w.perform_network c)

/-- A key's status says something. -/
def Says (key : JobKey) (w : World) (status : JobStatus) : Prop :=
  ∃ e, w.entry key.statusKey = some e ∧ e.value = status.text

/-- A key whose job may be handed in: its status says nothing, or that the last one failed. -/
def Vacant (key : JobKey) (w : World) : Prop :=
  w.entry key.statusKey = none ∨ w.Says key .failed

/-- A world in which one more job for a key has been taken into a queue, where the key was
vacant. -/
structure TakesIn (key : JobKey) (w v : World) : Prop where
  vacant : w.Vacant key
  marked : v.Says key .queued
  queued : v.queued key = w.queued key + 1
  accepted : v.accepted key = w.accepted key + 1

end World

/-! ## Hand-ins -/

namespace Enqueue

variable {e : Enqueue} {self : TaskId} {next : Progress Enqueue EnqueueOutcome}

/-- A claim that is granted has found the key vacant and has marked it as queued for its time. -/
theorem claim_granted {held : Option String} {ttl : Duration} (hs : w.Spared e.job.key.statusKey)
    (hfree : Free held) (ha : w.perform (e.claim ttl held) = (.ok true, u)) :
    w.Vacant e.job.key ∧
      u.entry e.job.key.statusKey = some ⟨JobStatus.queued.text, expiryOf w.now (some ttl)⟩ := by
  cases held with
  | none =>
      have he := w.perform_ends (.setIfAbsent e.job.key.statusKey JobStatus.queued.text (some ttl))
        rfl hs
      have ha' : w.perform (.setIfAbsent e.job.key.statusKey _ (some ttl)) = _ := ha
      rw [ha'] at he
      cases he with
      | answered effect entry =>
          simp only [Call.effect] at effect
          split at effect
          · cases effect
          · rename_i hn
            cases effect
            exact ⟨.inl (Option.not_isSome_iff_eq_none.mp hn), entry⟩
  | some raw =>
      have he := w.perform_ends
        (.replace e.job.key.statusKey raw JobStatus.queued.text (some ttl)) rfl hs
      have ha' : w.perform (.replace e.job.key.statusKey raw _ (some ttl)) = _ := ha
      rw [ha'] at he
      cases he with
      | answered effect entry =>
          simp only [Call.effect] at effect
          split at effect
          · rename_i hv
            cases effect
            obtain ⟨x, hx, hraw⟩ := Option.map_eq_some_iff.mp hv
            exact ⟨.inr ⟨x, hx, hraw.trans (hfree raw rfl)⟩, entry⟩
          · cases effect

/-- Reading a status is calm. -/
theorem calm_read {a : Except StoreError (Option String)} (hs : w.Spared key.statusKey)
    (ha : w.perform (Call.get e.job.key.statusKey) = (a, u)) : w.Calm key u := by
  have hc : (Call.get e.job.key.statusKey).target ≠ some key.statusKey := nofun
  exact World.calm_perform (a := .text) hs hc ha

/-- A claim leaves every other key's status as it was. -/
theorem calm_claim_of_ne {held : Option String} {ttl : Duration} {a : Except StoreError Bool}
    (hs : w.Spared key.statusKey) (hne : e.job.key ≠ key)
    (ha : w.perform (e.claim ttl held) = (a, u)) : w.Calm key u := by
  refine World.calm_perform (a := .flag) hs ?_ ha
  rw [claim_target]
  exact fun h => hne (statusKey_inj (Option.some.inj h))

/-- A claim that is not granted is calm. -/
theorem calm_denied {held : Option String} {ttl : Duration}
    {a : Except StoreError (Answer.Value .flag)}
    (hs : w.Spared key.statusKey) (hp : w.Prompt) (ha : w.perform (e.claim ttl held) = (a, u))
    (hne : a ≠ .ok true) : w.Calm key u := by
  by_cases hkey : e.job.key = key
  case neg => exact calm_claim_of_ne hs hkey ha
  subst hkey
  refine World.calm_perform_of_entry (a := .flag) ha ?_
  have hk : (e.claim ttl held).key? = some e.job.key.statusKey := by cases held <;> rfl
  have he := w.perform_ends (e.claim ttl held) hk hs
  rw [ha] at he
  cases he with
  | refused entry => exact entry
  | lost lossy entry => exact absurd hp lossy
  | answered effect entry =>
      cases held with
      | none =>
          simp only [claim, Call.effect] at effect
          split at effect
          · cases effect
            exact entry
          · cases effect
            exact absurd rfl hne
      | some raw =>
          simp only [claim, Call.effect] at effect
          split at effect
          · cases effect
            exact absurd rfl hne
          · cases effect
            exact entry

/-- A job at the end of a runner's queue. -/
theorem queued_push (key : JobKey) {name : String} {job : Job} {r : Runner}
    (hr : w.runners.find? name = some r) :
    (push w name job).queued key = w.queued key + if job.key = key then 1 else 0 := by
  have hadd : (w.modifyRunner name fun r => { r with pending := r.pending ++ [job] }).queued key =
      w.queued key + if job.key = key then 1 else 0 := by
    have ht := w.runners.total_modify (Runner.queued key) name
      fun r => { r with pending := r.pending ++ [job] }
    rw [Table.weightAt_some hr, Table.weightAt_some hr] at ht
    have hq : Runner.queued key { r with pending := r.pending ++ [job] } =
        r.queued key + if job.key = key then 1 else 0 := by
      simp only [Runner.queued, List.countP_append, List.countP_singleton, decide_eq_true_eq]
    have hw : (w.modifyRunner name fun r => { r with pending := r.pending ++ [job] }).queued key =
      (w.runners.modify name fun r => { r with pending := r.pending ++ [job] }).total
        (Runner.queued key) := rfl
    rw [hw, World.queued]
    omega
  unfold push
  rw [hr]
  simp only
  split
  · exact hadd
  · rw [← hadd]
    exact Table.total_modify_of_eq _ name fun _ => rfl

/-- A job that is pushed changes neither the journal nor the store, and takes no time. -/
theorem push_eq (w : World) (name : String) (job : Job) :
    (push w name job).journal = w.journal ∧ (push w name job).store = w.store ∧
      (push w name job).now = w.now := by
  unfold push
  split
  · exact ⟨rfl, rfl, rfl⟩
  · simp only
    split <;> exact ⟨rfl, rfl, rfl⟩

/-- What accepting a job does to a key. -/
theorem accept_spec (key : JobKey) {r : Runner} (hr : w.runners.find? e.runner = some r) :
    (e.accept w).2.queued key = w.queued key + (if e.job.key = key then 1 else 0) ∧
      (e.accept w).2.entry key.statusKey = w.entry key.statusKey ∧
      (e.accept w).2.accepted key = w.accepted key + if e.job.key = key then 1 else 0 := by
  have hr' : ((w.log (.runner (.enqueued e.job))).count e.runner fun s =>
      { s with enqueued := s.enqueued + 1 }).runners.find? e.runner =
      some { r with stats := { r.stats with enqueued := r.stats.enqueued + 1 } } := by
    refine (Table.find?_modify _ _ _ _).trans ?_
    rw [if_pos rfl]
    exact congrArg _ hr
  obtain ⟨hj, hst, hn⟩ := push_eq ((w.log (.runner (.enqueued e.job))).count e.runner fun s =>
    { s with enqueued := s.enqueued + 1 }) e.runner e.job
  refine ⟨?_, ?_, ?_⟩
  · have hleave : (e.accept w).2.queued key = (push ((w.log (.runner (.enqueued e.job))).count
        e.runner fun s => { s with enqueued := s.enqueued + 1 }) e.runner e.job).queued key :=
      Table.total_modify_of_eq _ _ fun _ => rfl
    rw [hleave, queued_push key hr']
    refine congrArg (· + _) ?_
    exact Table.total_modify_of_eq _ _ fun _ => rfl
  · have he : (e.accept w).2.entry key.statusKey = (push ((w.log (.runner (.enqueued e.job))).count
        e.runner fun s => { s with enqueued := s.enqueued + 1 }) e.runner e.job).entry
          key.statusKey := rfl
    rw [he, World.entry, hst, hn]
    rfl
  · have hc : (e.accept w).2.journal =
        (w.now, .logged (.runner (.enqueued e.job))) :: w.journal := hj
    rw [World.accepted, hc, List.countP_cons]
    simp only [Record.accepts?, Option.some.injEq, decide_eq_true_eq]
    rfl

/-- What a hand-in enters in the books touches no key. -/
theorem Books.calms {d : Deed} (h : e.Books d) : d.Calms key := h.keeps.calms

/-- A turn of a hand-in is calm, or takes its job in, which is for the key. -/
theorem Turn.calm_or_takesIn (h : e.Turn self w next v) (hs : w.Spared key.statusKey)
    (hp : w.Prompt) (hfree : ∀ held, e.phase = .claiming held → Free held) :
    w.Calm key v ∨ (e.job.key = key ∧ w.TakesIn key v) := by
  have hbooks : ∀ {u : World}, w.Calm key u → u.Spared key.statusKey → u.Via e.Books v →
      w.Calm key v :=
    fun hu hsu hv => hu.trans (hv.calm (fun _ hd => hd.calms) hsu)
  cases h with
  | homeless hr => exact .inl (.refl key w)
  | overflows hr hw hfull hv => exact .inl (hbooks (.refl key w) hs hv)
  | enters hr hw hroom => exact .inl (World.calm_does (d := .runner _ _) (fun _ => rfl) hs)
  | reads hr hw ha hf => exact .inl (calm_read hs ha)
  | declines hr hw ha hv => exact .inl (hbooks (calm_read hs ha) (World.spared_of_perform hs ha) hv)
  | misses hr hw ha hv => exact .inl (hbooks (calm_read hs ha) (World.spared_of_perform hs ha) hv)
  | @wins r held u hr hw ha =>
      have hr' : u.runners.find? e.runner = some r := by
        have h := w.perform_runners (e.claim r.config.queuedTtl held)
        rw [ha] at h
        rw [h, hr]
      obtain ⟨hq, he, hacc⟩ := accept_spec (e := e) key hr'
      by_cases hk : e.job.key = key
      · subst hk
        rw [if_pos rfl] at hq hacc
        obtain ⟨hvac, hx⟩ := claim_granted hs (hfree held hw) ha
        have hu := w.perform_runners (e.claim r.config.queuedTtl held)
        have hj := w.accepted_call e.job.key (e.claim r.config.queuedTtl held)
        rw [ha] at hu hj
        refine .inr ⟨rfl, hvac, ⟨_, he.trans hx, rfl⟩, ?_, by rw [hacc, hj]⟩
        rw [hq, World.queued, hu, World.queued]
      · rw [if_neg hk] at hq hacc
        exact .inl ((calm_claim_of_ne hs hk ha).trans ⟨hq, he, hacc⟩)
  | loses hr hw ha hv =>
      exact .inl (hbooks (calm_denied hs hp ha nofun) (World.spared_of_perform hs ha) hv)
  | fails hr hw ha hv =>
      exact .inl (hbooks (calm_denied hs hp ha nofun) (World.spared_of_perform hs ha) hv)

/-- Handing in a job ends with the job enqueued exactly in the turn that takes it into a queue. -/
theorem Turn.enqueued_iff (h : e.Turn self w next v) :
    next = .ended .enqueued ↔ w.accepted e.job.key < v.accepted e.job.key := by
  have hbooks : ∀ {u : World}, u.accepted e.job.key = w.accepted e.job.key → u.Via e.Books v →
      v.accepted e.job.key = w.accepted e.job.key := by
    intro u hu hv
    refine ((hv.booked fun _ hd => hd.keeps).records _ ?_).trans hu
    rintro x ⟨-, hx⟩
    rw [hx]
    rfl
  have hcall : ∀ {a : Answer} {c : Call a} {r : Except StoreError a.Value} {u : World},
      w.perform c = (r, u) → u.accepted e.job.key = w.accepted e.job.key := by
    intro a c r u ha
    have hu := w.accepted_call e.job.key c
    rwa [ha] at hu
  have hsame : v.accepted e.job.key = w.accepted e.job.key → next ≠ .ended .enqueued →
      (next = .ended .enqueued ↔ w.accepted e.job.key < v.accepted e.job.key) := by
    intro hv hne
    rw [hv]
    exact ⟨fun h => absurd h hne, fun h => absurd h (Nat.lt_irrefl _)⟩
  cases h with
  | homeless hr => exact hsame rfl nofun
  | overflows hr hw hfull hv => exact hsame (hbooks rfl hv) nofun
  | enters hr hw hroom => exact hsame rfl nofun
  | reads hr hw ha hfree => exact hsame (hcall (a := .text) ha) nofun
  | declines hr hw ha hv => exact hsame (hbooks (hcall (a := .text) ha) hv) nofun
  | misses hr hw ha hv => exact hsame (hbooks (hcall (a := .text) ha) hv) nofun
  | loses hr hw ha hv => exact hsame (hbooks (hcall (a := .flag) ha) hv) nofun
  | fails hr hw ha hv => exact hsame (hbooks (hcall (a := .flag) ha) hv) nofun
  | @wins r held u hr hw ha =>
      have hr' : u.runners.find? e.runner = some r := by
        have h := w.perform_runners (e.claim r.config.queuedTtl held)
        rw [ha] at h
        rw [h, hr]
      have hacc := (accept_spec (e := e) e.job.key hr').2.2
      rw [if_pos rfl, hcall (a := .flag) ha] at hacc
      exact ⟨fun _ => by omega, fun _ => rfl⟩

/-- A turn of a hand-in ends with its job for a key taken in, or leaves the key alone and ends
otherwise. -/
theorem Turn.enqueues_or_calm (h : e.Turn self w next v) (hs : w.Spared key.statusKey)
    (hp : w.Prompt) (hfree : ∀ held, e.phase = .claiming held → Free held) :
    (e.job.key = key ∧ next = .ended .enqueued) ∧ w.TakesIn key v ∨
      ¬ (e.job.key = key ∧ next = .ended .enqueued) ∧ w.Calm key v := by
  rcases h.calm_or_takesIn hs hp hfree with hc | ⟨rfl, htakes⟩
  · refine .inr ⟨?_, hc⟩
    rintro ⟨rfl, hended⟩
    have hlt := h.enqueued_iff.mp hended
    rw [hc.accepted] at hlt
    exact Nat.lt_irrefl _ hlt
  · have haccepted := htakes.accepted
    exact .inl ⟨⟨rfl, h.enqueued_iff.mpr (by omega)⟩, htakes⟩

end Enqueue

/-! ## Workers -/

namespace Worker

variable {k : Worker} {left : Option Worker}

/-- A job in hand counts for its own key. -/
theorem Phase.lives_of_job {p : Phase} {job : Job} (h : p.job? = some job) (key : JobKey) :
    p.lives key = if job.key = key then 1 else 0 := by
  rw [lives, h]

/-- Who has no job in hand counts for no key. -/
theorem Phase.lives_of_none {p : Phase} (h : p.job? = none) (key : JobKey) : p.lives key = 0 := by
  rw [lives, h]

/-- What a worker's turn does to a key: it leaves the status alone and loses no live job; it
writes the status of one; or it gives one up. -/
inductive Change (key : JobKey) (k : Worker) (w : World) (left : Option Worker) (v : World) : Prop
  | stays (live : v.queued key + (left.elim 0 fun k' => k'.phase.lives key) =
        w.queued key + k.phase.lives key)
      (status : v.entry key.statusKey = w.entry key.statusKey)
      (accepted : v.accepted key = w.accepted key)
  | writes {status : JobStatus} (had : k.phase.lives key = 1)
      (has : (left.elim 0 fun k' => k'.phase.lives key) = if status = .running then 1 else 0)
      (queued : v.queued key = w.queued key) (marked : v.Says key status)
      (accepted : v.accepted key = w.accepted key)
  | drops (had : k.phase.lives key = 1)
      (has : (left.elim 0 fun k' => k'.phase.lives key) = 0) (calm : w.Calm key v)

/-- A calm turn that leaves as much in hand as there was. -/
theorem Change.of_calm (h : w.Calm key v)
    (hl : (left.elim 0 fun k' => k'.phase.lives key) = k.phase.lives key) :
    Change key k w left v :=
  .stays (by rw [h.queued, hl]) h.status h.accepted

/-- How writing a job's status ends for a key: nothing happens to the key, although the job may
be for it, or the key says what was written. -/
theorem statusCall_ends {c : Runner.Config} {job : Job} {status : JobStatus}
    {a : Except StoreError (Answer.Value .nothing)} (hs : w.Spared key.statusKey) (hp : w.Prompt)
    (ha : w.perform (statusCall c job status) = (a, u)) :
    w.Calm key u ∧ (job.key = key → a ≠ .ok ()) ∨
      job.key = key ∧ a = .ok () ∧ u.queued key = w.queued key ∧ u.Says key status ∧
        u.accepted key = w.accepted key := by
  by_cases hk : job.key = key
  case neg =>
    refine .inl ⟨World.calm_perform hs ?_ ha, fun h => absurd h hk⟩
    exact fun h => hk (statusKey_inj (Option.some.inj h))
  subst hk
  have he := w.perform_ends (statusCall c job status) rfl hs
  have hq := w.perform_runners (statusCall c job status)
  have hj := w.accepted_call job.key (statusCall c job status)
  rw [ha] at he hq hj
  cases he with
  | answered effect entry =>
      cases effect
      refine .inr ⟨rfl, rfl, ?_, ⟨_, entry, rfl⟩, hj⟩
      rw [World.queued, hq, World.queued]
  | refused entry =>
      exact .inl ⟨World.calm_perform_of_entry ha entry, fun _ => nofun⟩
  | lost lossy entry => exact absurd hp lossy

/-- A turn that is about a job's end: its status is written, or the job is given up. -/
theorem Change.of_end {c : Runner.Config} {job : Job} {status : JobStatus}
    {a : Except StoreError (Answer.Value .nothing)} (hs : w.Spared key.statusKey) (hp : w.Prompt)
    (hj : k.phase.job? = some job)
    (ha : w.perform (statusCall c job status) = (a, u)) (hv : u.Via k.Books v)
    (hend : status ≠ .running ∨ a ≠ .ok ())
    (hleft : (left.elim 0 fun k' => k'.phase.lives key) = 0) : Change key k w left v := by
  have hcalm : u.Calm key v :=
    hv.calm (fun _ hd => hd.keeps.calms) (World.spared_of_perform hs ha)
  have hlives := Phase.lives_of_job hj key
  rcases statusCall_ends hs hp ha with ⟨hu, hfail⟩ | ⟨hk, hok, hq, ⟨x, hx, htext⟩, hacc⟩
  · by_cases hk : job.key = key
    · rw [if_pos hk] at hlives
      exact .drops hlives hleft (hu.trans hcalm)
    · rw [if_neg hk] at hlives
      exact .of_calm (hu.trans hcalm) (hleft.trans hlives.symm)
  · rw [if_pos hk] at hlives
    have hne : status ≠ .running := hend.resolve_right fun h => h hok
    exact .writes hlives (by rw [if_neg hne, hleft]) (hcalm.queued.trans hq)
      ⟨x, hcalm.status.trans hx, htext⟩ (hcalm.accepted.trans hacc)

/-- A job that has asked for a slot stays in hand. -/
theorem verdict_job? (job : Job) (a : Except StoreError Bool) :
    (verdict job a).job? = some job := by
  cases a with
  | ok b => cases b <;> rfl
  | error cause => rfl

/-- After a job its worker has none in hand. -/
theorem afterJob_job? (t : Taken) : (afterJob t).job? = none := by
  unfold afterJob
  split <;> rfl

/-- A call that has ended leaves a job for the same key in hand. -/
theorem Follows.lives {t : Taken} {p : Phase} (h : Follows t p) (key : JobKey) :
    p.lives key = if t.job.key = key then 1 else 0 := by
  cases h <;> rfl

/-- A call on the counter is calm. -/
theorem calm_counter {a : Answer} {c : Call a} {r : Except StoreError a.Value}
    (hs : w.Spared key.statusKey) (hc : c.target = some jobCounterKey)
    (ha : w.perform c = (r, u)) : w.Calm key u := by
  refine World.calm_perform hs ?_ ha
  rw [hc]
  exact fun h => statusKey_ne_jobCounterKey key (Option.some.inj h).symm

/-- A turn that is calm and leaves as much in hand as there was. -/
theorem Change.of_phase {p : Phase} (hp : k.phase = p) (h : w.Calm key v)
    (hl : (left.elim 0 fun k' => k'.phase.lives key) = p.lives key) : Change key k w left v := by
  refine .of_calm h ?_
  rw [hl, hp]

/-- Taking the first job out of the queue into hand loses no live job. -/
theorem Change.of_take {r : Runner} {job : Job} {rest : List Job} (hp : k.phase = .choosing)
    (hr : w.runners.find? k.runner = some r) (hq : r.pending = job :: rest) :
    Change key k w (some (k.inPhase (.admitting job)))
      (w.modifyRunner k.runner fun r => { r with pending := rest }) := by
  refine .stays ?_ rfl rfl
  have htotal := w.runners.total_modify (Runner.queued key) k.runner
    fun r => { r with pending := rest }
  rw [Table.weightAt_some hr, Table.weightAt_some hr] at htotal
  have hfirst : r.queued key = Runner.queued key { r with pending := rest } +
      if job.key = key then 1 else 0 := by
    simp only [Runner.queued, hq, List.countP_cons, decide_eq_true_eq]
  have hnew : (w.modifyRunner k.runner fun r => { r with pending := rest }).queued key =
    (w.runners.modify k.runner fun r => { r with pending := rest }).total (Runner.queued key) := rfl
  have hhas : (k.inPhase (.admitting job)).phase.lives key = if job.key = key then 1 else 0 := rfl
  have hhad : k.phase.lives key = 0 := by rw [hp]; rfl
  rw [Option.elim_some, hhas, hhad, hnew, World.queued]
  omega

/-- Beginning a job writes that it is running, or is calm. -/
theorem Change.of_beginning {t : Taken} {c : Runner.Config}
    {a : Except StoreError (Answer.Value .nothing)} (hs : w.Spared key.statusKey) (hp : w.Prompt)
    (hphase : k.phase = .beginning t) (ha : w.perform (statusCall c t.job .running) = (a, u))
    (hv : u.Via k.Books v) : Change key k w (some (k.inPhase (.calling t))) v := by
  have hcalm : u.Calm key v :=
    hv.calm (fun _ hd => hd.keeps.calms) (World.spared_of_perform hs ha)
  rcases statusCall_ends hs hp ha with ⟨hu, -⟩ | ⟨hk, -, hq, ⟨x, hx, htext⟩, hacc⟩
  · exact .of_phase hphase (hu.trans hcalm) rfl
  · have hlives : (Phase.beginning t).lives key = 1 := if_pos hk
    have hhas : (Phase.calling t).lives key = if JobStatus.running = .running then 1 else 0 :=
      hlives
    exact .writes (hphase ▸ hlives) hhas (hcalm.queued.trans hq)
      ⟨x, hcalm.status.trans hx, htext⟩ (hcalm.accepted.trans hacc)

/-- What every turn of a worker does to a key. -/
theorem Turn.change (h : k.Turn w left v) (hs : w.Spared key.statusKey) (hp : w.Prompt) :
    Change key k w left v := by
  have hbooks : ∀ {u : World}, w.Calm key u → u.Spared key.statusKey → u.Via k.Books v →
      w.Calm key v :=
    fun hu hsu hv => hu.trans (hv.calm (fun _ hd => hd.keeps.calms) hsu)
  have htell : ∀ {u : World} {e : Runner.Event}, (Record.logged (.runner e)).Plain →
      u.Spared key.statusKey → u.Calm key (tell u e) :=
    fun he hsu => World.calm_does (d := .record _ rfl) (Deed.Keeps.record he).calms hsu
  cases h with
  | starts hw => exact .of_phase hw (htell ⟨rfl, rfl⟩ hs) rfl
  | quits hw hc => exact .of_phase hw (.refl key w) rfl
  | takes hw hc hr hq => exact .of_take hw hr hq
  | idles hw hc hq =>
      refine .of_phase hw (.trans ?_ (htell ⟨rfl, rfl⟩ hs)) rfl
      refine World.calm_does (d := .runner _ _) ?_ hs
      intro r
      simp only
      split <;> rfl
  | waives hw hc => exact .of_phase hw (.refl key w) rfl
  | @asks job a _ hw hc ha =>
      exact .of_phase hw (calm_counter hs rfl ha) (Phase.lives_of_job (verdict_job? job a) key)
  | refuses hw ha hv => exact .of_end hs hp (by rw [hw]; rfl) ha hv (.inl nofun) rfl
  | begins hw ha ho hv => exact .of_beginning hs hp hw ha hv
  | @aborts t _ _ _ hw ha ho hv =>
      exact .of_end hs hp (by rw [hw]; rfl) ha hv (.inr nofun)
        (Phase.lives_of_none (afterJob_job? t) key)
  | calls hw => exact .of_phase hw ⟨rfl, rfl, rfl⟩ rfl
  | joins hw hgoal hv =>
      exact .of_phase hw (hbooks (World.calm_does (d := .remove _) trivial hs) hs hv)
        (hgoal.lives key)
  | @ends t status _ _ _ he ha hv =>
      refine .of_end hs hp he.job? ha hv (.inl ?_) (Phase.lives_of_none (afterJob_job? t) key)
      rintro rfl
      cases hw : k.phase <;> rw [hw] at he <;> cases he
  | resumes hw hc => exact .of_phase hw (.refl key w) rfl
  | abandons hw hc => exact .of_phase hw (.refl key w) rfl
  | releases hw ha => exact .of_phase hw (calm_counter hs rfl ha) rfl
  | retries hw ha hmore hv =>
      exact .of_phase hw (hbooks (calm_counter hs rfl ha) (World.spared_of_perform hs ha) hv) rfl
  | sticks hw ha hmore =>
      refine .of_phase hw ((calm_counter hs rfl ha).trans ?_) rfl
      exact World.calm_does (d := .record _ rfl) nofun (World.spared_of_perform hs ha)
  | rests hw => exact .of_phase hw (.refl key w) rfl

/-- The status that the next step of a worker writes, and the job that it writes it for. -/
def Phase.writes? : Phase → Option (Job × JobStatus)
  | .refusing job _ => some (job, .failed)
  | .beginning t => some (t.job, .running)
  | .succeeding t => some (t.job, .succeeded)
  | .exhausted t => some (t.job, .failed)
  | .abandoning t => some (t.job, .failed)
  | _ => none

/-- A job whose end is about to be written is live. -/
theorem Phase.lives_of_writes {p : Phase} {job : Job} {status : JobStatus}
    (h : p.writes? = some (job, status)) (hkey : job.key = key) : p.lives key = 1 := by
  cases p <;> cases h <;> exact if_pos hkey

/-- What a worker's turn writes on a key: nothing; that its job is running, which it calls next; or
how its job has ended, which it has in hand no longer. -/
inductive Stamp (key : JobKey) (k : Worker) (w : World) (left : Option Worker) (v : World) : Prop
  | keeps (entry : v.entry key.statusKey = w.entry key.statusKey)
  | begins {t : Taken} (hp : k.phase = .beginning t) (hkey : t.job.key = key)
      (calls : left = some (k.inPhase (.calling t))) (marked : v.Says key .running)
  | closes {job : Job} {status : JobStatus} (hw : k.phase.writes? = some (job, status))
      (hkey : job.key = key) (ended : status ≠ .running)
      (gone : (left.elim 0 fun k' => k'.phase.lives key) = 0)
      (queued : v.queued key = w.queued key) (marked : v.Says key status)

/-- A turn that writes how a job has ended writes that on the job's key, or nothing. -/
theorem Stamp.of_end {c : Runner.Config} {job : Job} {status : JobStatus} {u : World}
    {a : Except StoreError (Answer.Value .nothing)} (hs : w.Spared key.statusKey) (hp : w.Prompt)
    (hw : k.phase.writes? = some (job, status)) (hne : status ≠ .running)
    (ha : w.perform (statusCall c job status) = (a, u)) (hv : u.Via k.Books v)
    (hleft : (left.elim 0 fun k' => k'.phase.lives key) = 0) : Stamp key k w left v := by
  have hcalm : u.Calm key v :=
    hv.calm (fun _ hd => hd.keeps.calms) (World.spared_of_perform hs ha)
  rcases statusCall_ends hs hp ha with ⟨hu, -⟩ | ⟨hkey, -, hq, ⟨x, hx, htext⟩, -⟩
  · exact .keeps (hu.trans hcalm).status
  · exact .closes hw hkey hne hleft (hcalm.queued.trans hq) ⟨x, hcalm.status.trans hx, htext⟩

/-- What every turn of a worker writes on a key. -/
theorem Turn.stamp (h : k.Turn w left v) (hs : w.Spared key.statusKey) (hp : w.Prompt) :
    Stamp key k w left v := by
  cases h with
  | asks hw hc ha => exact .keeps (calm_counter hs rfl ha).status
  | @refuses job _ _ _ _ hw ha hv =>
      have hwrites : k.phase.writes? = some (job, .failed) := by
        rw [hw]
        rfl
      exact .of_end hs hp hwrites nofun ha hv rfl
  | @begins t a u v hw ha ho hv =>
      have hcalm : u.Calm key v :=
        hv.calm (fun _ hd => hd.keeps.calms) (World.spared_of_perform hs ha)
      rcases statusCall_ends hs hp ha with ⟨hu, -⟩ | ⟨hkey, -, -, ⟨x, hx, htext⟩, -⟩
      · exact .keeps (hu.trans hcalm).status
      · exact .begins hw hkey rfl ⟨x, hcalm.status.trans hx, htext⟩
  | aborts hw ha ho hv =>
      have hcalm := hv.calm (fun _ hd => hd.keeps.calms) (World.spared_of_perform hs ha)
      rcases statusCall_ends hs hp ha with ⟨hu, -⟩ | ⟨-, hok, -⟩
      · exact .keeps (hu.trans hcalm).status
      · cases hok
  | joins hw hgoal hv => exact .keeps (hv.calm (fun _ hd => hd.keeps.calms) hs).status
  | @ends t status _ _ _ he ha hv =>
      have hw : k.phase.writes? = some (t.job, status) := by
        generalize k.phase = p at he
        cases he <;> rfl
      refine .of_end hs hp hw ?_ ha hv (Phase.lives_of_none (afterJob_job? t) key)
      rintro rfl
      generalize k.phase = p at he
      cases he
  | releases hw ha => exact .keeps (calm_counter hs rfl ha).status
  | retries hw ha hmore hv =>
      have hcalm := hv.calm (fun _ hd => hd.keeps.calms) (World.spared_of_perform hs ha)
      exact .keeps ((calm_counter hs rfl ha).trans hcalm).status
  | sticks hw ha hmore => exact .keeps (calm_counter hs rfl ha).status
  | _ => exact .keeps rfl

end Worker

end JobFleet
