import JobFleet.Proofs.Fleet.Live

/-!
# What a move does to a key

If nobody else writes a key's status and every reply arrives, a move does one of a few things to
the key: it leaves its live jobs and its status alone, takes a job in where the key was vacant,
writes the status of a live job, gives a live job up, or lets the status lapse.
-/

namespace JobFleet

variable {key : JobKey} {w v : World}

namespace World

/-- What a move does to a key. -/
inductive Fate (key : JobKey) (w : World) (m : Move) : Prop
  | stays (live : (w.move m).live key = w.live key)
      (status : (w.move m).entry key.statusKey = w.entry key.statusKey)
      (accepted : (w.move m).accepted key = w.accepted key)
  | takes (vacant : w.Vacant key) (live : (w.move m).live key = w.live key + 1)
      (status : (w.move m).Says key .queued)
      (accepted : (w.move m).accepted key = w.accepted key + 1)
  | writes {status : JobStatus} (some : 0 < w.live key)
      (live : (w.move m).live key + (if status = .running then 0 else 1) = w.live key)
      (marked : (w.move m).Says key status)
      (accepted : (w.move m).accepted key = w.accepted key)
  | drops (live : (w.move m).live key + 1 = w.live key)
      (status : (w.move m).entry key.statusKey = w.entry key.statusKey)
      (accepted : (w.move m).accepted key = w.accepted key)
  | lapses (h : w.Lapses key.statusKey m) (live : (w.move m).live key = w.live key)
      (accepted : (w.move m).accepted key = w.accepted key)

end World

/-- What a task that is neither a worker nor handing in may do does not touch a key, unless it
intrudes. -/
theorem Task.MayDo.calms {t : Task} {d : Deed} {id : TaskId} (h : Task.MayDo w t d)
    (ht : w.tasks.find? id = some t) (hin : t.handIn? = none) (hs : t.sort ≠ .worker)
    (hi : ¬ w.Intrudes key.statusKey (.step id)) : d.Calms key := by
  have hwrites : ¬ t.Writes key.statusKey := by
    intro hw
    generalize hk : key.statusKey = k at hw hi
    cases hw with
    | claim hc _ =>
        rw [hin] at hc
        cases hc
    | counter hw =>
        subst hw
        exact hs rfl
    | status hw _ =>
        subst hw
        exact hs rfl
    | scribble hw =>
        refine hi ?_
        rw [World.Intrudes, ht]
        exact hw
    | attempts _ _ => exact counterKey_ne_statusKey _ _ hk.symm
    | lock _ => exact lockKey_ne_statusKey _ _ hk.symm
  have hspares := h.spares hwrites
  cases d with
  | call c => exact hspares
  | record r =>
      have hn : r.accepts? = none := by
        cases h with
        | aside h => exact Record.accepts?_of_ofRunner h
        | handIn hc _ =>
            rw [hin] at hc
            cases hc
        | worker hw _ =>
            subst hw
            exact absurd rfl hs
        | stopRecord _ => rfl
        | control _ h =>
            cases h with
            | aside h => exact Record.accepts?_of_ofRunner h
      have hne : r.accepts? ≠ some key := by
        rw [hn]
        rintro ⟨⟩
      exact hne
  | runner name f =>
      cases h with
      | aside h => exact h.elim
      | handIn hc _ =>
          rw [hin] at hc
          cases hc
      | worker hw _ =>
          subst hw
          exact absurd rfl hs
      | stopRunner _ h => exact fun r => (h r).2.1
      | control _ h =>
          cases h with
          | aside h => exact h.elim
  | _ => trivial

namespace World

/-- Writing a task back leaves the key alone. -/
theorem Calm.put (h : w.Calm key v) (id : TaskId) (left : Option Task) :
    w.Calm key (v.put id left) where
  queued := (congrArg (fun s => s.total (Runner.queued key)) (put_runners v id left)).trans h.queued
  status := (put_entry v id left _).trans h.status
  accepted :=
    (congrArg (fun j => j.countP fun x => x.2.accepts? = some key) (put_journal v id left)).trans
      h.accepted

/-- A move that leaves the key alone changes no fate. -/
theorem Fate.of_calm {m : Move} (h : w.Calm key (w.move m))
    (hw : (w.move m).weigh (Worker.Phase.lives key) = w.weigh (Worker.Phase.lives key)) :
    w.Fate key m :=
  .stays (by rw [live, h.queued, hw, live]) h.status h.accepted

/-- A set-up leaves every key alone. -/
theorem SetUp.calm (h : w.SetUp v) : w.Calm key v where
  queued := by
    rcases h.runners with he | ⟨name, config, worker, hn, -, he⟩
    · rw [queued, he, queued]
    · have ht := w.runners.total_insert (Runner.queued key) name (.new config worker)
      rw [Table.weightAt_none hn] at ht
      rw [queued, he]
      exact ht
  status := by
    rw [entry, entry, h.store, h.now]
  accepted := by
    rcases h.journal with he | ⟨e, he⟩
    · rw [accepted, he, accepted]
    · rw [accepted, he]
      exact List.countP_cons_of_neg Bool.false_ne_true

/-- A worker's step leaves on a key what its turn leaves, and trades the job that the worker had in
hand for the one that it has in hand then. -/
theorem Sound.step_worker (h : w.Sound) {id : TaskId} {k : Worker}
    (ht : w.tasks.find? id = some (.worker k)) (hm : w.Admits (.step id)) (key : JobKey) :
    (w.move (.step id)).entry key.statusKey = (k.step w).2.entry key.statusKey ∧
      (w.move (.step id)).accepted key = (k.step w).2.accepted key ∧
      k.phase.lives key ≤ w.live key ∧
      (w.move (.step id)).live key + w.queued key + k.phase.lives key =
        w.live key + (k.step w).2.queued key +
          (k.step w).1.state?.elim 0 fun k' => k'.phase.lives key := by
  have hv := move_step_worker hm ht
  have hweigh := h.turn_weigh ht (k.step_turn w) (Worker.Phase.lives key) rfl
  have hle := Table.weightAt_le_total w.tasks (Task.weigh (Worker.Phase.lives key)) id
  rw [Table.weightAt_some ht] at hle
  have hqueued : (w.move (.step id)).queued key = (k.step w).2.queued key := by
    rw [hv, queued, put_runners, queued]
  rw [← hv] at hweigh
  refine ⟨by rw [hv, put_entry], by rw [hv, accepted, put_journal, accepted], ?_, ?_⟩
  · exact Nat.le_trans hle (Nat.le_add_left _ _)
  · unfold live
    omega

/-- What a worker's step does to a key. -/
theorem Sound.fate_worker (h : w.Sound) {id : TaskId} {k : Worker}
    (ht : w.tasks.find? id = some (.worker k)) (hm : w.Admits (.step id))
    (hs : w.Spared key.statusKey) (hp : w.Prompt) : w.Fate key (.step id) := by
  obtain ⟨hentry, haccepted, hle, hlive⟩ := h.step_worker ht hm key
  cases (k.step_turn w).change hs hp with
  | stays live status accepted =>
      exact .stays (by omega) (hentry.trans status) (haccepted.trans accepted)
  | @writes status had has queued marked accepted =>
      obtain ⟨x, hx, htext⟩ := marked
      have hmarked : (w.move (.step id)).Says key status := ⟨x, hentry.trans hx, htext⟩
      refine .writes (by omega) ?_ hmarked (haccepted.trans accepted)
      split at has <;> split <;> first | omega | contradiction
  | drops had has calm =>
      have hqueued := calm.queued
      exact .drops (by omega) (hentry.trans calm.status) (haccepted.trans calm.accepted)

/-- The step of a task that is no worker leaves the jobs in hand alone. -/
theorem Sound.weigh_step (h : w.Sound) {id : TaskId} {t : Task} (ht : w.tasks.find? id = some t)
    (hsort : t.sort ≠ .worker) (hm : w.Admits (.step id)) (key : JobKey) :
    (w.move (.step id)).weigh (Worker.Phase.lives key) = w.weigh (Worker.Phase.lives key) := by
  refine h.move_weigh hm ?_ _ rfl
  rintro id' k ⟨⟩
  rw [ht]
  rintro ⟨⟩
  exact hsort rfl

/-- A move that takes no step leaves the jobs in hand alone. -/
theorem Sound.weigh_of_still (h : w.Sound) {m : Move} (hm : w.Admits m)
    (hstep : ∀ id, m ≠ .step id) (key : JobKey) :
    (w.move m).weigh (Worker.Phase.lives key) = w.weigh (Worker.Phase.lives key) :=
  h.move_weigh hm (fun id _ he => absurd he (hstep id)) _ rfl

/-- The step of a task that hands in a job leaves a key alone if the job is given up, and otherwise
leaves on it what the hand-in leaves. -/
theorem step_handIn {id : TaskId} {t : Task} {e : Enqueue} (ht : w.tasks.find? id = some t)
    (hin : t.handIn? = some e) (hm : w.Admits (.step id)) (hs : w.Spared key.statusKey) :
    t.hands? = none ∧ w.Calm key (w.move (.step id)) ∨
      t.hands? = some e ∧ (e.step id w).2.Calm key (w.move (.step id)) := by
  obtain ⟨t', ht', -, he⟩ := move_step hm
  cases ht.symm.trans ht'
  rw [he]
  cases Task.act_handIn id w hin with
  | givesUp hands _ hv =>
      refine .inl ⟨hands, Calm.put ?_ id _⟩
      rw [hv]
      refine calm_does (d := .runner _ _) ?_ hs
      intro r
      simp only
      split <;> rfl
  | steps hands aside _ =>
      have hsu : (e.step id w).2.Spared key.statusKey := hs.inherits (e.step_via id w).network
      exact .inr ⟨hands, (aside.calm (fun _ hd => hd.calms) hsu).put id _⟩

/-- What the step of a task that hands in a job does to a key. -/
theorem Sound.fate_handIn (h : w.Sound) (hfree : w.ReadsFree) {id : TaskId} {t : Task}
    {e : Enqueue} (ht : w.tasks.find? id = some t) (hin : t.handIn? = some e)
    (hm : w.Admits (.step id)) (hs : w.Spared key.statusKey) (hp : w.Prompt) :
    w.Fate key (.step id) := by
  have hw := h.weigh_step ht (Task.sort_of_handIn hin) hm key
  rcases step_handIn ht hin hm hs with ⟨-, hcalm⟩ | ⟨-, hcalm⟩
  · exact .of_calm hcalm hw
  · rcases (e.step_turn id w).calm_or_takesIn hs hp fun held hph => hfree id t e held ht hin hph
      with hc | ⟨-, hc⟩
    · exact .of_calm (hc.trans hcalm) hw
    · obtain ⟨x, hx, htext⟩ := hc.marked
      refine .takes hc.vacant ?_ ⟨x, hcalm.status.trans hx, htext⟩
        (hcalm.accepted.trans hc.accepted)
      have hq := hcalm.queued
      have hq' := hc.queued
      unfold live
      omega

/-- The step of a task that is neither a worker nor handing in leaves a key alone. -/
theorem calm_of_idle {id : TaskId} {t : Task} (ht : w.tasks.find? id = some t)
    (hin : t.handIn? = none) (hsort : t.sort ≠ .worker) (hm : w.Admits (.step id))
    (hs : w.Spared key.statusKey) (hi : ¬ w.Intrudes key.statusKey (.step id)) :
    w.Calm key (w.move (.step id)) := by
  obtain ⟨t', ht', -, he⟩ := move_step hm
  cases ht.symm.trans ht'
  rw [he]
  refine Calm.put ?_ id _
  exact (t.act_via id w).calm (fun _ hd => hd.calms ht hin hsort hi) hs

/-- A move that takes no step and lets no time pass leaves a key alone. -/
theorem calm_of_still {m : Move} (hm : w.Admits m) (hs : w.Spared key.statusKey)
    (hi : ¬ w.Intrudes key.statusKey m) (hstep : ∀ id, m ≠ .step id) (hpass : ∀ t, m ≠ .pass t) :
    w.Calm key (w.move m) := by
  cases hset : m.setsUp with
  | true => exact (move_setUp hset hm).calm
  | false =>
      cases m with
      | step id => exact absurd rfl (hstep id)
      | pass t => exact absurd rfl (hpass t)
      | call c => exact calm_perform hs hi rfl
      | launch o => exact ⟨rfl, rfl, rfl⟩
      | collect id => exact ⟨rfl, rfl, rfl⟩
      | disturb f => exact ⟨rfl, rfl, rfl⟩
      | reach value => exact ⟨rfl, rfl, rfl⟩
      | _ => cases hset

/-- The part that a move plays for a key: a worker's step, a hand-in's step, time in which the
status lapses, or none, and then no worker and no hand-in takes a step. -/
inductive Part (key : JobKey) (w : World) : Move → Prop
  | works {id : TaskId} {k : Worker} (ht : w.tasks.find? id = some (.worker k)) :
      Part key w (.step id)
  | handsIn {id : TaskId} {t : Task} {e : Enqueue} (ht : w.tasks.find? id = some t)
      (hin : t.handIn? = some e) : Part key w (.step id)
  | lapses {t : Nat} (h : w.Lapses key.statusKey (.pass t)) : Part key w (.pass t)
  | idles {m : Move} (calm : w.Calm key (w.move m))
      (weigh : (w.move m).weigh (Worker.Phase.lives key) = w.weigh (Worker.Phase.lives key))
      (idle : ∀ id t, m = .step id → w.tasks.find? id = some t →
        t.sort ≠ .worker ∧ t.handIn? = none) : Part key w m

/-- The part of every move that does not intrude on a key's status. -/
theorem Sound.part (h : w.Sound) (hs : w.Spared key.statusKey) {m : Move} (hm : w.Admits m)
    (hi : ¬ w.Intrudes key.statusKey m) : w.Part key m := by
  cases m with
  | step id =>
      obtain ⟨t, ht, -⟩ := move_step hm
      by_cases hsort : t.sort = .worker
      · cases t with
        | worker k => exact .works ht
        | _ => cases hsort
      · cases hin : t.handIn? with
        | some e => exact .handsIn ht hin
        | none =>
            refine .idles (calm_of_idle ht hin hsort hm hs hi) (h.weigh_step ht hsort hm key) ?_
            rintro id' t' ⟨⟩ ht'
            cases ht.symm.trans ht'
            exact ⟨hsort, hin⟩
  | pass t =>
      by_cases hl : w.Lapses key.statusKey (.pass t)
      · exact .lapses hl
      · exact .idles ⟨rfl, entry_pass hm hl, rfl⟩ rfl (by rintro _ _ ⟨⟩)
  | _ =>
      have hcalm := calm_of_still hm hs hi nofun nofun
      exact .idles hcalm (h.weigh_of_still hm nofun key) (by rintro _ _ ⟨⟩)

/-- What a move does to a key, if it does not intrude on the key's status and every reply
arrives. -/
theorem Sound.fate (h : w.Sound) (hfree : w.ReadsFree) (hs : w.Spared key.statusKey)
    (hp : w.Prompt) {m : Move} (hm : w.Admits m) (hi : ¬ w.Intrudes key.statusKey m) :
    w.Fate key m := by
  cases h.part hs hm hi with
  | works ht => exact h.fate_worker ht hm hs hp
  | handsIn ht hin => exact h.fate_handIn hfree ht hin hm hs hp
  | lapses hl => exact .lapses hl rfl rfl
  | idles calm weigh idle => exact .of_calm calm weigh

end World

end JobFleet
