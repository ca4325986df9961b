import JobFleet.Proofs.Fleet.Conservation
import JobFleet.Proofs.Fleet.Roles
import JobFleet.Proofs.Runner.Trial

/-!
# How often a job is tried

A worker that has admitted a job calls its handler until a call succeeds or no call is left, and
waits longer after every failure. If it is not cancelled and the store answers its calls, the moves
of others leave the job where it is, and what stands in the worker's diary in the course of a
history is determined by how the calls end.
-/

namespace JobFleet

open Runner (Episode Item)

namespace World

/-- What stands in the diary of a worker of a runner of a move. -/
def jots (name : String) (i : TaskId) (w : World) : Move → Diary
  | .step id =>
      match w.crew name id with
      | some k => if id = i then k.jots w else .blank
      | none => .blank
  | _ => .blank

/-- The diary of a worker of a runner, of moves one after another. -/
def diary (name : String) (i : TaskId) (w : World) : List Move → Diary
  | [] => .blank
  | m :: ms => (w.jots name i m).append (diary name i (w.move m) ms)

/-- The diary goes on one move at a time. -/
theorem diary_snoc (name : String) (i : TaskId) (w : World) (ms : List Move) (m : Move) :
    w.diary name i (ms ++ [m]) = (w.diary name i ms).append ((w.after ms).jots name i m) := by
  induction ms generalizing w with
  | nil => simp [diary]
  | cons m' ms ih => simp [diary, ih, Diary.append_assoc]

end World

/-! ## The moves of a trial -/

/-- Whether a move is a step of a task. -/
def Move.isStep (i : TaskId) : Move → Bool
  | .step id => id = i
  | _ => false

namespace World

variable {u v w : World} {name : String} {i : TaskId} {t : Taken} {c : Runner.Config}
  {prompt alone : Prop} {d : Diary} {k : Worker} {m : Move}

/-- A move before which a worker of a runner carries out a job and has not been cancelled; if the
move is a step of the worker, the store answers what it writes. -/
def Pursues (name : String) (i : TaskId) (w : World) (m : Move) : Prop :=
  match w.crew name i with
  | some k => k.cancelled = false ∧ k.phase.pursues?.isSome = true ∧
      (m.isStep i = true → k.answered w = true)
  | none => False

instance (name : String) (i : TaskId) (w : World) (m : Move) : Decidable (w.Pursues name i m) :=
  match h : w.crew name i with
  | some k => decidable_of_iff (k.cancelled = false ∧ k.phase.pursues?.isSome = true ∧
      (m.isStep i = true → k.answered w = true)) (by simp [Pursues, h])
  | none => .isFalse (by simp [Pursues, h])

/-- A pursuit is a worker's, that nobody has cancelled. -/
theorem Pursues.crew (h : w.Pursues name i m) : ∃ k, w.crew name i = some k ∧
    k.cancelled = false ∧ k.phase.pursues?.isSome = true ∧
      (m = .step i → k.answered w = true) := by
  unfold Pursues at h
  cases hk : w.crew name i with
  | none =>
      rw [hk] at h
      exact h.elim
  | some k =>
      rw [hk] at h
      obtain ⟨hc, hp, ha⟩ := h
      refine ⟨k, rfl, hc, hp, ?_⟩
      rintro rfl
      exact ha (by simp [Move.isStep])

/-- A move that does not keep a task waiting: no time passes while the task can go on, nor past an
instant that it waits for. -/
def Heeds (i : TaskId) (w : World) : Move → Prop
  | .pass t => w.enabled i = false ∧
      ∀ a ∈ ((w.tasks.find? i).map Task.alarms).getD [], t ≤ a
  | _ => True

instance (i : TaskId) (w : World) (m : Move) : Decidable (w.Heeds i m) :=
  match m with
  | .pass t => inferInstanceAs (Decidable (w.enabled i = false ∧
      ∀ a ∈ ((w.tasks.find? i).map Task.alarms).getD [], t ≤ a))
  | .step _ | .turn _ | .favour _ | .launch _ | .collect _ | .disturb _ | .reach _ | .call _
  | .openGate .. | .handler _ | .runner .. | .scheduler .. | .limiter .. | .lock .. | .app ..
  | .update .. => .isTrue trivial

/-- A move in which nobody but a task writes a key: it leaves what is there, unless that lapses. -/
def LeftTo (key : String) (i : TaskId) (w : World) (m : Move) : Prop :=
  m.isStep i = true ∨ (w.move m).entry key = w.entry key ∨ w.Lapses key m

instance (key : String) (i : TaskId) (w : World) (m : Move) : Decidable (w.LeftTo key i m) :=
  inferInstanceAs (Decidable
    (m.isStep i = true ∨ (w.move m).entry key = w.entry key ∨ w.Lapses key m))

/-- What there is of an entry that nobody writes at a later instant. -/
theorem LeftTo.entry {key : String} (h : w.LeftTo key i m) (hm : w.Admits m) (hstep : m ≠ .step i)
    {e : Entry} (he : w.entry key = (some e).filter (Entry.live w.now)) :
    (w.move m).entry key = (some e).filter (Entry.live (w.move m).now) := by
  cases m with
  | pass t =>
      have hlater : (w.move (.pass t)).entry key = (w.entry key).filter (Entry.live t) :=
        w.store.entryAt_later hm key
      rw [hlater, he]
      change _ = (some e).filter (Entry.live t)
      cases ht : e.live t with
      | true => simp [Option.filter, ht, Entry.live_of_le hm ht]
      | false => cases hn : e.live w.now <;> simp [Option.filter, ht, hn]
  | _ =>
      rw [now_kept hm nofun, ← he]
      rcases h with hself | hsame | hlapse
      · simp_all [Move.isStep]
      · exact hsame
      · exact hlapse.elim

/-- A worker that waits for a call can only take a step when the call has ended. -/
theorem Sound.ended_of_admits (hs : w.Sound) (hm : w.Admits (.step i))
    (hk : w.crew name i = some k) {task : TaskId} (hphase : k.phase = .awaiting t task) :
    (w.ending? task).isSome = true := by
  obtain ⟨ht, -⟩ := crew_eq_some.mp hk
  obtain ⟨t', ht', hready, -⟩ := move_step hm
  cases ht.symm.trans ht'
  obtain ⟨call, hcall⟩ := hs.called i _ task ht (by rw [Task.awaits?, hphase]; rfl)
  have hended : Worker.callEnded w task = true := by
    simpa only [Task.ready, Worker.ready, hphase] using hready
  simpa only [ending?, Worker.callEnded, hcall] using hended

/-- The worker that is left of a step, if one is. -/
theorem crew_step (hm : w.Admits (.step i)) (hk : w.crew name i = some k) :
    (w.move (.step i)).crew name i = (k.step w).1.state? := by
  obtain ⟨ht, hname⟩ := crew_eq_some.mp hk
  rw [move_step_worker hm ht, crew_put_step hname, if_pos rfl]

/-- Whoever is a worker after a step of its own was one before. -/
theorem crew_of_step (hm : w.Admits (.step i)) {k' : Worker}
    (hk' : (w.move (.step i)).crew name i = some k') :
    ∃ k, w.crew name i = some k ∧ (k.step w).1.state? = some k' := by
  obtain ⟨t, ht, -, he⟩ := move_step hm
  cases hc : t.crew? name with
  | some k =>
      have hk := (crew_of_find? ht).trans hc
      exact ⟨k, hk, (crew_step hm hk).symm.trans hk'⟩
  | none =>
      rw [he, crew_put, if_pos rfl] at hk'
      obtain ⟨t', hleft, hcrew⟩ := Option.bind_eq_some_iff.mp hk'
      rw [Task.act_crew? hc hleft] at hcrew
      cases hcrew

/-- A worker that calls the handler of its job starts a call of that handler. -/
theorem Sound.spawns_call (hs : w.Sound) (hm : w.Admits (.step i))
    (ht : w.tasks.find? i = some (.worker k)) (hphase : k.phase = .calling t) :
    (w.move (.step i)).tasks.find? w.nextTask = some (.handler (.start t.job.handler)) := by
  obtain ⟨t', ht', -, he⟩ := move_step hm
  cases ht.symm.trans ht'
  have hne : w.nextTask ≠ i := fun h => Nat.lt_irrefl _ (h ▸ hs.fresh.lt ht)
  rw [he, put_find?, if_neg hne]
  simp only [Task.act, Worker.step, hphase, Worker.goOn, Worker.call]
  exact Table.find?_insert_self _ _ _

/-- What the step of a worker that carries out a job makes of the world. -/
theorem Sound.does_step (hs : w.Sound) (hm : w.Admits (.step i)) (hk : w.crew name i = some k)
    (hc : k.cancelled = false) (hp : k.phase.pursues? = some t) (ha : k.answered w = true) :
    ∃ goal, k.Advance w goal ∧ (w.move (.step i)).crew name i = some (k.inPhase goal) ∧
      k.Does t (w.runnerConfig name) w (w.move (.step i)) := by
  obtain ⟨ht, hname⟩ := crew_eq_some.mp hk
  obtain ⟨t', ht', hready, he⟩ := move_step hm
  cases ht.symm.trans ht'
  obtain ⟨goal, hadv, hstep⟩ := Worker.step_advance hready hc ha hp fun task hphase =>
    hs.ended_of_admits hm hk hphase
  refine ⟨goal, hadv, (crew_step hm hk).trans (by rw [hstep]; rfl), step_now hm, ?_,
    fun t' hphase => hs.spawns_call hm ht hphase⟩
  have hentry := Worker.step_entry ha hp hc
  rw [he, put_entry, ← hname]
  exact hentry

/-- A worker stays in its phase in the moves of others. -/
theorem Sound.crew_kept (hs : w.Sound) (hm : w.Admits m) (hk : w.crew name i = some k)
    (hstep : m ≠ .step i) : ∃ k', (w.move m).crew name i = some k' ∧ k'.phase = k.phase := by
  obtain ⟨ht, hname⟩ := crew_eq_some.mp hk
  have hcollect : m ≠ .collect i := by
    rintro rfl
    obtain ⟨r, hr⟩ := hm
    cases ht.symm.trans hr
  obtain ⟨t', ht', hcore⟩ := hs.move_kept hm ht nofun hstep hcollect
  obtain ⟨k', rfl, hp, hr⟩ := Task.core_eq_worker hcore
  exact ⟨k', crew_eq_some.mpr ⟨ht', hr.trans hname⟩, hp⟩

/-- The call that a worker waits for stays a call of the same handler. -/
theorem Sound.call_kept (hs : w.Sound) (hm : w.Admits m) {task : TaskId} {call : HandlerCall}
    (hcall : w.tasks.find? task = some (.handler call))
    (hw : ∃ call', (w.move m).tasks.find? task = some (.handler call')) :
    ∃ call', (w.move m).tasks.find? task = some (.handler call') ∧
      call'.handler = call.handler := by
  obtain ⟨call', hcall'⟩ := hw
  refine ⟨call', hcall', ?_⟩
  rcases hs.move_was hm hcall' with ⟨u, hu, hcore⟩ | ⟨hle, -⟩ | ⟨u, rfl, hu, hleft⟩
  · cases hcall.symm.trans hu
    cases hcore
    rfl
  · exact absurd (hs.fresh.lt hcall) (Nat.not_lt_of_le hle)
  · cases hcall.symm.trans hu
    cases hleft
    exact HandlerCall.step_handler _ _ _

end World

section Others

variable {w : World} {name : String} {i : TaskId} {t : Taken} {c : Runner.Config}
  {prompt alone : Prop} {d : Diary} {k : Worker} {m : Move}

/-- A job that is being tried stays marked in the moves of others. -/
theorem Underway.other (h : Underway t c alone w d) (hm : w.Admits m) (hstep : m ≠ .step i)
    (hleft : alone → w.LeftTo t.job.key.statusKey i m) : Underway t c alone (w.move m) d := by
  refine ⟨h.items, ?_⟩
  obtain ⟨a, ha, he⟩ := h.status
  exact ⟨a, ha, fun halone => (hleft halone).entry hm hstep (he halone)⟩

/-- The moves of others leave a job where it is. -/
theorem Tries.other (h : Tries t c prompt alone w d k.phase) (hs : w.Sound) (hm : w.Admits m)
    (hk : w.crew name i = some k) (hstep : m ≠ .step i) (hheeds : prompt → w.Heeds i m)
    (hleft : alone → w.LeftTo t.job.key.statusKey i m) :
    Tries t c prompt alone (w.move m) d k.phase := by
  obtain ⟨ht, -⟩ := World.crew_eq_some.mp hk
  have hkept : prompt → w.enabled i = true → (w.move m).now = w.now := by
    intro hp hready
    refine World.now_kept hm ?_
    rintro t rfl
    rw [(hheeds hp).1] at hready
    cases hready
  generalize hphase : k.phase = phase at h
  cases h with
  | begins hd => exact .begins hd
  | calls hu hf hlt hlen hsteps hdue =>
      have hready : w.enabled i = true := by
        simp [World.enabled, ht, Task.ready, Worker.ready, hphase]
      refine .calls (hu.other hm hstep hleft) hf hlt hlen hsteps fun e he => ?_
      obtain ⟨hle, heq⟩ := hdue e he
      exact ⟨Nat.le_trans hle (World.now_le_move hm), fun hp => (hkept hp hready).trans (heq hp)⟩
  | @awaits task call hu hf hlt hlen hsteps hcall hh =>
      obtain ⟨k', hk', hp'⟩ := hs.crew_kept hm hk hstep
      have hthere := (hs.move hm).called i _ task (World.crew_eq_some.mp hk').1
        (by rw [Task.awaits?, hp', hphase]; rfl)
      obtain ⟨call', hcall', hsame⟩ := hs.call_kept hm hcall hthere
      exact .awaits (hu.other hm hstep hleft) hf hlt hlen hsteps hcall' (hsame.trans hh)
  | succeeds hu hsettles hfails hlen hsteps =>
      exact .succeeds (hu.other hm hstep hleft) hsettles hfails hlen hsteps
  | @backsOff wake e hu hf hlt hlen hsteps hlast hwake hnow =>
      refine .backsOff (hu.other hm hstep hleft) hf hlt hlen hsteps hlast hwake fun hp => ?_
      cases m with
      | pass u =>
          refine (hheeds hp).2 wake ?_
          simp [ht, Task.alarms, hphase]
      | _ =>
          rw [World.now_kept hm (by rintro t ⟨⟩)]
          exact hnow hp
  | exhausts hu hsettles hlen hsteps =>
      exact .exhausts (hu.other hm hstep hleft) hsettles hlen hsteps

end Others

namespace World

variable {u v w : World} {name : String} {i : TaskId} {t : Taken} {c : Runner.Config}
  {prompt alone : Prop} {d : Diary} {k : Worker} {m : Move}

/-- Nothing stands in a worker's diary of the moves of others. -/
theorem jots_other (hstep : m ≠ .step i) : w.jots name i m = .blank := by
  cases m with
  | step id =>
      have hne : id ≠ i := fun h => hstep (congrArg Move.step h)
      simp only [jots, if_neg hne]
      split <;> rfl
  | _ => rfl

/-- A worker's own step is what its diary jots. -/
theorem jots_step (hk : w.crew name i = some k) : w.jots name i (.step i) = k.jots w := by
  simp [jots, hk]

/-- What a runner is told stays the same. -/
theorem runnerConfig_move (hm : w.Admits m) {r : Runner} (hr : w.runners.find? name = some r) :
    (w.move m).runnerConfig name = w.runnerConfig name := by
  obtain ⟨r', hr', hc⟩ := move_runner hm hr
  simp [runnerConfig, hr, hr', hc]

end World

/-! ## The whole trial -/

/-- What is known of a worker and the job that it tries, given its diary. -/
structure Trial (name : String) (i : TaskId) (t : Taken) (c : Runner.Config) (prompt alone : Prop)
    (w : World) (d : Diary) : Prop where
  config : w.runnerConfig name = c
  paced : Paced t.job prompt d
  stage : ∃ k, w.crew name i = some k ∧ (Tries t c prompt alone w d k.phase ∨
    k.phase.pursues? = none ∧ ∃ status, Closed t c w d status)

namespace Trial

variable {name : String} {i : TaskId} {t : Taken} {c : Runner.Config} {prompt alone : Prop}
  {w : World} {d : Diary} {k : Worker}

/-- A worker that carries out a job is at some stage of it. -/
theorem tries (h : Trial name i t c prompt alone w d) (hk : w.crew name i = some k)
    (hp : k.phase.pursues?.isSome = true) : Tries t c prompt alone w d k.phase := by
  obtain ⟨k', hk', hstage⟩ := h.stage
  cases hk.symm.trans hk'
  rcases hstage with htries | ⟨hnone, -⟩
  · exact htries
  · rw [hnone] at hp
    cases hp

/-- A worker that does not carry out the job any more has closed it. -/
theorem closed (h : Trial name i t c prompt alone w d) (hk : w.crew name i = some k)
    (hp : k.phase.pursues? = none) : ∃ status, Closed t c w d status := by
  obtain ⟨k', hk', hstage⟩ := h.stage
  cases hk.symm.trans hk'
  rcases hstage with htries | ⟨-, hclosed⟩
  · cases htries.pursues.symm.trans hp
  · exact hclosed

/-- A trial ends no more calls than the job has attempts. -/
theorem ends_le (h : Trial name i t c prompt alone w d) :
    d.ends.length ≤ t.job.maxAttempts := by
  obtain ⟨k, -, htries | ⟨-, status, hclosed⟩⟩ := h.stage
  · exact htries.ends_le
  · exact hclosed.settles.length_le

/-- Between a failure and the next call lies the backoff, taken as often as calls have failed. -/
theorem waits (h : Trial name i t c prompt alone w d) {j a : Nat} {e : Nat × Ending}
    (ha : d.calls[j + 1]? = some a) (he : d.ends[j]? = some e) :
    ∃ wait : Duration, wait.nanos = min (t.job.backoff.nanos * (j + 1)) maxNanos ∧
      Clock.alarm e.1 wait ≤ a ∧ (prompt → a = Clock.alarm e.1 wait) := by
  have hj : j + 1 ≤ t.job.maxAttempts :=
    Nat.le_trans (List.getElem?_eq_some_iff.mp he).1 h.ends_le
  exact ⟨_, t.job.delayAfter_nanos (Nat.succ_pos j) hj, h.paced j a e ha he⟩

/-- Every move takes a trial further. -/
theorem move {m : Move} (h : Trial name i t c prompt alone w d) (hs : w.Sound)
    (hstaffed : w.Staffed name) (hone : 1 ≤ t.job.maxAttempts) (hm : w.Admits m)
    (hpursues : w.Pursues name i m) (hheeds : prompt → w.Heeds i m)
    (hleft : alone → w.LeftTo t.job.key.statusKey i m) :
    Trial name i t c prompt alone (w.move m) (d.append (w.jots name i m)) := by
  obtain ⟨k, hk, hc, hp, ha⟩ := hpursues.crew
  have htries := h.tries hk hp
  obtain ⟨r, -, hr, -⟩ := hstaffed.seat i k hk
  have hconfig := (World.runnerConfig_move hm hr).trans h.config
  by_cases hstep : m = .step i
  · subst hstep
    obtain ⟨goal, hadv, hcrew, hdoes⟩ := hs.does_step hm hk hc htries.pursues (ha rfl)
    rw [h.config] at hdoes
    obtain ⟨hpaced, hnext⟩ := htries.advance h.paced hone (ha rfl) hadv
      ⟨hdoes.now, hdoes.entry, hdoes.call⟩
    rw [World.jots_step hk]
    exact ⟨hconfig, hpaced, _, hcrew, hnext⟩
  · rw [World.jots_other hstep, Diary.append_blank]
    obtain ⟨k', hk', hphase⟩ := hs.crew_kept hm hk hstep
    refine ⟨hconfig, h.paced, k', hk', .inl ?_⟩
    rw [hphase]
    exact htries.other hs hm hk hstep hheeds hleft

end Trial

namespace World

variable {u w : World} {name : String} {i : TaskId} {t : Taken} {k : Worker} {ms : List Move}
  {rule : World → Move → Prop}

/-- A history in which a worker carries out a job is a trial of the job. -/
theorem History.trial (h : History rule u ms w) (hregular : u.Regular) (hstaffed : u.Staffed name)
    (hk : u.crew name i = some k) (hp : k.phase = .beginning t) (hnew : t.job.failures = 0)
    (hone : 1 ≤ t.job.maxAttempts) (hrule : ∀ v m, rule v m → v.Pursues name i m) :
    Trial name i t (u.runnerConfig name) (∀ v m, rule v m → v.Heeds i m)
      (∀ v m, rule v m → v.LeftTo t.job.key.statusKey i m) w (u.diary name i ms) := by
  induction h with
  | nil =>
      have ht : t.tried 0 = t := by
        rw [← hnew]
        rfl
      refine ⟨rfl, Paced.blank, k, hk, .inl ?_⟩
      rw [hp, ← ht]
      exact .begins rfl
  | @snoc ms v m h possible obeys ih =>
      obtain ⟨hv, hs⟩ := h.stays_staffed hregular hstaffed
      rw [diary_snoc, h.after_eq]
      exact ih.move hv.sound hs hone possible (hrule v m obeys) (fun hall => hall v m obeys)
        fun hall => hall v m obeys

/-! ## What is counted -/

/-- The tale of two stretches is the one and then the other. -/
theorem tale_append (name : String) (w : World) (ms ms' : List Move) :
    w.tale name (ms ++ ms') = w.tale name ms ++ (w.after ms).tale name ms' := by
  induction ms generalizing w with
  | nil => rfl
  | cons m ms ih => simp [tale, ih, List.append_assoc]

/-- What a runner counts of a job that its worker has taken stands in the worker's diary. -/
theorem Staffed.items_eq (hs : w.Staffed name) (hk : w.crew name i = some k) (m : Move) :
    ((w.episode? name m).bind Episode.outcome?).toList = (w.jots name i m).items := by
  by_cases hstep : m = .step i
  · subst hstep
    rw [episode?_of_crew hk, jots_step hk, Worker.jots_items]
  · rw [jots_other hstep]
    rcases hs.episode?_other hk hstep with hnone | ⟨job, hjob⟩
    · rw [hnone]
      rfl
    · rw [hjob]
      rfl

/-- What a runner counts of its jobs while its worker is there stands in the worker's diary. -/
theorem History.items_eq (h : History rule u ms w) (hregular : u.Regular)
    (hstaffed : u.Staffed name) (hrule : ∀ v m, rule v m → ∃ k, v.crew name i = some k) :
    (u.tale name ms).filterMap Episode.outcome? = (u.diary name i ms).items := by
  induction h with
  | nil => rfl
  | @snoc ms v m h possible obeys ih =>
      obtain ⟨k, hk⟩ := hrule v m obeys
      have hitems := (h.stays_staffed hregular hstaffed).2.items_eq hk m
      rw [tale_snoc, diary_snoc, List.filterMap_append, ih, h.after_eq]
      simp only [Diary.append, ← hitems]
      cases v.episode? name m with
      | none => rfl
      | some e => cases he : e.outcome? <;> simp [he]

/-- The jobs that a runner counts as started, or as ended in some way. -/
theorem count_outcome (tale : List Episode) {x : Item}
    (hx : x = .started ∨ ∃ v, x = .ended v) :
    (tale.countP fun e => e.item? = some x) = (tale.filterMap Episode.outcome?).count x := by
  rw [List.count_filterMap]
  apply List.countP_congr
  intro e _
  rcases hx with rfl | ⟨v, rfl⟩ <;> cases e <;> simp [Episode.item?, Episode.outcome?]

/-- The count of jobs started, or of jobs ended in some way, grows by what stands in the diary. -/
theorem History.counts_grow {utc : Int} {store : Store} {before : List Move}
    (h₀ : History (fun _ _ => True) (around utc store) before u) (h : History rule u ms w)
    (hrule : ∀ v m, rule v m → ∃ k, v.crew name i = some k) {r r' : Runner}
    (hr : u.runners.find? name = some r) (hr' : w.runners.find? name = some r') {x : Item}
    (hx : x = .started ∨ ∃ v, x = .ended v) :
    r'.stats.get x = r.stats.get x + (u.diary name i ms).items.count x := by
  have hall : History (fun _ _ => True) (around utc store) (before ++ ms) w :=
    .append h₀ (h.mono fun _ _ _ => trivial)
  have hne : x ≠ .duplicate := by
    rcases hx with rfl | ⟨v, rfl⟩ <;> nofun
  have hbefore : r.stats.get x = _ := ((h₀.reckons name).1 r hr).counts x hne
  have hafter : r'.stats.get x = _ := ((hall.reckons name).1 r' hr').counts x hne
  rw [hafter, hbefore, tale_append, List.countP_append, h₀.after_eq,
    count_outcome (u.tale name ms) hx, h.items_eq h₀.regular (h₀.staffed name) hrule]

/-- A runner has counted a closed job once as started, and once as ended in one way. -/
theorem History.counts_closed {utc : Int} {store : Store} {before : List Move}
    (h₀ : History (fun _ _ => True) (around utc store) before u) (h : History rule u ms w)
    (hk : u.crew name i = some k) (hrule : ∀ v m, rule v m → v.Pursues name i m)
    {c : Runner.Config} {status : JobStatus} (hclosed : Closed t c w (u.diary name i ms) status) :
    ∃ r r', u.runners.find? name = some r ∧ w.runners.find? name = some r' ∧
      r'.stats.started = r.stats.started + 1 ∧
      ∀ v, r'.stats.get (.ended v) =
        r.stats.get (.ended v) + if v = status.verdict then 1 else 0 := by
  obtain ⟨r, -, hr, -⟩ := (h₀.staffed name).seat i k hk
  obtain ⟨r', hr', -⟩ := h.runner hr
  have hthere : ∀ v m, rule v m → ∃ k, v.crew name i = some k := fun v m obeys =>
    (hrule v m obeys).crew.imp fun _ => And.left
  refine ⟨r, r', hr, hr', ?_, ?_⟩
  · have hstarted := h₀.counts_grow h hthere hr hr' (x := .started) (.inl rfl)
    rw [hclosed.items] at hstarted
    exact hstarted
  · intro v
    have hended := h₀.counts_grow h hthere hr hr' (x := .ended v) (.inr ⟨v, rfl⟩)
    rw [hclosed.items] at hended
    rw [hended]
    by_cases hv : v = status.verdict
    · simp [hv]
    · simp [hv, Ne.symm hv]

/-! ## How often a job is tried -/

/-- A worker has admitted a job that has not been tried, and carries it out in the course of a
history: it is not cancelled, and the store answers what it writes. Then the worker waits after a
failure as long as the job's backoff times the number of failures, or the longest duration, and as
soon as that is over it calls again, if it is not kept waiting. Until the job is closed, its
failures are the calls that have failed, no more than there may be; after three steps for each call
at most the worker closes it, and before that it can go on, unless it waits for a call of the job's
handler or for an instant; and if nobody else writes the job's status, it is the one written at the
start, until its time to live is over. When the job has been closed, its handler has been called up
to the first success, or as often as it may be, and the status, for its time to live, and the
counts tell how the last call ended. -/
theorem retried_until_success {utc : Int} {store : Store} {before ms : List Move}
    (h₀ : History (fun _ _ => True) (around utc store) before u)
    (hk : u.crew name i = some k) (hp : k.phase = .beginning t) (hnew : t.job.failures = 0)
    (hone : 1 ≤ t.job.maxAttempts) (hmost : t.job.maxAttempts ≤ maxCount)
    (hrule : ∀ v m, rule v m → v.Pursues name i m) (h : History rule u ms w) {d : Diary}
    (hd : u.diary name i ms = d) :
    (∀ j a e, d.calls[j + 1]? = some a → d.ends[j]? = some e →
      ∃ wait : Duration, wait.nanos = min (t.job.backoff.nanos * (j + 1)) maxNanos ∧
        Clock.alarm e.1 wait ≤ a ∧
        ((∀ v m, rule v m → v.Heeds i m) → a = Clock.alarm e.1 wait)) ∧
    (∀ k' t', w.crew name i = some k' → k'.phase.pursues? = some t' →
      t' = t.tried d.failures ∧ d.failures ≤ t.job.maxAttempts ∧ d.failures ≤ maxCount ∧
      d.steps ≤ 3 * t.job.maxAttempts ∧
      (∀ task, k'.phase = .awaiting t' task → ∃ call, w.tasks.find? task = some (.handler call) ∧
        call.handler = t.job.handler) ∧
      (w.enabled i = true ∨ (∃ task, k'.phase = .awaiting t' task ∧ w.ending? task = none) ∨
        ∃ wake, k'.phase = .backingOff t' wake ∧ w.now < wake) ∧
      (k'.phase ≠ .beginning t' → (∀ v m, rule v m → v.LeftTo t.job.key.statusKey i m) →
        ∃ marked, d.marks = [marked] ∧ w.entry t.job.key.statusKey =
          if w.now < Clock.expiry marked (u.runnerConfig name).runningTtl then
            some ⟨JobStatus.running.text,
              some (Clock.expiry marked (u.runnerConfig name).runningTtl)⟩
          else none)) ∧
    ∀ k', w.crew name i = some k' → k'.phase.pursues? = none →
      (∀ outcomes, (∀ j e, d.ends[j]? = some e → outcomes j = e.2) →
        d.calls.length = callsNeeded outcomes t.job.maxAttempts) ∧
      d.ends.length = d.calls.length ∧ d.failures ≤ t.job.maxAttempts ∧
      ∃ last status, d.ends.getLast? = some last ∧
        status = (if last.2.fault? = none then JobStatus.succeeded else .failed) ∧
        w.entry t.job.key.statusKey = some ⟨status.text,
          some (Clock.expiry w.now (u.runnerConfig name).terminalTtl)⟩ ∧
        ∃ r r', u.runners.find? name = some r ∧ w.runners.find? name = some r' ∧
          r'.stats.started = r.stats.started + 1 ∧
          ∀ v, r'.stats.get (.ended v) =
            r.stats.get (.ended v) + if v = status.verdict then 1 else 0 := by
  subst hd
  have htrial := h.trial h₀.regular (h₀.staffed name) hk hp hnew hone hrule
  refine ⟨fun j a e ha he => htrial.waits ha he, ?_, ?_⟩
  · intro k' t' hk' hp'
    have htries := htrial.tries hk' (by rw [hp']; rfl)
    obtain ⟨hi, -⟩ := crew_eq_some.mp hk'
    cases htries.pursues.symm.trans hp'
    refine ⟨rfl, htries.failures_le, Nat.le_trans htries.failures_le hmost, htries.steps_le,
      fun task hphase => htries.call hphase, ?_,
      fun hne halone => (htries.underway hp' hne).entry halone⟩
    rcases htries.goes_on hi with hready | ⟨t', task, hphase, hopen⟩ | ⟨t', wake, hphase, hwake⟩
    · exact .inl hready
    · rw [hphase] at hp'
      cases hp'
      exact .inr (.inl ⟨task, hphase, hopen⟩)
    · rw [hphase] at hp'
      cases hp'
      exact .inr (.inr ⟨wake, hphase, hwake⟩)
  · intro k' hk' hp'
    obtain ⟨status, hclosed⟩ := htrial.closed hk' hp'
    obtain ⟨last, hlast, hstatus, hentry⟩ := hclosed.last hone
    exact ⟨fun outcomes ho => hclosed.calls_eq ho, hclosed.calls.symm,
      hclosed.settles.failures_le, last, status, hlast, hstatus, hentry,
      h₀.counts_closed h hk hrule hclosed⟩

/-- A runner whose statuses are gone soon. -/
def shortLived : Runner.Config :=
  { Runner.Config.usual with runningTtl := .ofSecs 1, terminalTtl := .ofMillis 1500 }

/-- A job that may be called a number of times. -/
def probe (attempts : Nat) (backoff : Duration) : Job :=
  ((Job.new ⟨"probe", by decide⟩ 0).withMaxAttempts attempts).withBackoff backoff

/-- A job is handed in to a runner, and the worker admits it. -/
def admitted (h : Handler) (job : Job) : List Move :=
  [.runner "a" shortLived, .handler h, .launch (.enqueue (.start "a" job)), .step 0, .step 0,
    .step 0, .step 1, .step 1, .step 1]

/-- The worker marks the job, and a call of its handler fails. -/
def firstCall : List Move := [.step 1, .step 1, .step 2, .step 2, .step 1]

/-- The worker goes on with another call, and closes the job after it. -/
def lastCall : List Move := [.step 1, .step 1, .step 3, .step 3, .step 1, .step 1]

/-- A move by which a worker carries out its job without delay, and nobody else writes its
status. -/
def Alone (w : World) (m : Move) : Prop :=
  w.Pursues "a" 1 m ∧ w.Heeds 1 m ∧ w.LeftTo (JobKey.statusKey ⟨"probe", by decide⟩) 1 m

instance (w : World) (m : Move) : Decidable (w.Alone m) :=
  inferInstanceAs (Decidable (_ ∧ _ ∧ _))

/-- A handler that panics when it is called first. -/
def flaky : Handler := .scripted "flaky" 0 fun call => if call = 1 then [.panic "lost"] else []

/-- A job that may be called three times, a quarter of a second apart, has been admitted. -/
def flakyAdmitted : World := (around 0 .empty).after (admitted flaky (probe 3 (.ofMillis 250)))

/-- The job is called again as soon as the wait is over. -/
def flakyRun : List Move := firstCall ++ .pass 250000000 :: lastCall

/-- The job needs two of three calls, and the second comes a backoff after the first has failed. -/
theorem retried_until_success_flaky :
    (∃ wait : Duration, wait.nanos = min (250000000 * (0 + 1)) maxNanos ∧
      250000000 = Clock.alarm 0 wait) ∧
    (flakyAdmitted.diary "a" 1 flakyRun).calls.length =
      callsNeeded (fun j => if j = 0 then .panicked "lost" else .succeeded) 3 ∧
    ∃ r r', flakyAdmitted.runners.find? "a" = some r ∧
      (flakyAdmitted.after flakyRun).runners.find? "a" = some r' ∧
      r'.stats.started = r.stats.started + 1 ∧
      ∀ v, r'.stats.get (.ended v) = r.stats.get (.ended v) + if v = .succeeded then 1 else 0 := by
  have hopen : History (fun _ _ => True) (around 0 .empty)
      (admitted flaky (probe 3 (.ofMillis 250))) flakyAdmitted := .of_check (by decide +kernel)
  have hruns : History Alone flakyAdmitted flakyRun (flakyAdmitted.after flakyRun) :=
    .of_check (by decide +kernel)
  obtain ⟨hwaits, -, hend⟩ := retried_until_success (i := 1) hopen
    (by decide +kernel : flakyAdmitted.crew "a" 1 =
      some ⟨"a", 1, false, .beginning ⟨probe 3 (.ofMillis 250), true⟩⟩)
    rfl rfl (by decide) (by decide) (fun _ _ h => h.1) hruns rfl
  obtain ⟨wait, hnanos, -, hwait⟩ :=
    hwaits 0 250000000 (0, .panicked "lost") (by decide +kernel) (by decide +kernel)
  have hclosed : ((flakyAdmitted.after flakyRun).crew "a" 1).map
      (fun k => k.phase.pursues?) = some none := by decide +kernel
  obtain ⟨k', hk', hp'⟩ := Option.map_eq_some_iff.mp hclosed
  obtain ⟨hcalls, -, -, last, status, hlast, hstatus, -, r, r', hr, hr', hstarted, hended⟩ :=
    hend k' hk' hp'
  have hsucceeded : status = .succeeded := by
    have hlast' : (flakyAdmitted.diary "a" 1 flakyRun).ends.getLast? =
        some (250000000, .succeeded) := by decide +kernel
    cases hlast.symm.trans hlast'
    exact hstatus
  subst hsucceeded
  refine ⟨⟨wait, hnanos, hwait fun _ _ h => h.2.1⟩, hcalls _ ?_, r, r', hr, hr', hstarted, hended⟩
  intro j e he
  have hends : (flakyAdmitted.diary "a" 1 flakyRun).ends =
      [(0, .panicked "lost"), (250000000, .succeeded)] := by decide +kernel
  rw [hends] at he
  rcases j with _ | _ | j
  · cases he
    rfl
  · cases he
    rfl
  · cases he

/-- A handler that panics always. -/
def brittle : Handler := .scripted "brittle" 0 fun _ => [.panic "lost"]

/-- A job that may be called twice, with a backoff that no timer can tell, has been admitted. -/
def brittleAdmitted : World :=
  (around 0 .empty).after (admitted brittle (probe 2 (.ofNanos 1000500000)))

/-- The job backs off for a second. -/
def brittleWaits : List Move := firstCall ++ [.pass 1000000000]

/-- The job is called again as soon as the wait is over. -/
def brittleRun : List Move := brittleWaits ++ .pass 1001000000 :: lastCall

/-- Somebody deletes the status while the worker backs off. -/
def brittleErased : List Move :=
  firstCall ++ [.call ⟨.nothing, .delete (JobKey.statusKey ⟨"probe", by decide⟩)⟩]

/-- Nobody else writes the status of a job that is carried out without delay. Yet the status is gone
while the worker backs off, because the time to live of a running job is over; the final status
stays two seconds, though it is meant to stay one and a half; and the second call comes half a
millisecond after the backoff, when a timer rings. If somebody else deletes the status, it is gone
before its time to live is over. -/
theorem status_lapses_in_backoff :
    History Alone brittleAdmitted brittleRun (brittleAdmitted.after brittleRun) ∧
      (brittleAdmitted.after brittleWaits).entry (JobKey.statusKey ⟨"probe", by decide⟩) = none ∧
      brittleAdmitted.diary "a" 1 brittleRun =
        ⟨[0], [0, 1001000000], [(0, .panicked "lost"), (1001000000, .panicked "lost")], 7,
          [.started, .ended .failed]⟩ ∧
      (brittleAdmitted.after brittleRun).entry (JobKey.statusKey ⟨"probe", by decide⟩) =
        some ⟨"failed", some (1001000000 + 2000000000)⟩ ∧
      History (Pursues "a" 1) brittleAdmitted brittleErased
        (brittleAdmitted.after brittleErased) ∧
      (brittleAdmitted.after brittleErased).entry (JobKey.statusKey ⟨"probe", by decide⟩) = none :=
  ⟨.of_check (by decide +kernel), by decide +kernel, by rfl, by decide +kernel,
    .of_check (by decide +kernel), by decide +kernel⟩

end World

end JobFleet
