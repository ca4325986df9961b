import JobFleet.Proofs.Fleet.Calls
import JobFleet.Proofs.Fleet.Trials
import JobFleet.Proofs.Runner.Unaided

/-!
# Critical jobs and the store

What happens to a critical job that a worker has taken is decided by how its calls end and by the
cancellation of the worker. Whatever the store holds, whoever writes it and whichever calls fail,
the worker makes the same calls, waits the same backoffs and counts the same; it never touches the
counter of running jobs.
-/

namespace JobFleet

open Runner (Item)
open Worker (Lesson Phase)

namespace World

/-- What a worker of a runner learns in a move, and when. -/
def lesson? (name : String) (i : TaskId) (w : World) : Move → Option (Nat × Lesson)
  | .step id => if id = i then (w.crew name i).map fun k => (w.now, k.lesson w) else none
  | _ => none

/-- What a worker of a runner learns in moves one after another, a lesson for each of its steps. -/
def lessons (name : String) (i : TaskId) (w : World) : List Move → List (Nat × Lesson)
  | [] => []
  | m :: ms => (w.lesson? name i m).toList ++ lessons name i (w.move m) ms

/-- The lessons go on one move at a time. -/
theorem lessons_snoc (name : String) (i : TaskId) (w : World) (ms : List Move) (m : Move) :
    w.lessons name i (ms ++ [m]) =
      w.lessons name i ms ++ ((w.after ms).lesson? name i m).toList := by
  induction ms generalizing w with
  | nil => simp [lessons]
  | cons m' ms ih => simp [lessons, ih, List.append_assoc]

/-- A worker's own step teaches it a lesson. -/
theorem lesson?_step {w : World} {name : String} {i : TaskId} {k : Worker}
    (hk : w.crew name i = some k) : w.lesson? name i (.step i) = some (w.now, k.lesson w) := by
  simp [lesson?, hk]

/-- No other move teaches it one. -/
theorem lesson?_other {w : World} {name : String} {i : TaskId} {m : Move} (hstep : m ≠ .step i) :
    w.lesson? name i m = none := by
  cases m with
  | step id =>
      have hne : id ≠ i := fun he => hstep (congrArg Move.step he)
      simp [lesson?, hne]
  | _ => rfl

/-- A world in which a worker of a runner has a job in hand. -/
def HasInHand (name : String) (i : TaskId) (w : World) : Prop :=
  ((w.crew name i).bind Worker.hand?).isSome = true

instance (name : String) (i : TaskId) (w : World) : Decidable (w.HasInHand name i) :=
  inferInstanceAs (Decidable (_ = true))

/-- One world is another one after at most one call, which is not about a key. -/
def LeavesOut (key : String) (w v : World) : Prop :=
  v.calls = w.calls ∨ ∃ c, v.calls = c :: w.calls ∧ c.2.key? ≠ some key

/-- A worker at work on a job of a handler that nothing but a call of that handler or a backoff
keeps from going on. -/
def Unhindered (i : TaskId) (handler : HandlerId) (w : World) (k : Worker) : Prop :=
  w.enabled i = true ∨
    (∃ t task call, k.phase = .awaiting t task ∧ w.tasks.find? task = some (.handler call) ∧
      call.handler = handler ∧ call.ending? = none) ∨
    ∃ t wake, k.phase = .backingOff t wake ∧ k.cancelled = false ∧ w.now < wake

variable {u v w : World} {name : String} {i : TaskId} {k : Worker} {t : Taken} {m : Move}

/-- A job in hand is in the hands of a worker. -/
theorem HasInHand.crew (h : w.HasInHand name i) :
    ∃ k, w.crew name i = some k ∧ k.phase.hand?.isSome = true := by
  obtain ⟨hand, hh⟩ := Option.isSome_iff_exists.mp h
  obtain ⟨k, hk, hhand⟩ := Option.bind_eq_some_iff.mp hh
  refine ⟨k, hk, ?_⟩
  rw [show k.phase.hand? = some hand from hhand]
  rfl

/-! ## The calls that workers wait for -/

/-- The call that a worker waits for is one of its job's handler. -/
def CallsOwn (w : World) : Prop :=
  ∀ i k t task, w.tasks.find? i = some (.worker k) → k.phase = .awaiting t task →
    ∃ call, w.tasks.find? task = some (.handler call) ∧ call.handler = t.job.handler

/-- Every move leaves each worker waiting for its own call. -/
theorem CallsOwn.move (h : w.CallsOwn) (hs : w.Sound) (hm : w.Admits m) : (w.move m).CallsOwn := by
  intro i k t task hk hp
  rcases hs.move_worker hm hk with ⟨k', hk', hphase, -⟩ | hnew | ⟨k', rfl, hk', hturn⟩
  · rw [hphase] at hp
    obtain ⟨call, hcall, hown⟩ := h i k' t task hk' hp
    have hthere := (hs.move hm).called i _ task hk (by rw [Task.awaits?, hphase, hp]; rfl)
    obtain ⟨call', hcall', hsame⟩ := hs.call_kept hm hcall hthere
    exact ⟨call', hcall', hsame.trans hown⟩
  · rw [hnew] at hp
    cases hp
  · by_cases hcalls : ∃ t', k'.phase = .calling t'
    · obtain ⟨t', hq⟩ := hcalls
      have hcall := hs.spawns_call hm hk' hq
      have hstep : (k'.step w).1.state? = some (k'.inPhase (.awaiting t' w.nextTask)) := by
        simp only [Worker.step, hq, Worker.goOn, Worker.call]
        rfl
      have hcrew : w.crew k'.runner i = some k' := crew_eq_some.mpr ⟨hk', rfl⟩
      have hafter := (crew_step hm hcrew).trans hstep
      cases hk.symm.trans (crew_eq_some.mp hafter).1
      cases hp
      exact ⟨_, hcall, rfl⟩
    · have hidle := (hturn.idle (fun t' hq => hcalls ⟨t', hq⟩) rfl).1
      rw [hp] at hidle
      cases hidle

/-- A worker waits for the call of its own job. -/
theorem History.callsOwn {rule : World → Move → Prop} {utc : Int} {s : Store} {ms : List Move}
    (h : History rule (around utc s) ms w) : w.CallsOwn := by
  have hboth : w.Sound ∧ w.CallsOwn := by
    refine h.keeps (P := fun v => v.Sound ∧ v.CallsOwn) ⟨?_, ?_⟩ ?_
    · have hstart : History rule (around utc s) [] (around utc s) := .nil
      exact hstart.regular.sound
    · intro i k t task hi
      cases hi
    · exact fun v m hm _ hv => ⟨hv.1.move hm, hv.2.move hv.1 hm⟩
  exact hboth.2

/-! ## What a worker of a critical job does -/

/-- How far a worker has come with a critical job, given where it began and what it has learned
since. -/
structure Taught (name : String) (i : TaskId) (p : Phase) (t : Taken) (w : World)
    (ls : List (Nat × Lesson)) (d : Diary) : Prop where
  diary : d = p.account ls
  stage : ∃ k, w.crew name i = some k ∧ k.phase.bare = p.taught (ls.map Prod.snd) ∧
    (k.phase = .choosing ∨ ∃ n, k.phase.Unaided (t.tried n))

namespace Taught

variable {p : Phase} {ls : List (Nat × Lesson)} {d : Diary}

/-- A worker that has its job in hand has not come to the end of it. -/
theorem unaided (h : Taught name i p t w ls d) (hk : w.crew name i = some k)
    (hh : k.phase.hand?.isSome = true) : ∃ n, k.phase.Unaided (t.tried n) := by
  obtain ⟨k', hk', -, hchoosing | htried⟩ := h.stage
  · cases hk.symm.trans hk'
    rw [hchoosing] at hh
    cases hh
  · cases hk.symm.trans hk'
    exact htried

/-- A worker stands where its lessons lead. -/
theorem bare (h : Taught name i p t w ls d) (hk : w.crew name i = some k) :
    k.phase.bare = p.taught (ls.map Prod.snd) := by
  obtain ⟨k', hk', hbare, -⟩ := h.stage
  cases hk.symm.trans hk'
  exact hbare

/-- Every move takes a worker further by the lesson that it learns, if it learns one. -/
theorem move (h : Taught name i p t w ls d) (hs : w.Sound) (hm : w.Admits m)
    (hhand : w.HasInHand name i) :
    Taught name i p t (w.move m) (ls ++ (w.lesson? name i m).toList)
      (d.append (w.jots name i m)) := by
  obtain ⟨k, hk, hh⟩ := hhand.crew
  obtain ⟨n, hunaided⟩ := h.unaided hk hh
  have hbare := h.bare hk
  by_cases hstep : m = .step i
  · subst hstep
    have hended : ∀ t task, k.phase = .awaiting t task → (w.ending? task).isSome = true :=
      fun t task hp => hs.ended_of_admits hm hk hp
    obtain ⟨goal, hgoal, hnext, hstage⟩ := Worker.step_unaided hunaided hended
    rw [lesson?_step hk, Option.toList_some, jots_step hk, Worker.jots_unaided hunaided hended,
      hbare]
    refine ⟨?_, k.inPhase goal, (crew_step hm hk).trans hgoal, ?_, hstage⟩
    · rw [Phase.account_snoc, h.diary]
    · rw [List.map_append, List.map_singleton, Phase.taught_snoc, ← hbare]
      exact hnext
  · obtain ⟨k', hk', hphase⟩ := hs.crew_kept hm hk hstep
    rw [lesson?_other hstep, Option.toList_none, List.append_nil, jots_other hstep,
      Diary.append_blank]
    exact ⟨h.diary, k', hk', by rw [hphase]; exact hbare, .inr ⟨n, by rw [hphase]; exact hunaided⟩⟩

end Taught

/-- A move that does not keep a worker waiting leaves one that has not been kept waiting so. -/
theorem Heeds.punctual (h : w.Heeds i m) (hm : w.Admits m) (hk : w.crew name i = some k)
    (hh : k.phase.hand?.isSome = true) {last : Nat} (hp : k.phase.Punctual last w.now) :
    k.phase.Punctual last (w.move m).now := by
  cases m with
  | pass now =>
      obtain ⟨hready, halarms⟩ := h
      have hi := (crew_eq_some.mp hk).1
      cases hphase : k.phase with
      | awaiting t task => exact trivial
      | backingOff t wake =>
          refine halarms wake ?_
          simp [hi, Task.alarms, hphase]
      | resting t attempt wake =>
          rw [hphase] at hh
          cases hh
      | _ => simp [enabled, hi, Task.ready, Worker.ready, hphase] at hready
  | _ =>
      rw [now_kept hm (by rintro t ⟨⟩)]
      exact hp

section Runs

variable {rule : World → Move → Prop} {ms : List Move}

/-- A worker that has a critical job in hand comes as far with it as it has learned. -/
theorem History.taught (h : History rule u ms w) (hs : u.Sound) (hk : u.crew name i = some k)
    (hp : k.phase.Unaided t) (hrule : ∀ v m, rule v m → v.HasInHand name i) :
    w.Sound ∧ Taught name i k.phase.bare t w (u.lessons name i ms) (u.diary name i ms) := by
  induction h with
  | nil => exact ⟨hs, rfl, k, hk, rfl, .inr ⟨t.job.failures, hp⟩⟩
  | @snoc ms v m h possible obeys ih =>
      obtain ⟨hv, htaught⟩ := ih
      rw [lessons_snoc, diary_snoc, h.after_eq]
      exact ⟨hv.move possible, htaught.move hv possible (hrule v m obeys)⟩

/-- A worker that is never kept waiting takes its steps when they are due. -/
theorem History.punctual (h : History rule u ms w) (hs : u.Sound) (hk : u.crew name i = some k)
    (hp : k.phase.Unaided t) (hrule : ∀ v m, rule v m → v.HasInHand name i)
    (hnow : k.phase.Punctual u.now u.now) (hheeds : ∀ v m, rule v m → v.Heeds i m) :
    (u.lessons name i ms).map Prod.fst =
        Phase.pace u.now k.phase.bare ((u.lessons name i ms).map Prod.snd) ∧
      ∃ k', w.crew name i = some k' ∧
        k'.phase.Punctual (((u.lessons name i ms).map Prod.fst).getLast?.getD u.now) w.now := by
  induction h with
  | nil => exact ⟨rfl, k, hk, hnow⟩
  | @snoc ms v m h possible obeys ih =>
      obtain ⟨hpace, k', hk', hpunctual⟩ := ih
      obtain ⟨hv, htaught⟩ := h.taught hs hk hp hrule
      obtain ⟨k'', hk'', hh⟩ := (hrule v m obeys).crew
      cases hk'.symm.trans hk''
      obtain ⟨n, hunaided⟩ := htaught.unaided hk' hh
      have hbare := htaught.bare hk'
      rw [lessons_snoc, h.after_eq]
      by_cases hstep : m = .step i
      · subst hstep
        have hended : ∀ t task, k'.phase = .awaiting t task → (v.ending? task).isSome = true :=
          fun t task hp => hv.ended_of_admits possible hk' hp
        obtain ⟨goal, hgoal, hnext, -⟩ := Worker.step_unaided hunaided hended
        have hready : k'.ready v = true := by
          have he : v.enabled i = true := possible
          simpa only [enabled, (crew_eq_some.mp hk').1, Task.ready] using he
        have hdue := Worker.prompt_unaided hready hended hpunctual
        rw [hbare] at hdue
        rw [lesson?_step hk', Option.toList_some, List.map_append, List.map_append,
          List.map_singleton, List.map_singleton, Phase.pace_snoc, ← hpace, hdue]
        refine ⟨rfl, _, (crew_step possible hk').trans hgoal, ?_⟩
        rw [List.getLast?_concat, Option.getD_some, step_now possible, ← Phase.punctual_bare]
        exact hnext ▸ Worker.punctual_unaided hunaided hended
      · obtain ⟨k'', hk'', hphase⟩ := hv.crew_kept possible hk' hstep
        rw [lesson?_other hstep, Option.toList_none, List.append_nil]
        refine ⟨hpace, k'', hk'', ?_⟩
        rw [hphase]
        exact (hheeds v m obeys).punctual possible hk' hh hpunctual

end Runs

/-! ## What a worker leaves alone -/

/-- A worker asks the counter of running jobs for a slot of a counted job and gives that slot back;
it makes no other call about the counter. -/
theorem leavesOut_turn {left : Option Worker} (h : k.Turn w left v)
    (ha : ∀ job, k.phase = .admitting job → job.criticality.counted = false)
    (hr : ∀ t attempt, k.phase ≠ .releasing t attempt) : w.LeavesOut jobCounterKey v := by
  have hstatus : ∀ {job : Job} {status : JobStatus} {a : Except StoreError Unit} {u : World},
      w.perform (Worker.statusCall (w.runnerConfig k.runner) job status) = (a, u) →
      u.Via k.Books v → w.LeavesOut jobCounterKey v := by
    intro job status a u hcall hv
    refine .inr ⟨⟨_, Worker.statusCall (w.runnerConfig k.runner) job status⟩, ?_, fun he =>
      statusKey_ne_jobCounterKey job.key (Option.some.inj he)⟩
    rw [hv.silent fun _ => Worker.Books.silent, ← w.calls_perform, hcall]
  cases h with
  | asks hp hc hcall =>
      rw [ha _ hp] at hc
      cases hc
  | refuses hp hcall hv => exact hstatus hcall hv
  | begins hp hcall ho hv => exact hstatus hcall hv
  | aborts hp hcall ho hv => exact hstatus hcall hv
  | ends hp hcall hv => exact hstatus hcall hv
  | releases hp hcall => exact absurd hp (hr _ _)
  | retries hp hcall hmore hv => exact absurd hp (hr _ _)
  | sticks hp hcall hmore => exact absurd hp (hr _ _)
  | joins hp hgoal hv => exact .inl (hv.silent fun _ => Worker.Books.silent)
  | _ => exact .inl rfl

/-! ## Two runs -/

section Runs

variable {rule : World → Move → Prop} {ms : List Move}

/-- A worker with its own call goes on unhindered. -/
theorem Taught.unhindered {p : Phase} {ls : List (Nat × Lesson)} {d : Diary}
    (h : Taught name i p t w ls d) (hs : w.Sound) (hown : w.CallsOwn)
    (hk : w.crew name i = some k) : w.Unhindered i t.job.handler k := by
  have hi := (crew_eq_some.mp hk).1
  have hcall : ∀ t task, k.phase = .awaiting t task →
      ∃ c, w.tasks.find? task = some (.handler c) := fun t task hp =>
    hs.called i _ task hi (by rw [Task.awaits?, hp]; rfl)
  obtain ⟨k', hk', -, hstage⟩ := h.stage
  cases hk.symm.trans hk'
  rcases goes_on hi hcall with hready | ⟨t', task, hp, hopen⟩ | hwaits |
    ⟨t', attempt, wake, hp, -⟩
  · exact .inl hready
  · obtain ⟨call, hthere, hhandler⟩ := hown i k t' task hi hp
    refine .inr (.inl ⟨t', task, call, hp, hthere, ?_, ?_⟩)
    · rcases hstage with hchoosing | ⟨n, hunaided⟩
      · rw [hp] at hchoosing
        cases hchoosing
      · have hcarries := hunaided.carries
        rw [hp] at hcarries
        cases hcarries
        exact hhandler
    · simpa only [ending?, hthere] using hopen
  · exact .inr (.inr hwaits)
  · rcases hstage with hchoosing | ⟨n, hunaided⟩
    · rw [hp] at hchoosing
      cases hchoosing
    · have hcarries := hunaided.carries
      rw [hp] at hcarries
      cases hcarries

/-- A worker with a critical job in hand makes no call about the counter of running jobs. -/
theorem History.leavesOut (h : History rule u ms w) (hs : u.Sound) (hk : u.crew name i = some k)
    (hp : k.phase.Unaided t) (hrule : ∀ v m, rule v m → v.HasInHand name i)
    {first last : List Move} (hms : ms = first ++ .step i :: last) :
    (u.after first).LeavesOut jobCounterKey ((u.after first).move (.step i)) := by
  subst hms
  obtain ⟨v, hfirst, hrest⟩ := h.split
  obtain ⟨hm, obeys, -⟩ := hrest.uncons
  obtain ⟨hv, htaught⟩ := hfirst.taught hs hk hp hrule
  obtain ⟨k', hk', hh⟩ := (hrule v _ obeys).crew
  obtain ⟨n, hunaided⟩ := htaught.unaided hk' hh
  have hcarries := hunaided.carries
  obtain ⟨t', ht', -, he⟩ := move_step hm
  cases (crew_eq_some.mp hk').1.symm.trans ht'
  have hcalls : (v.move (.step i)).calls = (k'.step v).2.calls := by
    rw [he, put_calls]
    rfl
  rw [hfirst.after_eq, LeavesOut, hcalls]
  refine leavesOut_turn (k'.step_turn v) ?_ ?_
  · intro job hphase
    rw [hphase] at hcarries
    have hcounted := hunaided.uncounted
    rw [← Option.some.inj hcarries] at hcounted
    exact hcounted
  · intro t attempt hphase
    rw [hphase] at hcarries
    cases hcarries

/-- Two workers have taken the same critical job, in worlds that may differ in everything else: in
what the store holds, in the faults that calls meet, and in all that others do. As long as the job
is in hand, let them learn the same in as many steps: how the calls of the job end, and when, and
whether and when they find themselves cancelled in a backoff. Then they are as far with the job,
waiting for the end of the same backoff if they back off; they have made as many calls, seen them
end alike and counted the same. If besides neither is kept waiting, or they take their steps at the
same instants, then they made their calls at the same instants. Nothing but a call of the job's
handler or a backoff keeps either from going on, and neither has made a call about the counter of
running jobs. -/
theorem critical_job_indifferent {utc utc' : Int} {store store' : Store}
    {before before' ms' : List Move} {u' w' : World} {rule' : World → Move → Prop}
    {name' : String} {i' : TaskId} {k' : Worker} {job : Job}
    (h₀ : History (fun _ _ => True) (around utc store) before u)
    (h₀' : History (fun _ _ => True) (around utc' store') before' u')
    (hk : u.crew name i = some k) (hp : k.phase = .admitting job)
    (hk' : u'.crew name' i' = some k') (hp' : k'.phase = .admitting job)
    (hcritical : job.criticality = .critical)
    (h : History rule u ms w) (hrule : ∀ v m, rule v m → v.HasInHand name i)
    (h' : History rule' u' ms' w') (hrule' : ∀ v m, rule' v m → v.HasInHand name' i')
    (hlessons : (u.lessons name i ms).map Prod.snd = (u'.lessons name' i' ms').map Prod.snd)
    {d d' : Diary} (hd : u.diary name i ms = d) (hd' : u'.diary name' i' ms' = d') :
    (∃ l l', w.crew name i = some l ∧ w'.crew name' i' = some l' ∧
      l.phase.bare = l'.phase.bare ∧ w.Unhindered i job.handler l ∧
      w'.Unhindered i' job.handler l') ∧
    d.calls.length = d'.calls.length ∧ d.ends = d'.ends ∧ d.items = d'.items ∧
    ((u.lessons name i ms).map Prod.fst = (u'.lessons name' i' ms').map Prod.fst ∨
      u.now = u'.now ∧ (∀ v m, rule v m → v.Heeds i m) ∧ (∀ v m, rule' v m → v.Heeds i' m) →
      d = d') ∧
    (∃ r s r' s', u.runners.find? name = some r ∧ w.runners.find? name = some s ∧
      u'.runners.find? name' = some r' ∧ w'.runners.find? name' = some s' ∧
      ∀ x, (x = .started ∨ ∃ v, x = .ended v) →
        ∃ n, s.stats.get x = r.stats.get x + n ∧ s'.stats.get x = r'.stats.get x + n) ∧
    ∀ first last,
      (ms = first ++ .step i :: last →
        (u.after first).LeavesOut jobCounterKey ((u.after first).move (.step i))) ∧
      (ms' = first ++ .step i' :: last →
        (u'.after first).LeavesOut jobCounterKey ((u'.after first).move (.step i'))) := by
  subst hd hd'
  have hs := h₀.regular.sound
  have hs' := h₀'.regular.sound
  have hunaided := Phase.Unaided.admitting hp hcritical
  have hunaided' := Phase.Unaided.admitting hp' hcritical
  obtain ⟨hw, htaught⟩ := h.taught hs hk hunaided hrule
  obtain ⟨hw', htaught'⟩ := h'.taught hs' hk' hunaided' hrule'
  have hsame : k'.phase.bare = k.phase.bare := by rw [hp, hp']
  rw [hsame] at htaught'
  obtain ⟨l, hl, hbare, -⟩ := htaught.stage
  obtain ⟨l', hl', hbare', -⟩ := htaught'.stage
  obtain ⟨hends, hitems, -, hcalls⟩ := Phase.account_congr (p := k.phase.bare) hlessons
  rw [← htaught.diary, ← htaught'.diary] at hends hitems hcalls
  have hown := (h₀.append (h.mono fun _ _ _ => trivial)).callsOwn
  have hown' := (h₀'.append (h'.mono fun _ _ _ => trivial)).callsOwn
  refine ⟨⟨l, l', hl, hl', ?_, htaught.unhindered hw hown hl, htaught'.unhindered hw' hown' hl'⟩,
    hcalls, hends, hitems, ?_, ?_, ?_⟩
  · rw [hbare, hbare', hlessons]
  · intro hwhen
    have hinstants : (u.lessons name i ms).map Prod.fst =
        (u'.lessons name' i' ms').map Prod.fst := by
      rcases hwhen with hinstants | ⟨hnow, hheeds, hheeds'⟩
      · exact hinstants
      · have hpace := (h.punctual hs hk hunaided hrule (by rw [hp]; rfl) hheeds).1
        have hpace' := (h'.punctual hs' hk' hunaided' hrule' (by rw [hp']; rfl) hheeds').1
        rw [hpace, hpace', hsame, hlessons, hnow]
    have hlearned : u.lessons name i ms = u'.lessons name' i' ms' :=
      (List.zip_of_prod hinstants hlessons).trans (List.zip_of_prod rfl rfl).symm
    rw [htaught.diary, htaught'.diary, hlearned]
  · have hthere : ∀ v m, rule v m → ∃ k, v.crew name i = some k := fun v m obeys =>
      (hrule v m obeys).crew.imp fun _ => And.left
    have hthere' : ∀ v m, rule' v m → ∃ k, v.crew name' i' = some k := fun v m obeys =>
      (hrule' v m obeys).crew.imp fun _ => And.left
    obtain ⟨r, -, hr, -⟩ := (h₀.staffed name).seat i k hk
    obtain ⟨r', -, hr', -⟩ := (h₀'.staffed name').seat i' k' hk'
    obtain ⟨s, hs, -⟩ := h.runner hr
    obtain ⟨s', hs', -⟩ := h'.runner hr'
    refine ⟨r, s, r', s', hr, hs, hr', hs', fun x hx => ⟨_, h₀.counts_grow h hthere hr hs hx, ?_⟩⟩
    rw [hitems]
    exact h₀'.counts_grow h' hthere' hr' hs' hx
  · exact fun first last => ⟨h.leavesOut hs hk hunaided hrule,
      h'.leavesOut hs' hk' hunaided' hrule'⟩

end Runs

/-- A move while the worker has its job in hand, which does not keep the worker waiting. -/
def Undelayed (w : World) (m : Move) : Prop := w.HasInHand "a" 1 ∧ w.Heeds 1 m

instance (w : World) (m : Move) : Decidable (w.Undelayed m) := inferInstanceAs (Decidable (_ ∧ _))

/-- A job that may be called three times and does not depend on the store. -/
def steady : Job := (probe 3 (.ofMillis 250)).withCriticality .critical

/-- A critical job is handed in to a runner, and the worker takes it. -/
def steadyTaken : List Move :=
  [.runner "a" Runner.Config.usual, .handler flaky, .launch (.enqueue (.start "a" steady)), .step 0,
    .step 0, .step 0, .step 1, .step 1]

/-- Meanwhile somebody spoils the counter of running jobs, and the store is cut off. -/
def cutOff : List Move :=
  steadyTaken ++ [.call ⟨.nothing, .set jobCounterKey "many" none⟩, .reach false]

/-- The worker goes on with the job, whose first call fails and whose second one succeeds. -/
def steadyRun : List Move := .step 1 :: flakyRun

/-- A critical job is carried out without the store as it is with the store: the second call comes
after the same backoff, and the job counts as one that has succeeded. -/
theorem critical_job_indifferent_cutOff :
    ((around 0 .empty).after steadyTaken).diary "a" 1 steadyRun =
        ((around 0 .empty).after cutOff).diary "a" 1 steadyRun ∧
      ((around 0 .empty).after cutOff).diary "a" 1 steadyRun =
        ⟨[0], [0, 250000000], [(0, .panicked "lost"), (250000000, .succeeded)], 8,
          [.started, .ended .succeeded]⟩ ∧
      (((around 0 .empty).after steadyTaken).after steadyRun).entry steady.key.statusKey =
        some ⟨"succeeded", some (250000000 + 86400000000000)⟩ ∧
      (((around 0 .empty).after cutOff).after steadyRun).store.available = false := by
  have hreached : History (fun _ _ => True) (around 0 .empty) steadyTaken _ :=
    .of_check (by decide +kernel)
  have hcut : History (fun _ _ => True) (around 0 .empty) cutOff _ := .of_check (by decide +kernel)
  have hruns : History Undelayed ((around 0 .empty).after steadyTaken) steadyRun _ :=
    .of_check (by decide +kernel)
  have hruns' : History Undelayed ((around 0 .empty).after cutOff) steadyRun _ :=
    .of_check (by decide +kernel)
  obtain ⟨-, -, -, -, hsame, -⟩ := critical_job_indifferent hreached hcut
    (by decide +kernel : ((around 0 .empty).after steadyTaken).crew "a" 1 =
      some ⟨"a", 1, false, .admitting steady⟩) rfl
    (by decide +kernel : ((around 0 .empty).after cutOff).crew "a" 1 =
      some ⟨"a", 1, false, .admitting steady⟩) rfl
    rfl hruns (fun _ _ h => h.1) hruns' (fun _ _ h => h.1) (by decide +kernel) rfl rfl
  refine ⟨hsame (.inr ⟨by decide +kernel, fun _ _ h => h.2, fun _ _ h => h.2⟩), by rfl,
    by decide +kernel, by decide +kernel⟩

end World

end JobFleet
