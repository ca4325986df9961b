import JobFleet.Proofs.Runner.Course

/-!
# The stages of a trial

What is seen of a worker that carries out a job stands in its diary: when it called the job's
handler, when and how the calls ended, and what was counted. `Tries` says what stands in the diary
at every stage of the job, and `Closed` what stands there in the end: each step of the worker takes
the job from one stage to the next.
-/

namespace JobFleet

open Runner (Episode Item Verdict)

/-- What is seen of a worker that carries out a job: when it marked the job as running, when it
called the job's handler, when it learned that a call had ended, and how; how many steps it took,
and which jobs its runner counted as started or ended. -/
structure Diary where
  marks : List Nat
  calls : List Nat
  ends : List (Nat × Ending)
  steps : Nat
  items : List Item

namespace Diary

/-- A diary in which nothing stands. -/
def blank : Diary := ⟨[], [], [], 0, []⟩

/-- A diary that goes on with another. -/
def append (d e : Diary) : Diary :=
  ⟨d.marks ++ e.marks, d.calls ++ e.calls, d.ends ++ e.ends, d.steps + e.steps, d.items ++ e.items⟩

/-- Nothing comes after. -/
@[simp] theorem append_blank (d : Diary) : d.append blank = d := by simp [append, blank]

/-- Nothing comes before. -/
@[simp] theorem blank_append (d : Diary) : blank.append d = d := by simp [append, blank]

/-- Three parts of a diary one after another. -/
theorem append_assoc (d e f : Diary) : (d.append e).append f = d.append (e.append f) := by
  simp [append, Nat.add_assoc]

/-- How many calls have failed. -/
def failures (d : Diary) : Nat := d.ends.countP fun e => e.2.fault?.isSome

end Diary

/-- What is counted of a job that a worker has taken. -/
def Runner.Episode.outcome? : Episode → Option Item
  | .started _ => some .started
  | .ended _ v => some (.ended v)
  | _ => none

/-- What stands in a worker's diary of its next step. -/
def Worker.jots (k : Worker) (w : World) : Diary :=
  let items := ((k.episode? w).bind Episode.outcome?).toList
  match k.phase with
  | .beginning _ => ⟨[w.now], [], [], 1, items⟩
  | .calling _ => ⟨[], [w.now], [], 1, items⟩
  | .awaiting _ task => ⟨[], [], ((w.ending? task).map (w.now, ·)).toList, 1, items⟩
  | _ => ⟨[], [], [], 1, items⟩

/-! ## How many calls a job gets -/

/-- The number of calls that a job gets that may be called a number of times, if its calls end in a
given way one after another: up to the first that succeeds, if one of so many does, or all. -/
def callsNeeded (outcomes : Nat → Ending) (most : Nat) : Nat :=
  ((List.range most).find? fun j => (outcomes j).fault?.isNone).elim most (· + 1)

/-- Calls that have all failed. -/
def AllFailed (ends : List (Nat × Ending)) : Prop := ∀ e ∈ ends, e.2.fault? ≠ none

/-- The calls of a job that has come to its end, and the status that it ends with. -/
inductive Settles (most : Nat) : List (Nat × Ending) → JobStatus → Prop
  | succeeded {fails : List (Nat × Ending)} {e : Nat × Ending} (hfails : AllFailed fails)
      (hlt : fails.length < most) (hok : e.2.fault? = none) :
      Settles most (fails ++ [e]) .succeeded
  | failed {ends : List (Nat × Ending)} (hfails : AllFailed ends) (hlen : ends.length = most) :
      Settles most ends .failed

/-- One more call that fails. -/
theorem AllFailed.snoc {ends : List (Nat × Ending)} {e : Nat × Ending} (h : AllFailed ends)
    (he : e.2.fault? ≠ none) : AllFailed (ends ++ [e]) := by
  intro x hx
  rcases List.mem_append.mp hx with hx | hx
  · exact h x hx
  · rw [List.mem_singleton.mp hx]
    exact he

/-- All calls that have ended are failures. -/
theorem AllFailed.countP {ends : List (Nat × Ending)} (h : AllFailed ends) :
    (ends.countP fun e => e.2.fault?.isSome) = ends.length := by
  rw [List.countP_eq_length]
  exact fun e he => Option.isSome_iff_ne_none.mpr (h e he)

/-- A job that has come to its end has had as many calls as the ends of its calls ask for. -/
theorem Settles.callsNeeded {most : Nat} {ends : List (Nat × Ending)} {status : JobStatus}
    (h : Settles most ends status) {outcomes : Nat → Ending}
    (ho : ∀ j e, ends[j]? = some e → outcomes j = e.2) :
    ends.length = callsNeeded outcomes most := by
  have hfailed : ∀ {fails rest : List (Nat × Ending)}, ends = fails ++ rest → AllFailed fails →
      ∀ j, j < fails.length → (outcomes j).fault?.isNone = false := by
    rintro fails rest rfl hf j hj
    have hget := ho j fails[j] (by rw [List.getElem?_append_left hj, List.getElem?_eq_getElem hj])
    have hfault := hf fails[j] (List.getElem_mem hj)
    rw [hget]
    cases hx : (fails[j]).2.fault? with
    | none => exact absurd hx hfault
    | some fault => rfl
  unfold JobFleet.callsNeeded
  cases h with
  | @succeeded fails e hfails hlt hok =>
      have hfind : (List.range most).find? (fun j => (outcomes j).fault?.isNone) =
          some fails.length := by
        rw [List.find?_range_eq_some]
        refine ⟨?_, List.mem_range.mpr hlt, ?_⟩
        · rw [ho fails.length e (by simp), hok]
          rfl
        · intro j hj
          rw [hfailed rfl hfails j hj]
          rfl
      simp [hfind]
  | failed hfails hlen =>
      have hfind : (List.range most).find? (fun j => (outcomes j).fault?.isNone) = none := by
        rw [List.find?_eq_none]
        intro j hj
        rw [hfailed (List.append_nil _).symm hfails j (hlen ▸ List.mem_range.mp hj)]
        exact Bool.false_ne_true
      simp [hfind, hlen]

/-- Who ends as failed has had nothing but failures. -/
theorem Settles.allFailed {most : Nat} {ends : List (Nat × Ending)}
    (h : Settles most ends .failed) : AllFailed ends := by
  cases h with
  | failed hfails hlen => exact hfails

/-- No more calls end than there may be. -/
theorem Settles.length_le {most : Nat} {ends : List (Nat × Ending)} {status : JobStatus}
    (h : Settles most ends status) : ends.length ≤ most := by
  cases h with
  | succeeded hfails hlt hok =>
      rw [List.length_append]
      exact hlt
  | failed hfails hlen => exact Nat.le_of_eq hlen

/-- No more calls fail than end. -/
theorem Settles.failures_le {most : Nat} {d : Diary} {status : JobStatus}
    (h : Settles most d.ends status) : d.failures ≤ most :=
  Nat.le_trans List.countP_le_length h.length_le

/-- A job ends in the way in which its last call has ended. -/
theorem Settles.last {most : Nat} {ends : List (Nat × Ending)} {status : JobStatus}
    (h : Settles most ends status) (hone : 1 ≤ most) :
    ∃ e, ends.getLast? = some e ∧
      status = if e.2.fault? = none then .succeeded else .failed := by
  cases h with
  | @succeeded fails e hfails hlt hok => exact ⟨e, List.getLast?_concat, (if_pos hok).symm⟩
  | failed hfails hlen =>
      have hne : ends ≠ [] := by
        rintro rfl
        exact Nat.not_lt_zero _ (hlen ▸ hone)
      refine ⟨ends.getLast hne, List.getLast?_eq_some_getLast hne, (if_neg ?_).symm⟩
      exact hfails _ (List.getLast_mem hne)

/-! ## The course of a trial -/

/-- The instant at which the wait after a failure is over, if the worker learned of it at some
instant. -/
def Job.due (j : Job) (now failure : Nat) : Nat :=
  Clock.alarm now (j.retryPolicy.delayAfter failure)

/-- Every call but the first comes when the wait after the one before is over, and as soon as it is,
if the worker is never kept waiting. -/
def Paced (job : Job) (prompt : Prop) (d : Diary) : Prop :=
  ∀ j a e, d.calls[j + 1]? = some a → d.ends[j]? = some e →
    job.due e.1 (j + 1) ≤ a ∧ (prompt → a = job.due e.1 (j + 1))

/-- How a job that ended with a status is counted. -/
def JobStatus.verdict : JobStatus → Verdict
  | .succeeded => .succeeded
  | _ => .failed

/-- A job that is being tried has been marked and counted as started. If nobody else writes the key
of its status, the mark is there until its time to live is over. -/
structure Underway (t : Taken) (c : Runner.Config) (alone : Prop) (w : World) (d : Diary) :
    Prop where
  items : d.items = [.started]
  status : ∃ a, d.marks = [a] ∧ (alone → w.entry t.job.key.statusKey =
    (some ⟨JobStatus.running.text, some (Clock.expiry a c.runningTtl)⟩ : Option Entry).filter
      (Entry.live w.now))

/-- How far a worker has come with a job, given its diary. -/
inductive Tries (t : Taken) (c : Runner.Config) (prompt alone : Prop) (w : World) (d : Diary) :
    Worker.Phase → Prop
  | begins (hd : d = .blank) : Tries t c prompt alone w d (.beginning (t.tried 0))
  | calls (hu : Underway t c alone w d) (hf : AllFailed d.ends)
      (hlt : d.ends.length < t.job.maxAttempts) (hlen : d.calls.length = d.ends.length)
      (hsteps : d.steps = 3 * d.ends.length + 1)
      (hdue : ∀ e, d.ends.getLast? = some e → t.job.due e.1 d.ends.length ≤ w.now ∧
        (prompt → w.now = t.job.due e.1 d.ends.length)) :
      Tries t c prompt alone w d (.calling (t.tried d.ends.length))
  | awaits {task : TaskId} {call : HandlerCall} (hu : Underway t c alone w d)
      (hf : AllFailed d.ends) (hlt : d.ends.length < t.job.maxAttempts)
      (hlen : d.calls.length = d.ends.length + 1) (hsteps : d.steps = 3 * d.ends.length + 2)
      (hcall : w.tasks.find? task = some (.handler call)) (hh : call.handler = t.job.handler) :
      Tries t c prompt alone w d (.awaiting (t.tried d.ends.length) task)
  | succeeds {fails : Nat} (hu : Underway t c alone w d)
      (hs : Settles t.job.maxAttempts d.ends .succeeded) (hfails : d.failures = fails)
      (hlen : d.calls.length = d.ends.length) (hsteps : d.steps = 3 * d.ends.length) :
      Tries t c prompt alone w d (.succeeding (t.tried fails))
  | backsOff {wake : Nat} {e : Nat × Ending} (hu : Underway t c alone w d) (hf : AllFailed d.ends)
      (hlt : d.ends.length < t.job.maxAttempts) (hlen : d.calls.length = d.ends.length)
      (hsteps : d.steps = 3 * d.ends.length) (hlast : d.ends.getLast? = some e)
      (hwake : wake = t.job.due e.1 d.ends.length) (hnow : prompt → w.now ≤ wake) :
      Tries t c prompt alone w d (.backingOff (t.tried d.ends.length) wake)
  | exhausts (hu : Underway t c alone w d) (hs : Settles t.job.maxAttempts d.ends .failed)
      (hlen : d.calls.length = d.ends.length) (hsteps : d.steps = 3 * d.ends.length) :
      Tries t c prompt alone w d (.exhausted (t.tried d.ends.length))

/-- A job that has just come to its end: its status is written, and it is counted. -/
structure Closed (t : Taken) (c : Runner.Config) (w : World) (d : Diary) (status : JobStatus) :
    Prop where
  settles : Settles t.job.maxAttempts d.ends status
  calls : d.calls.length = d.ends.length
  items : d.items = [.started, .ended status.verdict]
  entry : w.entry t.job.key.statusKey =
    some ⟨status.text, some (Clock.expiry w.now (c.ttl status))⟩

/-- If nobody else writes the key of a job's status, what the key holds depends on the time alone.
-/
theorem Underway.entry {t : Taken} {c : Runner.Config} {alone : Prop} {w : World} {d : Diary}
    (h : Underway t c alone w d) (halone : alone) :
    ∃ marked, d.marks = [marked] ∧ w.entry t.job.key.statusKey =
      if w.now < Clock.expiry marked c.runningTtl then
        some ⟨JobStatus.running.text, some (Clock.expiry marked c.runningTtl)⟩
      else none := by
  obtain ⟨marked, hmarks, hentry⟩ := h.status
  refine ⟨marked, hmarks, (hentry halone).trans ?_⟩
  simp [Option.filter, Entry.live]

namespace Closed

variable {t : Taken} {c : Runner.Config} {w : World} {d : Diary} {status : JobStatus}

/-- The handler of a closed job has been called as often as the ends of its calls ask for. -/
theorem calls_eq (h : Closed t c w d status) {outcomes : Nat → Ending}
    (ho : ∀ j e, d.ends[j]? = some e → outcomes j = e.2) :
    d.calls.length = callsNeeded outcomes t.job.maxAttempts :=
  h.calls.trans (h.settles.callsNeeded ho)

/-- The last call of a closed job decides its status, which stays for the time to live of a status
that is final. -/
theorem last (h : Closed t c w d status) (hone : 1 ≤ t.job.maxAttempts) :
    ∃ last, d.ends.getLast? = some last ∧
      status = (if last.2.fault? = none then .succeeded else .failed) ∧
      w.entry t.job.key.statusKey =
        some ⟨status.text, some (Clock.expiry w.now c.terminalTtl)⟩ := by
  obtain ⟨last, hlast, hstatus⟩ := h.settles.last hone
  have hterminal : c.ttl status = c.terminalTtl := by
    rw [hstatus]
    split <;> rfl
  exact ⟨last, hlast, hstatus, hterminal ▸ h.entry⟩

end Closed

/-! ## What a step adds to the diary -/

namespace Paced

variable {job : Job} {prompt : Prop} {d : Diary}

/-- An empty diary keeps the pace. -/
theorem blank : Paced job prompt .blank := by
  intro j a e ha
  cases ha

/-- A step that neither calls nor learns how a call has ended. -/
theorem of_eq {d' : Diary} (h : Paced job prompt d) (hc : d'.calls = d.calls)
    (he : d'.ends = d.ends) : Paced job prompt d' := by
  unfold Paced
  rw [hc, he]
  exact h

/-- A call that comes when it is due. -/
theorem call {d' : Diary} {now : Nat} (h : Paced job prompt d) (hc : d'.calls = d.calls ++ [now])
    (he : d'.ends = d.ends) (hlen : d.calls.length = d.ends.length)
    (hdue : ∀ e, d.ends.getLast? = some e → job.due e.1 d.ends.length ≤ now ∧
      (prompt → now = job.due e.1 d.ends.length)) : Paced job prompt d' := by
  intro j a e ha hj
  rw [hc] at ha
  rw [he] at hj
  by_cases hlt : j + 1 < d.calls.length
  · rw [List.getElem?_append_left hlt] at ha
    exact h j a e ha hj
  · have hbound := (List.getElem?_eq_some_iff.mp hj).1
    have hlast : j + 1 = d.ends.length := by omega
    rw [List.getElem?_append_right (by omega), show j + 1 - d.calls.length = 0 by omega] at ha
    cases ha
    rw [hlast]
    refine hdue e ?_
    rw [List.getLast?_eq_getElem?, ← hlast]
    exact hj

/-- A call of which the worker learns that it has ended. -/
theorem learn {d' : Diary} {e : Nat × Ending} (h : Paced job prompt d) (hc : d'.calls = d.calls)
    (he : d'.ends = d.ends ++ [e]) (hlen : d.calls.length = d.ends.length + 1) :
    Paced job prompt d' := by
  intro j a e' ha hj
  rw [hc] at ha
  have hbound := (List.getElem?_eq_some_iff.mp ha).1
  rw [he, List.getElem?_append_left (by omega)] at hj
  exact h j a e' ha hj

end Paced

namespace Worker

variable {k : Worker} {w : World} {t : Taken}

/-- What is jotted down of the counts is how an episode counts. -/
theorem jots_items : (k.jots w).items = ((k.episode? w).bind Episode.outcome?).toList := by
  unfold jots
  split <;> rfl

/-- A beginning is jotted down as a mark. -/
theorem jots_beginning (hp : k.phase = .beginning t) (ha : k.answered w = true) :
    k.jots w = ⟨[w.now], [], [], 1, [.started]⟩ := by
  have hrecords : k.records t.job .running w = true := answered_records (by rw [hp]; rfl) ha
  simp [jots, hp, episode?, hrecords, Episode.outcome?]

/-- A worker that writes a status neither calls nor learns how a call has ended. -/
theorem jots_marks {status : JobStatus} (hp : k.phase.marks? = some (t, status)) :
    (k.jots w).calls = [] ∧ (k.jots w).ends = [] := by
  cases hphase : k.phase with
  | calling t' =>
      rw [hphase] at hp
      cases hp
  | awaiting t' task =>
      rw [hphase] at hp
      cases hp
  | _ => simp [jots, hphase]

/-- A call is jotted down with its instant. -/
theorem jots_calling (hp : k.phase = .calling t) : k.jots w = ⟨[], [w.now], [], 1, []⟩ := by
  simp [jots, hp, episode?, Episode.outcome?]

/-- The end of a call is jotted down with its instant. -/
theorem jots_awaiting {task : TaskId} {e : Ending} (hp : k.phase = .awaiting t task)
    (he : w.ending? task = some e) : k.jots w = ⟨[], [], [(w.now, e)], 1, []⟩ := by
  simp [jots, hp, he, episode?]

/-- The end of a backoff is jotted down as a step. -/
theorem jots_backingOff {wake : Nat} (hp : k.phase = .backingOff t wake) :
    k.jots w = ⟨[], [], [], 1, []⟩ := by
  simp [jots, hp, episode?]

/-- A success is jotted down as an outcome. -/
theorem jots_succeeding (hp : k.phase = .succeeding t) (ha : k.answered w = true) :
    k.jots w = ⟨[], [], [], 1, [.ended .succeeded]⟩ := by
  have hrecords : k.records t.job .succeeded w = true := answered_records (by rw [hp]; rfl) ha
  simp [jots, hp, episode?, hrecords, Episode.outcome?]

/-- The last failure is jotted down as an outcome. -/
theorem jots_exhausted (hp : k.phase = .exhausted t) :
    k.jots w = ⟨[], [], [], 1, [.ended .failed]⟩ := by
  simp [jots, hp, episode?, Episode.outcome?]

end Worker

/-- A step in which the mark stays. -/
theorem Underway.step {t : Taken} {c : Runner.Config} {alone : Prop} {v w : World} {d d' : Diary}
    (h : Underway t c alone v d) (hnow : w.now = v.now)
    (he : w.entry t.job.key.statusKey = v.entry t.job.key.statusKey) (hi : d'.items = d.items)
    (hm : d'.marks = d.marks) : Underway t c alone w d' := by
  refine ⟨hi.trans h.items, ?_⟩
  obtain ⟨a, ha, hentry⟩ := h.status
  refine ⟨a, hm.trans ha, ?_⟩
  rw [he, hnow]
  exact hentry

/-- What the next step of a worker makes of the world, as far as its job is concerned. -/
structure Worker.Does (k : Worker) (t : Taken) (c : Runner.Config) (v w : World) : Prop where
  now : w.now = v.now
  entry : w.entry t.job.key.statusKey =
    match k.phase.marks? with
    | some (_, status) => some ⟨status.text, some (Clock.expiry v.now (c.ttl status))⟩
    | none => v.entry t.job.key.statusKey
  call : ∀ t', k.phase = .calling t' →
    w.tasks.find? v.nextTask = some (.handler (.start t'.job.handler))

/-- A status that has just been written is there. -/
theorem filter_live_expiry (text : String) (now : Nat) (ttl : Duration) :
    (some ⟨text, some (Clock.expiry now ttl)⟩ : Option Entry).filter (Entry.live now) =
      some ⟨text, some (Clock.expiry now ttl)⟩ := by
  have hlive := Clock.lt_expiry now ttl
  simp [Option.filter, Entry.live, hlive]

namespace Tries

variable {t t' : Taken} {c : Runner.Config} {prompt alone : Prop} {v w : World} {d : Diary}
  {k : Worker} {task : TaskId} {e : Ending}

/-- The job is marked as running. -/
theorem marked (h : Tries t c prompt alone v d (.beginning t')) (hone : 1 ≤ t.job.maxAttempts)
    (hnow : w.now = v.now) (hentry : w.entry t.job.key.statusKey =
      some ⟨JobStatus.running.text, some (Clock.expiry v.now c.runningTtl)⟩) :
    Tries t c prompt alone w (d.append ⟨[v.now], [], [], 1, [.started]⟩) (.calling t') := by
  cases h with
  | begins hd =>
      subst hd
      refine .calls (d := ⟨[v.now], [], [], 1, [.started]⟩) ⟨rfl, v.now, rfl, fun _ => ?_⟩
        nofun hone rfl rfl nofun
      rw [hentry, hnow, filter_live_expiry]

/-- The job's handler is called. -/
theorem called (h : Tries t c prompt alone v d (.calling t')) (hnow : w.now = v.now)
    (hentry : w.entry t.job.key.statusKey = v.entry t.job.key.statusKey)
    (hcall : w.tasks.find? task = some (.handler (.start t'.job.handler))) :
    Tries t c prompt alone w (d.append ⟨[], [v.now], [], 1, []⟩) (.awaiting t' task) := by
  cases h with
  | calls hu hf hlt hlen hsteps hdue =>
      have hends : (d.append ⟨[], [v.now], [], 1, []⟩).ends = d.ends := List.append_nil _
      rw [← hends]
      refine .awaits (hu.step hnow hentry (List.append_nil _) (List.append_nil _)) ?_ ?_ ?_ ?_
        hcall rfl
      · rwa [hends]
      · rwa [hends]
      · simp [Diary.append, hlen]
      · simp [Diary.append, hsteps]

/-- What the end of a call adds to a job whose calls have all failed. -/
theorem learned (h : Tries t c prompt alone v d (.awaiting t' task)) (hnow : w.now = v.now)
    (hentry : w.entry t.job.key.statusKey = v.entry t.job.key.statusKey) :
    t' = t.tried d.ends.length ∧ AllFailed d.ends ∧ d.ends.length < t.job.maxAttempts ∧
      d.calls.length = d.ends.length + 1 ∧ d.steps = 3 * d.ends.length + 2 ∧
      Underway t c alone w (d.append ⟨[], [], [(v.now, e)], 1, []⟩) := by
  cases h with
  | awaits hu hf hlt hlen hsteps hcall hh =>
      exact ⟨rfl, hf, hlt, hlen, hsteps,
        hu.step hnow hentry (List.append_nil _) (List.append_nil _)⟩

/-- The call has succeeded. -/
theorem succeeded (h : Tries t c prompt alone v d (.awaiting t' task)) (hnow : w.now = v.now)
    (hentry : w.entry t.job.key.statusKey = v.entry t.job.key.statusKey) (hok : e.fault? = none) :
    Tries t c prompt alone w (d.append ⟨[], [], [(v.now, e)], 1, []⟩) (.succeeding t') := by
  obtain ⟨rfl, hf, hlt, hlen, hsteps, hu⟩ := h.learned (e := e) hnow hentry
  refine .succeeds hu (.succeeded hf hlt hok) ?_ ?_ ?_
  · simp [Diary.failures, Diary.append, List.countP_append, hf.countP, hok]
  · simp [Diary.append, hlen]
  · simp only [Diary.append, List.length_append, List.length_singleton, hsteps]
    omega

/-- The call has failed, and another one is left. -/
theorem failed (h : Tries t c prompt alone v d (.awaiting t' task)) (hnow : w.now = v.now)
    (hentry : w.entry t.job.key.statusKey = v.entry t.job.key.statusKey) (hfault : e.fault? ≠ none)
    (hmore : t'.job.failures + 1 < t'.job.maxAttempts) :
    Tries t c prompt alone w (d.append ⟨[], [], [(v.now, e)], 1, []⟩)
      (.backingOff (t'.tried (t'.job.failures + 1))
        (Clock.alarm v.now (t'.job.retryPolicy.delayAfter (t'.job.failures + 1)))) := by
  obtain ⟨rfl, hf, hlt, hlen, hsteps, hu⟩ := h.learned (e := e) hnow hentry
  have hends : (d.append ⟨[], [], [(v.now, e)], 1, []⟩).ends.length = d.ends.length + 1 := by
    simp [Diary.append]
  have hgoal : Tries t c prompt alone w _ _ := .backsOff (e := (v.now, e)) hu (hf.snoc hfault)
    (hends ▸ hmore) ?_ ?_ (by simp [Diary.append]) rfl ?_
  · rw [hends] at hgoal
    exact hgoal
  · rw [hends]
    simp [Diary.append, hlen]
  · rw [hends]
    simp only [Diary.append, hsteps]
    omega
  · intro _
    rw [hnow]
    exact Clock.now_le_alarm _ _

/-- The call has failed, and it was the last one. -/
theorem exhausted (h : Tries t c prompt alone v d (.awaiting t' task)) (hnow : w.now = v.now)
    (hentry : w.entry t.job.key.statusKey = v.entry t.job.key.statusKey) (hfault : e.fault? ≠ none)
    (hmore : t'.job.maxAttempts ≤ t'.job.failures + 1) :
    Tries t c prompt alone w (d.append ⟨[], [], [(v.now, e)], 1, []⟩)
      (.exhausted (t'.tried (t'.job.failures + 1))) := by
  obtain ⟨rfl, hf, hlt, hlen, hsteps, hu⟩ := h.learned (e := e) hnow hentry
  have hends : (d.append ⟨[], [], [(v.now, e)], 1, []⟩).ends.length = d.ends.length + 1 := by
    simp [Diary.append]
  have hgoal : Tries t c prompt alone w _ _ :=
    .exhausts hu (.failed (hf.snoc hfault) ?_) ?_ ?_
  · rw [hends] at hgoal
    exact hgoal
  · rw [hends]
    exact Nat.le_antisymm hlt hmore
  · rw [hends]
    simp [Diary.append, hlen]
  · rw [hends]
    simp only [Diary.append, hsteps]
    omega

/-- The wait is over. -/
theorem resumed {wake : Nat} (h : Tries t c prompt alone v d (.backingOff t' wake))
    (hnow : w.now = v.now)
    (hentry : w.entry t.job.key.statusKey = v.entry t.job.key.statusKey) (hw : wake ≤ v.now) :
    Tries t c prompt alone w (d.append ⟨[], [], [], 1, []⟩) (.calling t') := by
  cases h with
  | @backsOff _ e hu hf hlt hlen hsteps hlast hwake hprompt =>
      have hends : (d.append ⟨[], [], [], 1, []⟩).ends = d.ends := List.append_nil _
      rw [← hends]
      refine .calls (hu.step hnow hentry (List.append_nil _) (List.append_nil _)) ?_ ?_ ?_ ?_ ?_
      · rwa [hends]
      · rwa [hends]
      · simp [Diary.append, hlen]
      · simp [Diary.append, hsteps]
      · intro e' he
        rw [hends] at he ⊢
        cases hlast.symm.trans he
        rw [hnow, ← hwake]
        exact ⟨hw, fun hp => Nat.le_antisymm (hprompt hp) hw⟩

/-- The end of the job is written. -/
theorem closed {status : JobStatus} (h : Tries t c prompt alone v d k.phase)
    (hm : k.phase.marks? = some (t', status)) (hs : status ≠ .running)
    (ha : k.answered v = true) (hnow : w.now = v.now) (hentry : w.entry t.job.key.statusKey =
      some ⟨status.text, some (Clock.expiry v.now (c.ttl status))⟩) :
    Closed t c w (d.append (k.jots v)) status := by
  cases hphase : k.phase with
  | beginning t'' =>
      rw [hphase] at hm
      cases hm
      exact absurd rfl hs
  | succeeding t'' =>
      rw [Worker.jots_succeeding hphase ha]
      rw [hphase] at hm h
      cases hm
      cases h with
      | succeeds hu hsettles hfails hlen hsteps =>
          refine ⟨?_, ?_, ?_, by rw [hnow]; exact hentry⟩
          · simpa [Diary.append] using hsettles
          · simpa [Diary.append] using hlen
          · simp [Diary.append, hu.items, JobStatus.verdict]
  | exhausted t'' =>
      rw [Worker.jots_exhausted hphase]
      rw [hphase] at hm h
      cases hm
      cases h with
      | exhausts hu hsettles hlen hsteps =>
          refine ⟨?_, ?_, ?_, by rw [hnow]; exact hentry⟩
          · simpa [Diary.append] using hsettles
          · simpa [Diary.append] using hlen
          · simp [Diary.append, hu.items, JobStatus.verdict]
  | _ =>
      rw [hphase] at hm
      cases hm

/-- Where a step of a worker takes a job. -/
theorem advance {goal : Worker.Phase} (h : Tries t c prompt alone v d k.phase)
    (hpaced : Paced t.job prompt d) (hone : 1 ≤ t.job.maxAttempts) (ha : k.answered v = true)
    (hadv : k.Advance v goal) (hdoes : k.Does t c v w) :
    Paced t.job prompt (d.append (k.jots v)) ∧
      (Tries t c prompt alone w (d.append (k.jots v)) goal ∨
        goal.pursues? = none ∧ ∃ status, Closed t c w (d.append (k.jots v)) status) := by
  obtain ⟨hnow, hentry, hcall⟩ := hdoes
  cases hadv with
  | marks hp =>
      rw [Worker.jots_beginning hp ha]
      rw [hp] at h hentry
      exact ⟨hpaced.of_eq (List.append_nil _) (List.append_nil _),
        .inl (h.marked hone hnow hentry)⟩
  | calls hp =>
      rw [Worker.jots_calling hp]
      have hspawned := hcall _ hp
      rw [hp] at h hentry
      refine ⟨?_, .inl (h.called hnow hentry hspawned)⟩
      cases h with
      | calls hu hf hlt hlen hsteps hdue => exact hpaced.call rfl (List.append_nil _) hlen hdue
  | @succeeds t' task e hp he hok =>
      rw [Worker.jots_awaiting hp he]
      rw [hp] at h hentry
      have hlen := (h.learned (e := e) hnow hentry).2.2.2.1
      exact ⟨hpaced.learn (List.append_nil _) rfl hlen, .inl (h.succeeded hnow hentry hok)⟩
  | @backsOff t' task e hp he hfault hmore =>
      rw [Worker.jots_awaiting hp he]
      rw [hp] at h hentry
      have hlen := (h.learned (e := e) hnow hentry).2.2.2.1
      exact ⟨hpaced.learn (List.append_nil _) rfl hlen,
        .inl (h.failed hnow hentry hfault hmore)⟩
  | @exhausts t' task e hp he hfault hmore =>
      rw [Worker.jots_awaiting hp he]
      rw [hp] at h hentry
      have hlen := (h.learned (e := e) hnow hentry).2.2.2.1
      exact ⟨hpaced.learn (List.append_nil _) rfl hlen,
        .inl (h.exhausted hnow hentry hfault hmore)⟩
  | resumes hp hw =>
      rw [Worker.jots_backingOff hp]
      rw [hp] at h hentry
      exact ⟨hpaced.of_eq (List.append_nil _) (List.append_nil _),
        .inl (h.resumed hnow hentry hw)⟩
  | @closes t' status hp hs =>
      rw [hp] at hentry
      have hclosed := h.closed hp hs ha hnow hentry
      refine ⟨?_, .inr ⟨Worker.afterJob_pursues? t', status, hclosed⟩⟩
      obtain ⟨hcalls, hends⟩ := Worker.jots_marks (w := v) hp
      refine hpaced.of_eq ?_ ?_
      · simp [Diary.append, hcalls]
      · simp [Diary.append, hends]

/-! ## What holds at every stage -/

/-- The job in hand is the one that was admitted, with as many failures as calls have failed. -/
theorem pursues {p : Worker.Phase} (h : Tries t c prompt alone w d p) :
    p.pursues? = some (t.tried d.failures) := by
  cases h with
  | begins hd =>
      subst hd
      rfl
  | calls hu hf => rw [Diary.failures, hf.countP]; rfl
  | awaits hu hf => rw [Diary.failures, hf.countP]; rfl
  | succeeds hu hs hfails => rw [hfails]; rfl
  | backsOff hu hf => rw [Diary.failures, hf.countP]; rfl
  | exhausts hu hs => rw [Diary.failures, hs.allFailed.countP]; rfl

/-- No more calls have ended than there may be. -/
theorem ends_le {p : Worker.Phase} (h : Tries t c prompt alone w d p) :
    d.ends.length ≤ t.job.maxAttempts := by
  cases h with
  | begins hd =>
      subst hd
      exact Nat.zero_le _
  | calls hu hf hlt => exact Nat.le_of_lt hlt
  | awaits hu hf hlt => exact Nat.le_of_lt hlt
  | succeeds hu hs => exact hs.length_le
  | backsOff hu hf hlt => exact Nat.le_of_lt hlt
  | exhausts hu hs => exact hs.length_le

/-- A job has no more failures than it has attempts. -/
theorem failures_le {p : Worker.Phase} (h : Tries t c prompt alone w d p) :
    d.failures ≤ t.job.maxAttempts :=
  Nat.le_trans List.countP_le_length h.ends_le

/-- Until the end of its job is written, a worker takes three steps for every call at most. -/
theorem steps_le {p : Worker.Phase} (h : Tries t c prompt alone w d p) :
    d.steps ≤ 3 * t.job.maxAttempts := by
  cases h with
  | begins hd =>
      subst hd
      exact Nat.zero_le _
  | calls hu hf hlt hlen hsteps => omega
  | awaits hu hf hlt hlen hsteps => omega
  | succeeds hu hs hfails hlen hsteps =>
      rw [hsteps]
      exact Nat.mul_le_mul_left 3 hs.length_le
  | backsOff hu hf hlt hlen hsteps => omega
  | exhausts hu hs hlen hsteps =>
      rw [hsteps]
      exact Nat.mul_le_mul_left 3 hs.length_le

/-- A worker that carries out a job can go on, or it waits for a call or for an instant. -/
theorem goes_on {i : TaskId} (h : Tries t c prompt alone w d k.phase)
    (hi : w.tasks.find? i = some (.worker k)) :
    w.enabled i = true ∨ (∃ t' task, k.phase = .awaiting t' task ∧ w.ending? task = none) ∨
      ∃ t' wake, k.phase = .backingOff t' wake ∧ w.now < wake := by
  have hcall : ∀ t' task, k.phase = .awaiting t' task →
      ∃ call, w.tasks.find? task = some (.handler call) := by
    intro t' task hphase
    rw [hphase] at h
    cases h with
    | awaits hu hf hlt hlen hsteps hcall hh => exact ⟨_, hcall⟩
  rcases World.goes_on hi hcall with hready | hopen | ⟨t', wake, hphase, -, hwake⟩ |
    ⟨t', attempt, wake, hphase, -⟩
  · exact .inl hready
  · exact .inr (.inl hopen)
  · exact .inr (.inr ⟨t', wake, hphase, hwake⟩)
  · rw [hphase] at h
    cases h

/-- The call that a worker waits for is one of its job's handler. -/
theorem call {t' : Taken} (h : Tries t c prompt alone w d k.phase)
    (hphase : k.phase = .awaiting t' task) :
    ∃ call, w.tasks.find? task = some (.handler call) ∧ call.handler = t.job.handler := by
  rw [hphase] at h
  cases h with
  | awaits hu hf hlt hlen hsteps hcall hh => exact ⟨_, hcall, hh⟩

/-- A job that is not about to be marked is underway. -/
theorem underway {p : Worker.Phase} {t' : Taken} (h : Tries t c prompt alone w d p)
    (hp : p.pursues? = some t') (hne : p ≠ .beginning t') : Underway t c alone w d := by
  cases h with
  | begins hd =>
      cases hp
      exact absurd rfl hne
  | calls hu => exact hu
  | awaits hu => exact hu
  | succeeds hu => exact hu
  | backsOff hu => exact hu
  | exhausts hu => exact hu

end Tries

end JobFleet
