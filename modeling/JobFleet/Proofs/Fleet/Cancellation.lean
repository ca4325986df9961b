import JobFleet.Proofs.Fleet.Balance
import JobFleet.Proofs.Fleet.Claim
import JobFleet.Proofs.Fleet.Served
import JobFleet.Proofs.Fleet.Tenants
import JobFleet.Proofs.Fleet.Trials
import JobFleet.Proofs.Runner.Winding

/-!
# What a cancelled worker still does

A stop cancels the worker of a runner, whatever that is doing. From then on the worker only winds
up: it makes one more call at most, the first one of the job that it has in hand; it puts that job
down with a final status, gives its slot back and ends. It takes no job from the queue and writes no
status but that of its own job.
-/

namespace JobFleet

open Runner (Account Episode Hand)

namespace Runner.Account

/-- A job is the one that was taken last, and its handler has not been called since. -/
def Uncalled (tale : List Episode) (job : Job) : Prop :=
  ∃ before taken after, tale = before ++ .taken taken :: after ∧ taken.untried = job ∧
    ∀ e ∈ after, e.Holds ∧ ∀ j, e ≠ .called j

variable {tale : List Episode} {job : Job}

/-- A tale goes on without a call. -/
theorem Uncalled.snoc (h : Uncalled tale job) {e : Episode} (he : e.Holds)
    (hc : ∀ j, e ≠ .called j) : Uncalled (tale ++ [e]) job := by
  obtain ⟨before, taken, after, rfl, hjob, hafter⟩ := h
  refine ⟨before, taken, after ++ [e], by rw [List.append_assoc, List.cons_append], hjob, ?_⟩
  intro e' he'
  rcases List.mem_append.mp he' with hin | hin
  · exact hafter e' hin
  · cases List.mem_singleton.mp hin
    exact ⟨he, hc⟩

/-- The queue is as before but for what is accepted, as long as nothing is taken out of it. -/
theorem Posts.waiting {a a' : Account} {episode : Option Episode} (h : a.Posts episode a')
    (hne : ∀ job, episode ≠ some (.taken job)) :
    a'.waiting = a.waiting ++ (episode.toList.filterMap Episode.accepted?) := by
  cases h with
  | takes hq hh => exact absurd rfl (hne _)
  | accepts job => rfl
  | _ => exact (List.append_nil _).symm

end Runner.Account

/-- A handler is called by a worker that is about to call it. -/
theorem Worker.phase_of_called {k : Worker} {w : World} {job : Job}
    (h : k.episode? w = some (.called job)) : ∃ t, k.phase = .calling t ∧ t.job.untried = job := by
  unfold episode? at h
  split at h
  · obtain ⟨job', -, he⟩ := Option.map_eq_some_iff.mp h
    cases he
  · cases h
  · split at h <;> cases h
  · rename_i t hp
    cases h
    exact ⟨t, hp, rfl⟩
  · split at h <;> cases h
  · cases h
  · cases h
  · cases h

namespace World

variable {rule : World → Move → Prop} {u v w : World} {name : String} {i : TaskId} {k : Worker}
  {m : Move} {ms : List Move} {c : Runner.Config}

/-! ## Before the cancellation -/

/-- The last step of a worker in the course of some moves began in a phase. -/
def LastFrom (name : String) (i : TaskId) (start : World) (ms : List Move)
    (p : Worker.Phase) : Prop :=
  ∃ first last k, ms = first ++ .step i :: last ∧ (∀ m ∈ last, m ≠ .step i) ∧
    (start.after first).crew name i = some k ∧ k.phase = p

/-- A move of another task leaves the last step as it was. -/
theorem LastFrom.snoc {p : Worker.Phase} (h : LastFrom name i u ms p) (hstep : m ≠ .step i) :
    LastFrom name i u (ms ++ [m]) p := by
  obtain ⟨first, last, k, rfl, hlast, hk⟩ := h
  refine ⟨first, last ++ [m], k, by rw [List.append_assoc, List.cons_append], ?_, hk⟩
  intro m' hm'
  rcases List.mem_append.mp hm' with hin | hin
  · exact hlast m' hin
  · cases List.mem_singleton.mp hin
    exact hstep

/-- A worker that is about to call the handler of its job has not called it since it took the job,
unless it comes out of a backoff. -/
def CallsFirst (name : String) (i : TaskId) (start : World) (ms : List Move) (w : World) : Prop :=
  ∀ k hand, w.crew name i = some k → k.phase.hand? = some hand → k.phase.callsLeft = 1 →
    Account.Uncalled (start.tale name ms) hand.job ∨
      ∃ t t' wake, k.phase = .calling t ∧ LastFrom name i start ms (.backingOff t' wake)

/-- A step of a worker. -/
theorem CallsFirst.own (h : CallsFirst name i u ms v) (hu : u.after ms = v) (hs : v.Sound)
    (hm : v.Admits (.step i)) :
    CallsFirst name i u (ms ++ [.step i]) (v.move (.step i)) := by
  intro k' hand hk' hh hcall
  obtain ⟨k, hk, hleft⟩ := crew_of_step hm hk'
  obtain ⟨ht, hname⟩ := crew_eq_some.mp hk
  obtain ⟨r, hr⟩ := hs.employed i _ k.runner ht rfl
  have hturn := k.step_turn v
  obtain ⟨r', hmade, -⟩ := k.step_runner hr
  rw [hleft] at hturn hmade
  rw [tale_snoc, hu, episode?_of_crew hk]
  have hwas := hturn.before_call hcall
  generalize k.episode? v = episode at hmade
  cases hmade with
  | takes hp hc hq =>
      cases hh
      exact .inl ⟨_, _, [], rfl, rfl, nofun⟩
  | begins hp =>
      cases hh
      rcases h k _ hk (by rw [hp]; rfl) (by rw [hp]; rfl) with hyes | ⟨_, _, _, hq, -⟩
      · exact .inl (hyes.snoc ⟨rfl, rfl⟩ nofun)
      · cases hp.symm.trans hq
  | calls hp => cases hcall
  | ends hnone hv hg => cases hg.symm.trans hh
  | goesOn hne hg =>
      rw [Option.toList_none, List.append_nil]
      have hh₀ : k.phase.hand? = some hand := hg.symm.trans hh
      have hkept : k.phase.callsLeft = 1 → (∀ t, k.phase ≠ .calling t) →
          Account.Uncalled (u.tale name ms) hand.job := by
        intro hone hno
        rcases h k hand hk hh₀ hone with hyes | ⟨t, -, -, hq, -⟩
        · exact hyes
        · exact absurd hq (hno t)
      rcases hwas with ⟨hq, -⟩ | ⟨job, hq⟩ | ⟨t, hq⟩ | ⟨t, wake, hq, -, hgoal⟩
      · exact absurd hq hne
      · exact .inl (hkept (by rw [hq]; rfl) fun t he => nomatch hq.symm.trans he)
      · exact .inl (hkept (by rw [hq]; rfl) fun t he => nomatch hq.symm.trans he)
      · refine .inr ⟨t, t, wake, hgoal, ms, [], k, rfl, ?_, by rw [hu]; exact hk, hq⟩
        exact fun _ hin => absurd hin List.not_mem_nil

/-- A move of somebody else. -/
theorem CallsFirst.other (h : CallsFirst name i u ms v) (hu : u.after ms = v) (hs : v.Sound)
    (hstaffed : v.Staffed name) (hm : v.Admits m) (hstep : m ≠ .step i) :
    CallsFirst name i u (ms ++ [m]) (v.move m) := by
  intro k' hand hk' hh hcall
  obtain ⟨ht', hname⟩ := crew_eq_some.mp hk'
  rcases hs.move_worker hm ht' with ⟨k, hk, hphase, hr⟩ | hnew | ⟨-, he, -⟩
  · rw [hphase] at hh hcall
    have hcrew : v.crew name i = some k := crew_eq_some.mpr ⟨hk, hr.symm.trans hname⟩
    rw [tale_snoc, hu]
    rcases h k hand hcrew hh hcall with hyes | ⟨t, t', wake, hq, hlast⟩
    · refine .inl ?_
      rcases hstaffed.episode?_other hcrew hstep with hnone | ⟨job, hjob⟩
      · rw [hnone, Option.toList_none, List.append_nil]
        exact hyes
      · rw [hjob]
        exact hyes.snoc ⟨rfl, rfl⟩ nofun
    · exact .inr ⟨t, t', wake, hphase.trans hq, hlast.snoc hstep⟩
  · rw [hnew] at hh
    cases hh
  · exact absurd he hstep

/-- In every history a worker's first call is the one its hand holds. -/
theorem History.callsFirst {utc : Int} {s : Store} (h : History rule (around utc s) ms w)
    (name : String) (i : TaskId) : CallsFirst name i (around utc s) ms w := by
  induction h with
  | nil =>
      intro k hand hk
      cases hk
  | @snoc ms v m h possible obeys ih =>
      by_cases hstep : m = .step i
      · subst hstep
        exact ih.own h.after_eq h.regular.sound possible
      · exact ih.other h.after_eq h.regular.sound (h.staffed name) possible hstep

/-- A hand-in under judgement has read a status that is free. -/
theorem History.reads {utc : Int} {s : Store} (h : History rule (around utc s) ms w) :
    w.ReadsFree := by
  induction h with
  | nil =>
      intro i t e held ht
      cases ht
  | snoc h possible obeys ih => exact ih.move h.regular.sound possible

/-! ## A worker that is cancelled -/

/-- A step that a worker of a runner takes out of a backoff that is over. -/
def Oversleeps (name : String) (i : TaskId) (w : World) : Move → Prop
  | .step j => j = i ∧ (w.crew name i).any (Worker.oversleeps · w) = true
  | _ => False

instance (name : String) (i : TaskId) (w : World) (m : Move) :
    Decidable (w.Oversleeps name i m) :=
  match m with
  | .step j => inferInstanceAs (Decidable
      (j = i ∧ (w.crew name i).any (Worker.oversleeps · w) = true))
  | .pass _ | .turn _ | .favour _ | .launch _ | .collect _ | .disturb _ | .reach _ | .call _
  | .openGate .. | .handler _ | .runner .. | .scheduler .. | .limiter .. | .lock .. | .app ..
  | .update .. => .isFalse id

/-- A move that lets a cancelled worker wind up: the store goes on to answer, and the worker does
not take its next step only when a backoff is over. -/
def Unblocked (name : String) (i : TaskId) (w : World) (m : Move) : Prop :=
  ¬ w.Cuts m ∧ ¬ w.Oversleeps name i m

instance (name : String) (i : TaskId) (w : World) (m : Move) :
    Decidable (w.Unblocked name i m) :=
  inferInstanceAs (Decidable (_ ∧ _))

/-- A fleet in order that answers the calls of a runner's worker. -/
structure InOrder (name : String) (c : Runner.Config) (w : World) : Prop where
  regular : w.Regular
  staffed : w.Staffed name
  fair : w.Fair
  reads : w.ReadsFree
  answers : w.Answers
  runner : ∃ r, w.runners.find? name = some r ∧ r.config = c

/-- The runner keeps its configuration. -/
theorem InOrder.config (h : w.InOrder name c) : w.runnerConfig name = c := by
  obtain ⟨r, hr, rfl⟩ := h.runner
  simp [runnerConfig, hr]

/-- A move that does not cut the store off keeps it in order. -/
theorem InOrder.move (h : w.InOrder name c) (hm : w.Admits m) (hc : ¬ w.Cuts m) :
    (w.move m).InOrder name c where
  regular := h.regular.move hm
  staffed := h.staffed.move h.regular hm
  fair := h.regular.sound.fair_move h.fair hm
  reads := h.reads.move h.regular.sound hm
  answers := h.answers.move hm hc
  runner := by
    obtain ⟨r, hr, hconfig⟩ := h.runner
    obtain ⟨r', hr', hc'⟩ := move_runner hm hr
    exact ⟨r', hr', hc'.trans hconfig⟩

/-- A history that never cuts the store off keeps it in order. -/
theorem History.inOrder (h : History rule u ms w) (hu : u.InOrder name c)
    (hrule : ∀ v m, rule v m → v.Unblocked name i m) : w.InOrder name c :=
  h.keeps hu fun v m hm obeys hv => hv.move hm (hrule v m obeys).1

/-- A worker that has been cancelled stays as it is in the moves of others. -/
theorem Regular.cancelled_kept (h : w.Regular) (hm : w.Admits m) (hk : w.crew name i = some k)
    (hc : k.cancelled = true) (hstep : m ≠ .step i) : (w.move m).crew name i = some k := by
  obtain ⟨ht, hname⟩ := crew_eq_some.mp hk
  obtain ⟨r, hr⟩ := h.sound.employed i _ name ht (congrArg some hname)
  have hne : i ≠ w.nextTask := Nat.ne_of_lt (h.sound.fresh.lt ht)
  cases h.runnerMove hr hm with
  | passes apart shuns => rw [apart.crew, hk]
  | handsIn _ _ _ _ _ _ _ leaves => rw [leaves.crew, if_neg hne, hk]
  | givesUp _ _ _ _ _ _ leaves => rw [leaves.crew, if_neg hne, hk]
  | @works id _ _ _ _ he _ _ _ _ crew =>
      have hid : i ≠ id := fun hi => hstep (by rw [he, hi])
      rw [crew, if_neg hid, hk]
  | stops _ _ _ _ _ _ crew =>
      have hsame : k.cancel = k := by
        rw [Worker.cancel, ← hc]
      rw [crew, hk]
      split
      · rw [Option.map_some, hsame]
      · rfl

/-- How far a cancelled worker has come, given its diary: it is gone, or is in a phase with few
steps left, and has no other job in hand. -/
structure WindsDown (name : String) (i : TaskId) (k : Worker) (most : Nat) (w : World)
    (d : Diary) : Prop where
  stage : w.running i = false ∧ i < w.nextTask ∨ ∃ p, w.crew name i = some (k.inPhase p) ∧
    ∀ hand', p.hand? = some hand' → ∃ hand, k.phase.hand? = some hand ∧ hand.job = hand'.job
  calls : d.calls.length + ((w.crew name i).elim 0 fun k' => k'.phase.callsLeft) ≤
    k.phase.callsLeft
  steps : d.steps + ((w.crew name i).elim 0 fun k' => k'.phase.stepsLeft most) ≤
    k.phase.stepsLeft most

/-- A task that is gone is no worker. -/
theorem crew_of_gone (h : w.running i = false) : w.crew name i = none :=
  crew_of_none (by simpa [running, Table.contains] using h)

/-- A worker winds down from where it stands. -/
theorem WindsDown.start (hk : w.crew name i = some k) (most : Nat) :
    WindsDown name i k most w .blank where
  stage := .inr ⟨k.phase, hk, fun hand hh => ⟨hand, hh, rfl⟩⟩
  calls := by simp [hk, Diary.blank]
  steps := by simp [hk, Diary.blank]

namespace WindsDown

variable {d : Diary} {k' : Worker}

/-- A worker that is there has only changed its phase. -/
theorem crew {most : Nat} (h : WindsDown name i k most w d) (hk' : w.crew name i = some k') :
    ∃ p, k' = k.inPhase p := by
  rcases h.stage with ⟨hgone, -⟩ | ⟨p, hp, -⟩
  · cases hk'.symm.trans (crew_of_gone hgone)
  · exact ⟨p, Option.some.inj (hk'.symm.trans hp)⟩

/-- A worker that can take a step has not ended. -/
theorem there {most : Nat} (h : WindsDown name i k most w d) (hm : w.Admits (.step i)) :
    ∃ p, w.crew name i = some (k.inPhase p) ∧
      ∀ hand', p.hand? = some hand' → ∃ hand, k.phase.hand? = some hand ∧ hand.job = hand'.job := by
  rcases h.stage with ⟨hgone, -⟩ | hthere
  · obtain ⟨t, ht, -⟩ := move_step hm
    simp [running, Table.contains, ht] at hgone
  · exact hthere

/-- A step of the worker brings it nearer to its end. -/
theorem own (h : WindsDown name i k c.release.maxAttempts w d) (ho : w.InOrder name c)
    (hc : k.cancelled = true) (hm : w.Admits (.step i))
    (hlate : ¬ w.Oversleeps name i (.step i)) :
    WindsDown name i k c.release.maxAttempts (w.move (.step i))
      (d.append (w.jots name i (.step i))) := by
  obtain ⟨p, hk', hhand⟩ := h.there hm
  have hcalls := h.calls
  have hsteps := h.steps
  rw [hk'] at hcalls hsteps
  have hname := (crew_eq_some.mp hk').2
  have hturn := (k.inPhase p).step_turn w
  have hleft := crew_step hm hk'
  have hmost : (w.runnerConfig (k.inPhase p).runner).release.maxAttempts =
      c.release.maxAttempts := by rw [hname, ho.config]
  have hearly : (k.inPhase p).oversleeps w = false :=
    Bool.eq_false_iff.mpr fun ho => hlate ⟨rfl, by rw [hk', Option.any_some, ho]⟩
  have hfewer := hturn.callsLeft hc hearly
  have hnearer := hturn.stepsLeft hc hearly hmost
  rw [jots_step hk']
  refine ⟨?_, ?_, ?_⟩
  · cases hs : ((k.inPhase p).step w).1.state? with
    | none =>
        refine .inl ⟨?_, Nat.lt_of_lt_of_le ?_ (move_nextTask hm)⟩
        · rw [move_step_worker hm (crew_eq_some.mp hk').1, hs, running, Table.contains,
            put_find?, if_pos rfl]
          rfl
        · exact ho.regular.sound.fresh.lt (crew_eq_some.mp hk').1
    | some k'' =>
        rw [hs] at hturn hleft
        obtain ⟨p', rfl⟩ := hturn.exists_inPhase
        refine .inr ⟨p', hleft, fun hand'' hh => ?_⟩
        obtain ⟨hand', hh', hjob'⟩ := hturn.hand_was hc hh
        obtain ⟨hand, hh₀, hjob⟩ := hhand hand' hh'
        exact ⟨hand, hh₀, hjob.trans hjob'⟩
  · rw [hleft]
    simp only [Diary.append, List.length_append, Option.elim_some] at hcalls ⊢
    omega
  · rw [hleft]
    simp only [Diary.append, Worker.jots_steps, Option.elim_some] at hsteps ⊢
    omega

/-- The moves of others leave the worker where it is. -/
theorem other (h : WindsDown name i k c.release.maxAttempts w d) (ho : w.InOrder name c)
    (hc : k.cancelled = true) (hm : w.Admits m) (hstep : m ≠ .step i) :
    WindsDown name i k c.release.maxAttempts (w.move m) (d.append (w.jots name i m)) := by
  rw [jots_other hstep, Diary.append_blank]
  rcases h.stage with ⟨hgone, hi⟩ | ⟨p, hk', hhand⟩
  · have hgone' := ho.regular.sound.move_running hm hi hgone
    have hcalls := h.calls
    have hsteps := h.steps
    rw [crew_of_gone hgone] at hcalls hsteps
    refine ⟨.inl ⟨hgone', Nat.lt_of_lt_of_le hi (move_nextTask hm)⟩, ?_, ?_⟩
    · rw [crew_of_gone hgone']
      exact hcalls
    · rw [crew_of_gone hgone']
      exact hsteps
  · have hkept := ho.regular.cancelled_kept hm hk' hc hstep
    have hcalls := h.calls
    have hsteps := h.steps
    rw [hk', ← hkept] at hcalls hsteps
    exact ⟨.inr ⟨p, hkept, hhand⟩, hcalls, hsteps⟩

end WindsDown

/-- A cancelled worker winds down over every history. -/
theorem History.windsDown (h : History rule u ms w) (hu : u.InOrder name c)
    (hrule : ∀ v m, rule v m → v.Unblocked name i m) (hk : u.crew name i = some k)
    (hc : k.cancelled = true) :
    WindsDown name i k c.release.maxAttempts w (u.diary name i ms) := by
  induction h with
  | nil => exact .start hk _
  | @snoc ms v m h possible obeys ih =>
      have hv := h.inOrder hu hrule
      rw [diary_snoc, h.after_eq]
      by_cases hstep : m = .step i
      · subst hstep
        exact ih.own hv hc possible (hrule v _ obeys).2
      · exact ih.other hv hc possible hstep

/-- What holds of a cancelled worker holds until a step of it makes something true, if it holds
after every other step of it. -/
theorem History.until_step (h : History rule u ms w) (hu : u.InOrder name c)
    (hrule : ∀ v m, rule v m → v.Unblocked name i m) (hk : u.crew name i = some k)
    (hc : k.cancelled = true) {P : Worker → Prop} {Q : World → Prop} (hP : P k)
    (hstep : ∀ v k', v.InOrder name c → v.Admits (.step i) → rule v (.step i) →
      v.crew name i = some k' → P k' →
      (∃ k'', (k'.step v).1.state? = some k'' ∧ P k'') ∨ Q v) :
    (∃ k', w.crew name i = some k' ∧ P k') ∨
      ∃ first last, ms = first ++ .step i :: last ∧ Q (u.after first) := by
  induction h with
  | nil => exact .inl ⟨k, hk, hP⟩
  | @snoc ms v m h possible obeys ih =>
      have hv := h.inOrder hu hrule
      rcases ih with ⟨k', hk', hp⟩ | ⟨first, last, rfl, hq⟩
      · by_cases hown : m = .step i
        · subst hown
          rcases hstep v k' hv possible obeys hk' hp with ⟨k'', hleft, hp'⟩ | hq
          · exact .inl ⟨k'', (crew_step possible hk').trans hleft, hp'⟩
          · exact .inr ⟨ms, [], rfl, by rw [h.after_eq]; exact hq⟩
        · obtain ⟨p, rfl⟩ := (h.windsDown hu hrule hk hc).crew hk'
          exact .inl ⟨_, hv.regular.cancelled_kept possible hk' hc hown, hp⟩
      · exact .inr ⟨first, last ++ [m], by rw [List.append_assoc, List.cons_append], hq⟩

/-- What the turn of a worker leaves on the key of a job is there after the move. -/
theorem Concluded.step {key : JobKey} {ttl : Duration} (h : (k.step w).2.Concluded key ttl)
    (hm : w.Admits (.step i)) (hk : w.crew name i = some k) :
    (w.move (.step i)).Concluded key ttl := by
  obtain ⟨status, hfinal, hentry⟩ := h
  refine ⟨status, hfinal, ?_⟩
  rw [move_step_worker hm (crew_eq_some.mp hk).1, put_entry, put_now]
  exact hentry

/-- The job that a cancelled worker has in hand stays there until its end is on its key. -/
theorem History.concludes (h : History rule u ms w) (hu : u.InOrder name c)
    (hrule : ∀ v m, rule v m → v.Unblocked name i m) (hk : u.crew name i = some k)
    (hc : k.cancelled = true) {hand : Hand} (hh : k.phase.hand? = some hand) :
    (∃ k', w.crew name i = some k' ∧ ∃ hand', k'.phase.hand? = some hand' ∧
      hand'.job = hand.job) ∨
      ∃ first last, ms = first ++ .step i :: last ∧
        ((u.after first).move (.step i)).Concluded hand.job.key c.terminalTtl := by
  refine h.until_step hu hrule hk hc
    (P := fun k' => ∃ hand', k'.phase.hand? = some hand' ∧ hand'.job = hand.job)
    (Q := fun v => (v.move (.step i)).Concluded hand.job.key c.terminalTtl) ⟨hand, hh, rfl⟩ ?_
  rintro v k' hv hm - hk' ⟨hand', hh', hjob⟩
  have hname := (crew_eq_some.mp hk').2
  rcases (k'.step_turn v).hand hv.answers hh' with ⟨k'', hand'', hleft, hh'', hjob'⟩ | hend
  · exact .inl ⟨k'', hleft, hand'', hh'', hjob'.trans hjob⟩
  · refine .inr ?_
    rw [hname, hv.config, hjob] at hend
    exact hend.step hm hk'

/-- A step in which a worker gives its slot back: the counter is one lower for it, unless it is the
lowest number that there is. -/
def FreesSlot (name : String) (i : TaskId) (w : World) : Prop :=
  (∃ k t attempt, w.crew name i = some k ∧ k.phase = .releasing t attempt) ∧
    ∃ n, (w.landing (.decrement jobCounterKey)).counter = .ok n ∧
      (w.move (.step i)).counter = .ok (Number.Range.int64.clamp (n - 1))

/-- A slot that a cancelled worker holds stays its own until it gives it back. -/
theorem History.frees (h : History rule u ms w) (hu : u.InOrder name c)
    (hrule : ∀ v m, rule v m → v.Unblocked name i m) (hk : u.crew name i = some k)
    (hc : k.cancelled = true) (hs : k.phase.slots = 1)
    (hcount : ∀ v, rule v (.step i) → v.Countable) :
    (∃ k', w.crew name i = some k' ∧ k'.phase.slots = 1) ∨
      ∃ first last, ms = first ++ .step i :: last ∧ (u.after first).FreesSlot name i := by
  refine h.until_step hu hrule hk hc (P := fun k' => k'.phase.slots = 1) hs ?_
  intro v k' hv hm obeys hk' hslot
  obtain ⟨n, hn⟩ := hcount v obeys
  have hfair := hv.fair i k' (crew_eq_some.mp hk').1
  rcases (k'.step_turn v).slot hv.answers hfair hslot hn with hkept | ⟨⟨t, a, hp⟩, -, hcounter⟩
  · exact .inl hkept
  · refine .inr ⟨⟨k', t, a, hk', hp⟩, n, hn, ?_⟩
    rw [move_step_worker hm (crew_eq_some.mp hk').1, counter, put_entry]
    exact hcounter

/-! ## What is left alone -/

/-- A step of a worker, other than a given one, that has a job for a key in hand. -/
def Rivals (key : JobKey) (i : TaskId) (w : World) : Move → Prop
  | .step j => j ≠ i ∧ 0 < w.tasks.weightAt (Task.weigh (Worker.Phase.lives key)) j
  | _ => False

instance (key : JobKey) (i : TaskId) (w : World) (m : Move) : Decidable (w.Rivals key i m) :=
  match m with
  | .step j => inferInstanceAs (Decidable
      (j ≠ i ∧ 0 < w.tasks.weightAt (Task.weigh (Worker.Phase.lives key)) j))
  | .pass _ | .turn _ | .favour _ | .launch _ | .collect _ | .disturb _ | .reach _ | .call _
  | .openGate .. | .handler _ | .runner .. | .scheduler .. | .limiter .. | .lock .. | .app ..
  | .update .. => .isFalse id

/-- A move in which the status of a key is left to the fleet, and no other worker has a job for the
key in hand. -/
def Undisputed (key : JobKey) (i : TaskId) (w : World) (m : Move) : Prop :=
  ¬ w.Intrudes key.statusKey m ∧ ¬ w.Rivals key i m

instance (key : JobKey) (i : TaskId) (w : World) (m : Move) :
    Decidable (w.Undisputed key i m) :=
  inferInstanceAs (Decidable (¬ w.Intrudes key.statusKey m ∧ ¬ w.Rivals key i m))

/-- While a job is queued, its status is not written by those who hand in another one for its
key. -/
theorem Undisputed.leftTo {key : JobKey} (h : v.Undisputed key i m) (hv : v.InOrder name c)
    (hs : v.Spared key.statusKey) (hm : v.Admits m) (hq : v.Says key .queued) :
    v.LeftTo key.statusKey i m := by
  have hrival : ∀ j k', m = .step j → v.tasks.find? j = some (.worker k') →
      k'.phase.lives key = 1 → m.isStep i = true := by
    rintro j k' rfl ht hlives
    refine decide_eq_true (Classical.not_not.mp fun hne => h.2 ⟨hne, ?_⟩)
    rw [Table.weightAt_some ht, Task.weigh, hlives]
    exact Nat.one_pos
  have hstamp := hv.regular.sound.stamp hv.reads hs hv.answers.prompt hm h.1
  generalize v.tenant? key m = made at hstamp
  cases hstamp with
  | keeps entry => exact .inr (.inl entry)
  | lapses hl => exact .inr (.inr hl)
  | claims vacant => exact absurd vacant (hq.not_vacant (by rintro ⟨⟩))
  | begins he ht hp hkey => exact .inl (hrival _ _ he ht (by rw [hp]; exact if_pos hkey))
  | closes he ht hw hkey =>
      exact .inl (hrival _ _ he ht (Worker.Phase.lives_of_writes hw hkey))

/-- A job that is queued while a worker is cancelled keeps its status as long as that lives, if it
has another key than the job that the worker has in hand. -/
theorem History.stays_queued (h : History rule u ms w) (hu : u.InOrder name c)
    (hrule : ∀ v m, rule v m → v.Unblocked name i m) (hk : u.crew name i = some k)
    (hc : k.cancelled = true) {key : JobKey}
    (hne : ∀ hand, k.phase.hand? = some hand → hand.job.key ≠ key)
    (hs : u.Spared key.statusKey) (hothers : ∀ v m, rule v m → v.Undisputed key i m)
    {e : Entry} (he : u.entry key.statusKey = some e) (hq : e.value = JobStatus.queued.text)
    (hlive : e.live w.now = true) : w.entry key.statusKey = some e := by
  have hspared : ∀ {ms' v}, History rule u ms' v → v.Spared key.statusKey := fun h' =>
    h'.keeps (P := fun v => v.Spared key.statusKey) hs
      fun v m hm obeys hv => hv.move hm (hothers v m obeys).1
  induction h with
  | nil => exact he
  | @snoc ms v m h possible obeys ih =>
      have hv := h.inOrder hu hrule
      have hbefore := ih (Entry.live_of_le (now_le_move possible) hlive)
      by_cases hstep : m = .step i
      · subst hstep
        obtain ⟨p, hk', hhand⟩ := (h.windsDown hu hrule hk hc).there possible
        have hapart : ∀ hand, p.hand? = some hand → hand.job.key ≠ key := by
          intro hand' hh'
          obtain ⟨hand, hh, hjob⟩ := hhand hand' hh'
          rw [← hjob]
          exact hne hand hh
        have hkept := ((k.inPhase p).step_turn v).leaves_status hv.answers (hspared h) hapart
        rw [move_step_worker possible (crew_eq_some.mp hk').1, put_entry, hkept, hbefore]
      · have hleft := (hothers v m obeys).leftTo hv (hspared h) possible ⟨e, hbefore, hq⟩
        rw [hleft.entry possible hstep (e := e) ?_, Option.filter, if_pos hlive]
        rw [hbefore, Option.filter, if_pos (Store.entryAt_live hbefore)]

/-- Only a worker that has not been cancelled takes a job. -/
theorem taken_by {job : Job} (h : w.episode? name m = some (.taken job)) :
    ∃ j k, m = .step j ∧ w.crew name j = some k ∧ k.cancelled = false := by
  cases m with
  | step j =>
      obtain ⟨t, ht, he⟩ := Option.bind_eq_some_iff.mp h
      cases hcrew : t.crew? name with
      | none =>
          simp only [Task.episode?, hcrew] at he
          split at he
          · contradiction
          · split at he
            · split at he <;> cases he
            · cases he
          · cases he
      | some k =>
          refine ⟨j, k, rfl, (crew_of_find? ht).trans hcrew, ?_⟩
          simp only [Task.episode?, hcrew, Worker.episode?] at he
          split at he
          · rename_i hp
            simp only [Worker.step, hp, Worker.choose] at he
            cases hc : k.cancelled with
            | false => rfl
            | true =>
                rw [hc] at he
                cases he
          all_goals first
            | cases he
            | (split at he <;> cases he)
  | _ => cases h

/-- What has become of a runner's queue since its worker was cancelled. -/
structure Lined (name : String) (i : TaskId) (g : Nat) (waiting : List Job) (w : World)
    (tale : List Episode) (r : Runner) : Prop where
  latest : g ≤ r.generations
  seat : ∀ s, r.slot = some s → s.generation = g → s.task = i
  queue : r.generations = g → r.pending = waiting ++ tale.filterMap Episode.accepted?

/-- As long as no other worker is started, jobs come into the queue at its end, and none leaves
it. -/
theorem History.lined (h : History rule u ms w) (hu : u.InOrder name c)
    (hrule : ∀ v m, rule v m → v.Unblocked name i m) (hk : u.crew name i = some k)
    (hc : k.cancelled = true) {r : Runner} (hr : u.runners.find? name = some r) :
    ∃ r', w.runners.find? name = some r' ∧
      Lined name i k.generation r.pending w (u.tale name ms) r' := by
  induction h with
  | nil =>
      obtain ⟨r₀, s, hr₀, hs, hi, hg⟩ := hu.staffed.seat i k hk
      cases hr.symm.trans hr₀
      have hnewest := hu.staffed.newest r s hr hs
      refine ⟨r, hr, Nat.le_of_eq (hg.symm.trans hnewest), ?_, fun _ => (List.append_nil _).symm⟩
      intro s' hs' _
      cases hs.symm.trans hs'
      exact hi
  | @snoc ms v m h possible obeys ih =>
      obtain ⟨r₁, hr₁, hlined⟩ := ih
      have hv := h.inOrder hu hrule
      obtain ⟨r₂, hr₂, -⟩ := move_runner possible hr₁
      have hreseats := (hv.regular.runnerMove hr₁ possible).reseats hr₁ hr₂
      obtain ⟨hlatest, hseat⟩ := hreseats.latest hlined.latest hlined.seat
      refine ⟨r₂, hr₂, hlatest, hseat, ?_⟩
      intro hsame
      have hgens : r₁.generations = k.generation := by
        have hle := hlined.latest
        cases hreseats with
        | keeps _ _ _ _ hgens => omega
        | hires _ _ hgens _ => omega
        | empties _ hgens => omega
      have hposts := hv.regular.posts hv.staffed possible hr₁ hr₂
      have hwaiting := hposts.waiting (by
        intro job htaken
        obtain ⟨j, k', rfl, hk', hfree⟩ := taken_by htaken
        obtain ⟨r₀, s, hr₀, hs, rfl, -⟩ := hv.staffed.seat j k' hk'
        cases hr₁.symm.trans hr₀
        have hi := hlined.seat s hs ((hv.staffed.newest r₁ s hr₁ hs).trans hgens)
        rw [hi] at hk'
        obtain ⟨p, rfl⟩ := (h.windsDown hu hrule hk hc).crew hk'
        cases hc.symm.trans hfree)
      rw [tale_snoc, h.after_eq, List.filterMap_append, ← List.append_assoc,
        ← hlined.queue hgens]
      exact hwaiting

/-! ## A job that had ended before -/

/-- A store that is never cut off answers throughout. -/
theorem History.answers (h : History rule u ms w) (hu : u.Answers)
    (hrule : ∀ v m, rule v m → ¬ v.Cuts m) : w.Answers :=
  h.keeps hu fun v m hm obeys hv => hv.move hm (hrule v m obeys)

/-- A worker that gives a slot back has left the end of its job on the job's key. -/
theorem History.concluded_before {utc : Int} {s : Store} (h : History rule (around utc s) ms w)
    (hs : s.available = true) (hrule : ∀ v m, rule v m → ¬ v.Cuts m) {t : Taken}
    (hk : w.crew name i = some k) (hr : k.phase.returns = true)
    (ht : k.phase.taken? = some t) : ∃ first last, ms = first ++ .step i :: last ∧
      (((around utc s).after first).move (.step i)).Concluded t.job.key
        (w.runnerConfig name).terminalTtl := by
  induction h generalizing k with
  | nil => cases hk
  | @snoc ms v m h possible obeys ih =>
      have hsound := h.regular.sound
      have hback : ∀ {k₀ : Worker}, v.crew name i = some k₀ → k₀.phase.returns = true →
          k₀.phase.taken? = some t → ∃ first last, ms ++ [m] = first ++ .step i :: last ∧
            (((around utc s).after first).move (.step i)).Concluded t.job.key
              ((v.move m).runnerConfig name).terminalTtl := by
        intro k₀ hk₀ hr₀ ht₀
        obtain ⟨hi, hname⟩ := crew_eq_some.mp hk₀
        obtain ⟨r, hrunner⟩ := hsound.employed i _ name hi (congrArg some hname)
        obtain ⟨first, last, rfl, hend⟩ := ih hk₀ hr₀ ht₀
        rw [runnerConfig_move possible hrunner]
        exact ⟨first, last ++ [m], by rw [List.append_assoc, List.cons_append], hend⟩
      by_cases hstep : m = .step i
      · subst hstep
        obtain ⟨k₀, hk₀, hleft⟩ := crew_of_step possible hk
        obtain ⟨hi, hname⟩ := crew_eq_some.mp hk₀
        have hturn := k₀.step_turn v
        rw [hleft] at hturn
        rcases hturn.returns (h.answers (answers_around hs utc) hrule) hr ht with
          ⟨hr₀, ht₀⟩ | hend
        · exact hback hk₀ hr₀ ht₀
        · obtain ⟨r, hrunner⟩ := hsound.employed i _ name hi (congrArg some hname)
          rw [hname] at hend
          refine ⟨ms, [], rfl, ?_⟩
          rw [h.after_eq, runnerConfig_move possible hrunner]
          exact hend.step possible hk₀
      · rcases hsound.move_worker possible (crew_eq_some.mp hk).1 with
          ⟨k₀, hi, hphase, hrunner⟩ | hnew | ⟨-, he, -⟩
        · have hk₀ : v.crew name i = some k₀ :=
            crew_eq_some.mpr ⟨hi, hrunner.symm.trans (crew_eq_some.mp hk).2⟩
          rw [hphase] at hr ht
          exact hback hk₀ hr ht
        · rw [hnew] at hr
          cases hr
        · exact absurd he hstep

/-! ## What is seen of a cancellation -/

/-- What a cancelled worker calls is the handler of the job in hand, if it had not called that
before. -/
theorem History.calls_first (h : History rule u ms w) (hu : u.InOrder name c)
    (hrule : ∀ v m, rule v m → v.Unblocked name i m) (hk : u.crew name i = some k)
    (hc : k.cancelled = true) {first last : List Move} {job : Job}
    (he : ms = first ++ .step i :: last)
    (hcalled : (u.after first).episode? name (.step i) = some (.called job)) :
    ∃ hand, k.phase.hand? = some hand ∧ hand.job = job ∧ k.phase.callsLeft = 1 := by
  subst he
  obtain ⟨v, hbefore, hafter⟩ := h.split
  obtain ⟨hm, -, -⟩ := hafter.uncons
  rw [hbefore.after_eq] at hcalled
  have hwinds := hbefore.windsDown hu hrule hk hc
  obtain ⟨p, hk', hhand⟩ := hwinds.there hm
  rw [episode?_of_crew hk'] at hcalled
  obtain ⟨t', hp, rfl⟩ := Worker.phase_of_called hcalled
  have hp' : p = .calling t' := hp
  obtain ⟨hand, hh, hjob⟩ := hhand ⟨t'.job.untried, true⟩ (by rw [hp']; rfl)
  have hone : (k.inPhase p).phase.callsLeft = 1 := by rw [hp]; rfl
  have hcalls := hwinds.calls
  rw [hk', Option.elim_some, hone] at hcalls
  have hle := k.phase.callsLeft_le
  exact ⟨hand, hh, hjob, by omega⟩

/-- A cancelled worker waits for nothing but its call and its rests. -/
theorem InOrder.goes_on (hw : w.InOrder name c) (hk : w.crew name i = some k)
    (hc : k.cancelled = true) : w.enabled i = true ∨
      (∃ t task, k.phase = .awaiting t task ∧ w.ending? task = none) ∨
      ∃ t attempt wake, k.phase = .resting t attempt wake ∧ w.now < wake := by
  have hi := (crew_eq_some.mp hk).1
  have hcall : ∀ t task, k.phase = .awaiting t task →
      ∃ c, w.tasks.find? task = some (.handler c) := fun t task hp =>
    hw.regular.sound.called i _ task hi (by rw [Task.awaits?, hp]; rfl)
  rcases World.goes_on hi hcall with hready | hwaits | ⟨_, _, -, hfree, -⟩ | hrests
  · exact .inl hready
  · exact .inr (.inl hwaits)
  · cases hc.symm.trans hfree
  · exact .inr (.inr hrests)

/-- A slot that a cancelled worker has held at some time has been given back by its end. -/
theorem History.frees_held (h : History rule u ms w) (hu : u.InOrder name c)
    (hrule : ∀ v m, rule v m → v.Unblocked name i m) (hk : u.crew name i = some k)
    (hc : k.cancelled = true) (hcount : ∀ v, rule v (.step i) → v.Countable)
    (hgone : w.crew name i = none) {first rest : List Move} {k' : Worker} (he : ms = first ++ rest)
    (hk' : (u.after first).crew name i = some k') (hs : k'.phase.slots = 1) :
    ∃ mid last, rest = mid ++ .step i :: last ∧
      (u.after (first ++ mid)).FreesSlot name i := by
  subst he
  obtain ⟨v, hbefore, hafter⟩ := h.split
  rw [hbefore.after_eq] at hk'
  obtain ⟨p, rfl⟩ := (hbefore.windsDown hu hrule hk hc).crew hk'
  rcases hafter.frees (hbefore.inOrder hu hrule) hrule hk' hc hs hcount with
    ⟨k'', hthere, -⟩ | ⟨mid, last, rfl, hfree⟩
  · cases hgone.symm.trans hthere
  · refine ⟨mid, last, rfl, ?_⟩
    rw [after_append, hbefore.after_eq]
    exact hfree

/-- The queue of a cancelled worker's runner only grows at its end until another worker is started,
and none is started while the cancelled one is there. -/
theorem History.keeps_queue (h : History rule u ms w) (hu : u.InOrder name c)
    (hrule : ∀ v m, rule v m → v.Unblocked name i m) (hk : u.crew name i = some k)
    (hc : k.cancelled = true) {r : Runner} (hr : u.runners.find? name = some r) :
    ∃ r', w.runners.find? name = some r' ∧
      (r'.generations = r.generations →
        r'.pending = r.pending ++ (u.tale name ms).filterMap Episode.accepted?) ∧
      (w.crew name i ≠ none → r'.generations = r.generations) := by
  obtain ⟨r', hr', hlined⟩ := h.lined hu hrule hk hc hr
  obtain ⟨r₀, s, hr₀, hs, -, hg⟩ := hu.staffed.seat i k hk
  cases hr.symm.trans hr₀
  have hnewest := hg.symm.trans (hu.staffed.newest r s hr hs)
  refine ⟨r', hr', fun hsame => hlined.queue (hsame.trans hnewest.symm), ?_⟩
  intro hthere
  have hw := h.inOrder hu hrule
  obtain ⟨k', hk'⟩ := Option.ne_none_iff_exists'.mp hthere
  obtain ⟨p, rfl⟩ := (h.windsDown hu hrule hk hc).crew hk'
  obtain ⟨r₁, s', hr₁, hs', -, hg'⟩ := hw.staffed.seat i _ hk'
  cases hr'.symm.trans hr₁
  exact (hw.staffed.newest r' s' hr' hs').symm.trans (hg'.trans hnewest)

/-- What a worker does in the course of some moves after it has been cancelled in a phase, given how
it got there. -/
structure WindsUp (name : String) (i : TaskId) (p : Worker.Phase) (start : World)
    (before : List Move) (rule : World → Move → Prop) (u : World) (ms : List Move) (w : World) :
    Prop where
  /-- It starts one more call at most. -/
  calls : (u.diary name i ms).calls.length ≤ 1
  /-- What it calls is the handler of the job that it had taken last, and has not called since. -/
  first : ∀ first last job, ms = first ++ .step i :: last →
    (u.after first).episode? name (.step i) = some (.called job) →
    Account.Uncalled (start.tale name before) job
  /-- It takes few steps. -/
  steps : (u.diary name i ms).steps ≤
    8 + 2 * ((u.runnerConfig name).release.maxAttempts - 1)
  /-- Until it ends it can go on, unless it waits for a call to end, or rests between two attempts
  to give its slot back. -/
  goesOn : ∀ k', w.crew name i = some k' → w.enabled i = true ∨
    (∃ t task, k'.phase = .awaiting t task ∧ w.ending? task = none) ∨
    ∃ t attempt wake, k'.phase = .resting t attempt wake ∧ w.now < wake
  /-- When it has ended, a step of it has left a final status on the key of the job in hand. -/
  concludes : w.crew name i = none → ∀ hand, p.hand? = some hand →
    ∃ first last, ms = first ++ .step i :: last ∧
      ((u.after first).move (.step i)).Concluded hand.job.key (u.runnerConfig name).terminalTtl
  /-- When it has ended, every slot that it held has been given back, if the counter holds a number
  whenever the worker takes a step. -/
  frees : w.crew name i = none → (∀ v, rule v (.step i) → v.Countable) →
    ∀ first rest k', ms = first ++ rest → (u.after first).crew name i = some k' →
      k'.phase.slots = 1 → ∃ mid last, rest = mid ++ .step i :: last ∧
        (u.after (first ++ mid)).FreesSlot name i
  /-- As long as no other worker is started, jobs come into the queue at its end and none leaves it;
  and no other worker is started before this one has ended. -/
  queue : ∀ r, u.runners.find? name = some r → ∃ r', w.runners.find? name = some r' ∧
    (r'.generations = r.generations →
      r'.pending = r.pending ++ (u.tale name ms).filterMap Episode.accepted?) ∧
    (w.crew name i ≠ none → r'.generations = r.generations)
  /-- A status that tells of a queued job stays as long as it lives, if it is for another key than
  that of the job in hand, and in each move the key is left to the fleet and no other worker has a
  job for it in hand. -/
  statuses : ∀ key e, (∀ hand, p.hand? = some hand → hand.job.key ≠ key) →
    u.Spared key.statusKey → (∀ v m, rule v m → v.Undisputed key i m) →
    u.entry key.statusKey = some e → e.value = JobStatus.queued.text → e.live w.now = true →
    w.entry key.statusKey = some e

/-- A cancelled worker winds its job up over every history. -/
theorem History.winds_up {start : World} {before : List Move}
    (h : History rule u ms w) (hu : u.InOrder name c)
    (hrule : ∀ v m, rule v m → v.Unblocked name i m) (hk : u.crew name i = some k)
    (hc : k.cancelled = true)
    (hfirst : ∀ hand, k.phase.hand? = some hand → k.phase.callsLeft = 1 →
      Account.Uncalled (start.tale name before) hand.job) :
    WindsUp name i k.phase start before rule u ms w := by
  have hwinds := h.windsDown hu hrule hk hc
  have hconfig : u.runnerConfig name = c := hu.config
  constructor
  case calls =>
    have hle := k.phase.callsLeft_le
    have hcalls := hwinds.calls
    omega
  case first =>
    intro first last job he hcalled
    obtain ⟨hand, hh, rfl, hone⟩ := h.calls_first hu hrule hk hc he hcalled
    exact hfirst hand hh hone
  case steps =>
    have hle := k.phase.stepsLeft_le c.release.maxAttempts
    have hsteps := hwinds.steps
    rw [hconfig]
    omega
  case goesOn =>
    intro k' hk'
    obtain ⟨p, rfl⟩ := hwinds.crew hk'
    exact (h.inOrder hu hrule).goes_on hk' hc
  case concludes =>
    intro hgone hand hh
    rw [hconfig]
    rcases h.concludes hu hrule hk hc hh with ⟨k', hk', -⟩ | hend
    · cases hgone.symm.trans hk'
    · exact hend
  case frees =>
    intro hgone hcount first rest k' he hk' hslot
    exact h.frees_held hu hrule hk hc hcount hgone he hk' hslot
  case queue =>
    intro r hr
    exact h.keeps_queue hu hrule hk hc hr
  case statuses =>
    intro key e hne hs hothers he hq hlive
    exact h.stays_queued hu hrule hk hc hne hs hothers he hq hlive

/-- A worker is cancelled, whatever it is doing, except that it has not just come out of a backoff;
from then on the store answers its calls, and it comes out of no backoff that is over. Then it
starts one more call at most, the first one of the job that it has taken last. It ends after few
steps, and until then nothing keeps it from going on but its call or a rest; by then a final status
is on the key of the job that it had in hand, and every slot that it held has been given back, if
the counter holds a number whenever the worker takes a step. A job whose slot it was giving back has
its final status already, if the store has always answered. Jobs that wait stay in the queue in
their order until another worker is started, and each stays marked as queued as long as that lives,
if it has another key than the one in hand, its key is left to the fleet, and no other worker has a
job for the key in hand. -/
theorem cancelled_worker_winds_up {utc : Int} {store : Store} {before : List Move}
    {rule₀ : World → Move → Prop} (h₀ : History rule₀ (around utc store) before u)
    (hm : u.Admits m) (hk : u.crew name i = some k)
    (hcancel : (u.move m).crew name i = some k.cancel)
    (hclear : ∀ t t' wake, k.phase = .calling t →
      ¬ LastFrom name i (around utc store) before (.backingOff t' wake))
    (hanswers : (u.move m).Answers) (h : History rule (u.move m) ms w)
    (hrule : ∀ v m, rule v m → v.Unblocked name i m) :
    WindsUp name i k.phase (around utc store) before rule (u.move m) ms w ∧
    (store.available = true → (∀ v m, rule₀ v m → ¬ v.Cuts m) →
      ∀ t, k.phase.returns = true → k.phase.taken? = some t →
        ∃ first last, before = first ++ .step i :: last ∧
          (((around utc store).after first).move (.step i)).Concluded t.job.key
            (u.runnerConfig name).terminalTtl) := by
  refine ⟨?_, fun hs hrule₀ t hr ht => h₀.concluded_before hs hrule₀ hk hr ht⟩
  have hafter : History (fun _ _ => True) (around utc store) (before ++ [m]) (u.move m) :=
    .snoc (h₀.mono fun _ _ _ => trivial) hm trivial
  obtain ⟨r, -, hr, -⟩ := (hafter.staffed name).seat i _ hcancel
  have hu : (u.move m).InOrder name r.config :=
    ⟨hafter.regular, hafter.staffed name, hafter.fair, hafter.reads, hanswers, r, hr, rfl⟩
  refine h.winds_up (k := k.cancel) hu hrule hcancel rfl ?_
  intro hand hh hone
  rcases h₀.callsFirst name i k hand hk hh hone with hyes | ⟨t, t', wake, hp, hlast⟩
  · exact hyes
  · exact absurd hlast (hclear t t' wake hp)

/-- Two jobs are handed in to a runner. Its worker takes the first one, whose calls fail, and is
about to call it when the runner is asked to stop. -/
def oneInLine : List Move :=
  [.runner "a" shortLived, .handler brittle,
    .launch (.enqueue (.start "a" (probe 3 (.ofMillis 250)))), .step 0, .step 0, .step 0,
    .launch (.enqueue (.start "a" (.new shared 0))), .step 2, .step 2, .step 2, .step 1, .step 1,
    .step 1, .launch (.stop "a" .entering)]

/-- The stop is about to cancel the worker. -/
def stopAsked : World := (around 0 .empty).after oneInLine

/-- The worker calls the handler, does not wait for another call, and gives its slot back. -/
def windingUp : List Move :=
  [.step 1, .step 1, .step 4, .step 4, .step 1, .step 1, .step 1, .step 1, .step 1]

/-- A move that lets the worker wind up, while the counter holds a number and the key of the job
that waits is left alone. -/
def Untroubled (w : World) (m : Move) : Prop :=
  w.Unblocked "a" 1 m ∧ w.Countable ∧ w.Undisputed shared 1 m

instance (w : World) (m : Move) : Decidable (w.Untroubled m) :=
  inferInstanceAs (Decidable (_ ∧ _ ∧ _))

/-- The job that was taken may be called three times, but is called once. Its status is final, its
slot is given back, and the other job still waits. -/
theorem cancelled_worker_winds_up_stopAsked :
    ((stopAsked.move (.step 3)).diary "a" 1 windingUp).calls.length ≤ 1 ∧
    (∃ first last, windingUp = first ++ .step 1 :: last ∧
      (((stopAsked.move (.step 3)).after first).move (.step 1)).Concluded
        (probe 3 (.ofMillis 250)).key shortLived.terminalTtl) ∧
    (∃ mid last, windingUp = mid ++ .step 1 :: last ∧
      ((stopAsked.move (.step 3)).after mid).FreesSlot "a" 1) ∧
    (∃ r, ((stopAsked.move (.step 3)).after windingUp).runners.find? "a" = some r ∧
      r.pending = [.new shared 0]) ∧
    ((stopAsked.move (.step 3)).after windingUp).entry shared.statusKey =
      some ⟨JobStatus.queued.text, some 3600000000000⟩ := by
  have hopen : History (fun _ _ => True) (around 0 .empty) oneInLine stopAsked :=
    .of_check (by decide +kernel)
  have hruns : History Untroubled (stopAsked.move (.step 3)) windingUp
      ((stopAsked.move (.step 3)).after windingUp) := .of_check (by decide +kernel)
  have hgone : ((stopAsked.move (.step 3)).after windingUp).crew "a" 1 = none := by
    decide +kernel
  have hconfig : (stopAsked.move (.step 3)).runnerConfig "a" = shortLived := by decide +kernel
  obtain ⟨hwinds, -⟩ := cancelled_worker_winds_up (i := 1) hopen
    (m := .step 3) (by decide +kernel)
    (by decide +kernel : stopAsked.crew "a" 1 =
      some ⟨"a", 1, false, .beginning ⟨probe 3 (.ofMillis 250), true⟩⟩)
    (by decide +kernel) nofun ⟨by decide +kernel, by decide +kernel⟩ hruns (fun _ _ h => h.1)
  refine ⟨hwinds.calls, ?_, ?_, ?_, ?_⟩
  · exact hconfig ▸ hwinds.concludes hgone _ rfl
  · obtain ⟨mid, last, hmid, hfree⟩ := hwinds.frees hgone (fun _ h => h.2.1) [] windingUp _ rfl
      (by decide +kernel : (stopAsked.move (.step 3)).crew "a" 1 =
        some ⟨"a", 1, true, .beginning ⟨probe 3 (.ofMillis 250), true⟩⟩) rfl
    exact ⟨mid, last, hmid, hfree⟩
  · have hbefore : ((stopAsked.move (.step 3)).runners.find? "a").map
        (fun r => (r.pending, r.generations)) = some ([.new shared 0], 1) := by decide +kernel
    have hafter : (((stopAsked.move (.step 3)).after windingUp).runners.find? "a").map
        Runner.generations = some 1 := by decide +kernel
    obtain ⟨r, hr, he⟩ := Option.map_eq_some_iff.mp hbefore
    obtain ⟨hpending, hgens⟩ := Prod.mk.inj he
    obtain ⟨r', hr', hqueue, -⟩ := hwinds.queue r hr
    rw [hr', Option.map_some, Option.some.injEq] at hafter
    refine ⟨r', hr', ?_⟩
    rw [hqueue (hafter.trans hgens.symm), hpending]
    decide +kernel
  · exact hwinds.statuses shared _ (by rintro hand ⟨⟩; decide)
      (by unfold Spared; decide +kernel) (fun _ _ h => h.2.2) (by decide +kernel) rfl
      (by decide +kernel)

/-- While a job runs, what marks it as running is gone, another job for its key is handed in, and
the runner is asked to stop. -/
def namesake : List Move :=
  overdue ++ [.launch (.enqueue (.start "a" (.new shared 0))), .step 3, .step 3, .step 3,
    .launch (.stop "a" .entering), .step 4]

/-- The job that runs comes to its end. -/
def lateEnd : List Move := [.openGate "gate" 1, .step 2, .step 2, .step 1, .step 1]

/-- Somebody writes a text over the counter before the slot is given back. -/
def miscounted : List Move :=
  windingUp.take 7 ++ [.call ⟨.nothing, .set jobCounterKey "lost" none⟩, .step 1, .pass 100000000,
    .step 1, .step 1, .pass 300000000, .step 1, .step 1, .step 1]

/-- The call of a job fails, and its worker is cancelled at the beginning of a backoff of 250 ms,
but gets to its next steps only at the end of it. -/
def overslept : List Move :=
  [.step 1, .step 1, .step 4, .step 4, .step 1, .step 3, .favour true, .pass 250000000, .step 1,
    .step 1]

/-- A worker is cancelled while another job waits for the key of the one in hand. The end of the one
in hand is written over the status of the one that waits, though that would have stayed for an hour.
If the counter holds no number, a slot is not given back, though the store answers. And a worker
that was cancelled in a backoff and gets to its next step only when that is over may retry the call
that failed. -/
theorem queued_status_overwritten :
    History (fun v m => ¬ v.Cuts m) (around 0 .empty) (namesake ++ lateEnd)
        ((around 0 .empty).after (namesake ++ lateEnd)) ∧
      (((around 0 .empty).after namesake).crew "a" 1).map Worker.cancelled = some true ∧
      ((around 0 .empty).after namesake).entry shared.statusKey =
        some ⟨JobStatus.queued.text, some 3601000000000⟩ ∧
      (((around 0 .empty).after (namesake ++ lateEnd)).runners.find? "a").map Runner.pending =
        some [.new shared 0] ∧
      ((around 0 .empty).after (namesake ++ lateEnd)).now < 3601000000000 ∧
      ((around 0 .empty).after (namesake ++ lateEnd)).entry shared.statusKey =
        some ⟨JobStatus.succeeded.text, some 86401000000000⟩ ∧
      History (fun v m => ¬ v.Cuts m) (stopAsked.move (.step 3)) miscounted
        ((stopAsked.move (.step 3)).after miscounted) ∧
      (stopAsked.move (.step 3)).held = 1 ∧
      ((stopAsked.move (.step 3)).after miscounted).crew "a" 1 = none ∧
      ((stopAsked.move (.step 3)).after miscounted).stuck = 1 ∧
      History (fun v m => ¬ v.Cuts m) stopAsked overslept (stopAsked.after overslept) ∧
      (stopAsked.after (overslept.take 6)).crew "a" 1 = some ⟨"a", 1, true,
        .backingOff (Taken.tried ⟨probe 3 (.ofMillis 250), true⟩ 1) 250000000⟩ ∧
      (stopAsked.after (overslept.take 6)).now = 0 ∧
      ((stopAsked.after (overslept.take 6)).diary "a" 1 (overslept.drop 6)).calls = [250000000] :=
  ⟨.of_check (by decide +kernel), by decide +kernel, by decide +kernel, by decide +kernel,
    by decide +kernel, by decide +kernel, .of_check (by decide +kernel), by decide +kernel,
    by decide +kernel, by decide +kernel, .of_check (by decide +kernel), by decide +kernel,
    by decide +kernel, by decide +kernel⟩

end World

end JobFleet
