import JobFleet.Proofs.Fleet.Live
import JobFleet.Proofs.Fleet.Slots
import JobFleet.Proofs.Runner.Trial

/-!
# How a cancelled worker winds up

A worker that has been cancelled takes no job and goes on after no backoff. So every phase that it
comes to is nearer to its end: `Worker.Phase.stepsLeft` bounds the steps that are left, and
`Worker.Phase.callsLeft` the calls. If the store answers, the job in hand is put down with a final
status on its key, and a slot is held until the counter has been lowered for it.
-/

namespace JobFleet

open Runner (Hand)

namespace World

/-- A final status is on the key of a job, for a time to live that has just begun. -/
def Concluded (key : JobKey) (ttl : Duration) (w : World) : Prop :=
  ∃ status : JobStatus, (status = .succeeded ∨ status = .failed) ∧
    w.entry key.statusKey = some ⟨status.text, some (Clock.expiry w.now ttl)⟩

/-- The counter of running jobs holds a number where a call that lowers it lands. -/
def Countable (w : World) : Prop :=
  ∃ n, (w.landing (.decrement jobCounterKey)).counter = .ok n

instance (w : World) : Decidable w.Countable :=
  match h : (w.landing (.decrement jobCounterKey)).counter with
  | .ok n => .isTrue ⟨n, h⟩
  | .error _ => .isFalse fun ⟨_, hn⟩ => nomatch h.symm.trans hn

variable {w : World}

/-- A status whose write nothing fails is on the key of its job, for its time to live. -/
theorem Answers.writes_status (h : w.Answers) {c : Runner.Config} {job : Job} {status : JobStatus}
    {a : Except StoreError Unit} {u : World}
    (ha : w.perform (Worker.statusCall c job status) = (a, u)) : a = .ok () ∧
      u.entry job.key.statusKey =
        some ⟨status.text, some (Clock.expiry w.now (c.ttl status))⟩ := by
  obtain ⟨hok, hentry⟩ := h.answers (c := Worker.statusCall c job status) rfl rfl
  rw [ha] at hok hentry
  exact ⟨hok, hentry⟩

/-- Lowering a counter that holds a number leaves a number that is one lower, unless it is the
lowest that there is. -/
theorem lowered {held : Option Entry} {n : Int} (h : Entry.number jobCounterKey held = .ok n) :
    ∃ after, Entry.add jobCounterKey (-1) none held =
        .ok (Number.Range.int64.clamp (n - 1), after) ∧
      Entry.number jobCounterKey after = .ok (Number.Range.int64.clamp (n - 1)) := by
  have hword := inWord_clamp (n - 1)
  cases held with
  | none =>
      cases h
      exact ⟨some ⟨_, none⟩, rfl, hword.count jobCounterKey none⟩
  | some e =>
      have hcount : Store.Entry.count jobCounterKey e = .ok n := h
      refine ⟨some (Store.Entry.recount e (Number.Range.int64.clamp (n - 1))), ?_, ?_⟩
      · simp only [Entry.add, hcount]
        rfl
      · exact hword.count jobCounterKey e.expires

/-- A call that lowers the counter is answered if the counter holds a number where it lands. -/
theorem Answers.lowers (h : w.Answers) {n : Int}
    (hn : (w.landing (.decrement jobCounterKey)).counter = .ok n) :
    (w.perform (.decrement jobCounterKey)).1 = .ok (Number.Range.int64.clamp (n - 1)) ∧
      (w.perform (.decrement jobCounterKey)).2.counter =
        .ok (Number.Range.int64.clamp (n - 1)) := by
  obtain ⟨after, hadd, hnumber⟩ := lowered hn
  obtain ⟨hanswer, hentry⟩ := h.answers (c := .decrement jobCounterKey) rfl hadd
  exact ⟨hanswer, (congrArg (Entry.number jobCounterKey) hentry).trans hnumber⟩

end World

namespace Worker

/-- How many calls a cancelled worker may still make: one, unless it has called already. -/
def Phase.callsLeft : Phase → Nat
  | .admitting _ | .beginning _ | .calling _ => 1
  | _ => 0

/-- How many steps a cancelled worker may still take at most, if it may try a number of times to
give a slot back. -/
def Phase.stepsLeft (most : Nat) : Phase → Nat
  | .choosing => 1
  | .starting | .refusing .. => 2
  | .releasing _ attempt => 2 + 2 * (most - attempt)
  | .resting _ attempt _ => 3 + 2 * (most - (attempt + 1))
  | .succeeding _ | .exhausted _ | .abandoning _ => 3 + 2 * (most - 1)
  | .backingOff .. => 4 + 2 * (most - 1)
  | .awaiting .. => 5 + 2 * (most - 1)
  | .calling _ => 6 + 2 * (most - 1)
  | .beginning _ => 7 + 2 * (most - 1)
  | .admitting _ => 8 + 2 * (most - 1)

/-- A worker has one call left at the most. -/
theorem Phase.callsLeft_le (p : Phase) : p.callsLeft ≤ 1 := by
  cases p <;> simp [callsLeft]

/-- A worker has no more steps left than its release may take. -/
theorem Phase.stepsLeft_le (most : Nat) (p : Phase) :
    p.stepsLeft most ≤ 8 + 2 * (most - 1) := by
  cases p <;> simp only [stepsLeft] <;> omega

variable {k : Worker} {w v : World} {left : Option Worker} {t : Taken}

/-- What is left after the job: no call, and the release. -/
theorem afterJob_bounds (t : Taken) (most : Nat) :
    (afterJob t).callsLeft = 0 ∧ (afterJob t).stepsLeft most ≤ 2 + 2 * (most - 1) := by
  unfold afterJob
  split
  · exact ⟨rfl, Nat.le_refl _⟩
  · exact ⟨rfl, by simp only [Phase.stepsLeft]; omega⟩

/-- What is left after a call: no call, and the end. -/
theorem Follows.bounds {p : Phase} (h : Follows t p) (most : Nat) :
    p.callsLeft = 0 ∧ p.stepsLeft most ≤ 4 + 2 * (most - 1) := by
  cases h <;> exact ⟨rfl, by simp only [Phase.stepsLeft]; omega⟩

/-- What is left of a phase that ends a job. -/
theorem Phase.Ends.bounds {p : Phase} {status : JobStatus} (h : p.Ends t status) (most : Nat) :
    p.callsLeft = 0 ∧ p.stepsLeft most = 3 + 2 * (most - 1) := by
  cases h <;> exact ⟨rfl, rfl⟩

/-- Whether a worker is in a backoff that is over. -/
def oversleeps (k : Worker) (w : World) : Bool :=
  match k.phase with
  | .backingOff _ wake => wake ≤ w.now
  | _ => false

/-- A cancelled worker gives up the backoff that it is in, unless that is over. -/
theorem givesUp_of_cancelled {wake : Nat} (hc : k.cancelled = true)
    (ho : k.oversleeps w = false) (hp : k.phase = .backingOff t wake) :
    k.givesUp wake w = true := by
  simp only [oversleeps, hp, decide_eq_false_iff_not] at ho
  exact givesUp_of_early hc (Nat.lt_of_not_le ho)

/-- Every turn of a cancelled worker brings it nearer to its end. -/
theorem Turn.stepsLeft (h : k.Turn w left v) (hc : k.cancelled = true)
    (ho : k.oversleeps w = false) {most : Nat}
    (hmost : (w.runnerConfig k.runner).release.maxAttempts = most) :
    (left.elim 0 fun k' => k'.phase.stepsLeft most) < k.phase.stepsLeft most := by
  cases h with
  | takes hp hn => simp [hc] at hn
  | idles hp hn => simp [hc] at hn
  | resumes hp hn => cases hn.symm.trans (givesUp_of_cancelled hc ho hp)
  | @asks job a u hp hj ha =>
      rw [hp]
      rcases a with e | _ | _ <;>
        simp only [verdict, Option.elim_some, inPhase, Phase.stepsLeft] <;> omega
  | @aborts t cause u v hp ha ho hv =>
      have hle := (afterJob_bounds t most).2
      rw [hp]
      exact Nat.lt_of_le_of_lt hle (by simp only [Phase.stepsLeft]; omega)
  | joins hp hgoal hv =>
      have hle := (hgoal.bounds most).2
      rw [hp]
      exact Nat.lt_of_le_of_lt hle (by simp only [Phase.stepsLeft]; omega)
  | @ends t status a u v hp ha hv =>
      have hle := (afterJob_bounds t most).2
      rw [(hp.bounds most).2]
      exact Nat.lt_of_le_of_lt hle (by omega)
  | @retries t attempt wake cause u v hp ha hmore hv =>
      have hlt : attempt < most := by simpa [RetryPolicy.allowsAfter, hmost] using hmore
      rw [hp]
      simp only [Option.elim_some, inPhase, Phase.stepsLeft]
      omega
  | quits hp hn =>
      rw [hp]
      exact Nat.one_pos
  | starts hp | waives hp | refuses hp | begins hp | calls hp | abandons hp | releases hp
  | sticks hp | rests hp =>
      rw [hp]
      simp only [Option.elim_some, inPhase, Phase.stepsLeft]
      omega

/-- A turn of a worker that may call once afterwards, if it is cancelled: it has just taken its job,
or has not called since, or comes out of a backoff that it does not give up. -/
theorem Turn.before_call {k' : Worker} (h : k.Turn w (some k') v)
    (hcall : k'.phase.callsLeft = 1) : k.phase = .choosing ∧ k.cancelled = false ∨
      (∃ job, k.phase = .admitting job) ∨ (∃ t, k.phase = .beginning t) ∨
      ∃ t wake, k.phase = .backingOff t wake ∧ k.givesUp wake w = false ∧
        k'.phase = .calling t := by
  cases h with
  | takes hp hn => exact .inl ⟨hp, hn⟩
  | waives hp => exact .inr (.inl ⟨_, hp⟩)
  | asks hp => exact .inr (.inl ⟨_, hp⟩)
  | begins hp => exact .inr (.inr (.inl ⟨_, hp⟩))
  | aborts hp => exact .inr (.inr (.inl ⟨_, hp⟩))
  | resumes hp hn => exact .inr (.inr (.inr ⟨_, _, hp, hn, rfl⟩))
  | joins hp hgoal =>
      cases (hgoal.bounds 0).1.symm.trans hcall
  | ends hp =>
      cases (afterJob_bounds _ 0).1.symm.trans hcall
  | _ => cases hcall

/-- A worker's step is one step. -/
theorem jots_steps : (k.jots w).steps = 1 := by
  unfold jots
  split <;> rfl

/-- A worker that does not call notes no call. -/
theorem jots_calls (h : ∀ t, k.phase ≠ .calling t) : (k.jots w).calls = [] := by
  unfold jots
  split
  · rfl
  · rename_i t hp
    exact absurd hp (h t)
  · rfl
  · rfl

/-- The calls that a cancelled worker makes in a turn and may make afterwards. -/
theorem Turn.callsLeft (h : k.Turn w left v) (hc : k.cancelled = true)
    (ho : k.oversleeps w = false) :
    (k.jots w).calls.length + (left.elim 0 fun k' => k'.phase.callsLeft) ≤ k.phase.callsLeft := by
  by_cases hcalls : ∃ t, k.phase = .calling t
  · obtain ⟨t, hp⟩ := hcalls
    have hone : (k.jots w).calls = [w.now] := by simp [jots, hp]
    have hnone : (left.elim 0 fun k' => k'.phase.callsLeft) = 0 := by
      cases left with
      | none => rfl
      | some k' =>
          refine Nat.eq_zero_of_not_pos fun hpos => ?_
          have hone := Nat.le_antisymm k'.phase.callsLeft_le hpos
          rcases h.before_call hone with ⟨hq, -⟩ | ⟨_, hq⟩ | ⟨_, hq⟩ | ⟨_, _, hq, -⟩ <;>
            cases hp.symm.trans hq
    rw [hone, hnone, hp]
    exact Nat.le_refl 1
  · rw [jots_calls fun t hp => hcalls ⟨t, hp⟩, List.length_nil, Nat.zero_add]
    cases left with
    | none => exact Nat.zero_le _
    | some k' =>
        by_cases hone : k'.phase.callsLeft = 1
        · have hn : k.cancelled ≠ false := by simp [hc]
          rcases h.before_call hone with ⟨-, hq⟩ | ⟨job, hq⟩ | ⟨t, hq⟩ | ⟨_, _, hp, hq, -⟩
          · exact absurd hq hn
          · rw [hq]
            exact k'.phase.callsLeft_le
          · rw [hq]
            exact k'.phase.callsLeft_le
          · cases hq.symm.trans (givesUp_of_cancelled hc ho hp)
        · have hle := k'.phase.callsLeft_le
          simp only [Option.elim_some]
          omega

/-! ## The job in hand -/

/-- A phase that ends a job has it in hand. -/
theorem Phase.Ends.hand? {p : Phase} {status : JobStatus} (h : p.Ends t status) :
    p.hand? = some ⟨t.job.untried, true⟩ := by
  cases h <;> rfl

/-- The status that ends a job is final. -/
theorem Phase.Ends.final {p : Phase} {status : JobStatus} (h : p.Ends t status) :
    status = .succeeded ∨ status = .failed := by
  cases h
  · exact .inl rfl
  · exact .inr rfl
  · exact .inr rfl

/-- What a worker writes is the status of the job that it has in hand. -/
theorem Phase.hand?_of_writes {p : Phase} {job : Job} {status : JobStatus}
    (h : p.writes? = some (job, status)) :
    ∃ hand, p.hand? = some hand ∧ hand.job.key = job.key := by
  cases p <;> cases h <;> exact ⟨_, rfl, rfl⟩

/-- A worker that ends a job leaves a final status on the key of the job, if the store answers. -/
theorem concluded_of_writes (h : w.Answers) {c : Runner.Config} {job : Job} {status : JobStatus}
    {a : Except StoreError Unit} {u : World} (ha : w.perform (statusCall c job status) = (a, u))
    (hv : u.Via k.Books v) (hfinal : status = .succeeded ∨ status = .failed) :
    v.Concluded job.key c.terminalTtl := by
  have hbooked := hv.booked fun _ hd => hd.keeps
  have hnow : v.now = w.now := by
    have hu := w.perform_now (statusCall c job status)
    rw [ha] at hu
    exact hbooked.now.trans hu
  have hterminal : c.ttl status = c.terminalTtl := by
    rcases hfinal with rfl | rfl <;> rfl
  refine ⟨status, hfinal, ?_⟩
  rw [hbooked.entry, (h.writes_status ha).2, hnow, hterminal]

/-- A turn of a worker that has a job in hand, if the store answers: the job stays in hand, or its
end is on its key. -/
theorem Turn.hand (h : k.Turn w left v) (ha : w.Answers) {hand : Hand}
    (hh : k.phase.hand? = some hand) :
    (∃ k' hand', left = some k' ∧ k'.phase.hand? = some hand' ∧ hand'.job = hand.job) ∨
      v.Concluded hand.job.key (w.runnerConfig k.runner).terminalTtl := by
  cases h with
  | starts hp | quits hp | takes hp | idles hp | releases hp | retries hp | sticks hp | rests hp =>
      rw [hp] at hh
      cases hh
  | waives hp hc =>
      rw [hp] at hh
      cases hh
      exact .inl ⟨_, _, rfl, rfl, rfl⟩
  | @asks job a u hp hc hcall =>
      rw [hp] at hh
      cases hh
      rcases a with e | _ | _
      · exact .inl ⟨_, _, rfl, rfl, rfl⟩
      · exact .inl ⟨_, _, rfl, rfl, rfl⟩
      · exact .inl ⟨_, _, rfl, rfl, rfl⟩
  | refuses hp hcall hv =>
      rw [hp] at hh
      cases hh
      exact .inr (concluded_of_writes ha hcall hv (.inr rfl))
  | begins hp hcall ho hv =>
      rw [hp] at hh
      cases hh
      exact .inl ⟨_, _, rfl, rfl, rfl⟩
  | aborts hp hcall ho hv => cases (ha.writes_status hcall).1
  | calls hp =>
      rw [hp] at hh
      cases hh
      exact .inl ⟨_, _, rfl, rfl, rfl⟩
  | joins hp hgoal hv =>
      rw [hp] at hh
      cases hh
      cases hgoal
      · exact .inl ⟨_, _, rfl, rfl, rfl⟩
      · exact .inl ⟨_, _, rfl, rfl, rfl⟩
      · exact .inl ⟨_, _, rfl, rfl, rfl⟩
  | ends hp hcall hv =>
      cases hp.hand?.symm.trans hh
      exact .inr (concluded_of_writes ha hcall hv hp.final)
  | resumes hp hc =>
      rw [hp] at hh
      cases hh
      exact .inl ⟨_, _, rfl, rfl, rfl⟩
  | abandons hp hc =>
      rw [hp] at hh
      cases hh
      exact .inl ⟨_, _, rfl, rfl, rfl⟩

/-- A turn of a cancelled worker puts no other job into its hands. -/
theorem Turn.hand_was {k' : Worker} (h : k.Turn w (some k') v) (hc : k.cancelled = true)
    {hand' : Hand} (hh : k'.phase.hand? = some hand') :
    ∃ hand, k.phase.hand? = some hand ∧ hand.job = hand'.job := by
  cases h with
  | takes hp hn => simp [hc] at hn
  | starts | refuses | releases | retries | sticks | rests => cases hh
  | aborts hp hcall ho hv => cases (afterJob_hand? _).symm.trans hh
  | ends hp hcall hv => cases (afterJob_hand? _).symm.trans hh
  | @asks job a u hp hj hcall =>
      rw [hp]
      rcases a with e | _ | _ <;> cases hh <;> exact ⟨_, rfl, rfl⟩
  | joins hp hgoal hv =>
      rw [hp]
      cases hgoal <;> cases hh <;> exact ⟨_, rfl, rfl⟩
  | waives hp | begins hp | calls hp | resumes hp | abandons hp =>
      rw [hp]
      cases hh
      exact ⟨_, rfl, rfl⟩

/-- A turn of a worker leaves the status of every key alone but that of the job in hand. -/
theorem Turn.leaves_status (h : k.Turn w left v) (ha : w.Answers) {key : JobKey}
    (hs : w.Spared key.statusKey) (hne : ∀ hand, k.phase.hand? = some hand → hand.job.key ≠ key) :
    v.entry key.statusKey = w.entry key.statusKey := by
  cases h.stamp hs ha.prompt with
  | keeps entry => exact entry
  | begins hp hkey _ _ => exact absurd hkey (hne _ (by rw [hp]; rfl))
  | closes hw hkey _ _ _ _ =>
      obtain ⟨hand, hh, hjob⟩ := Phase.hand?_of_writes hw
      exact absurd (hjob.trans hkey) (hne hand hh)

/-- A worker that puts a job down and goes on to give its slot back has left a final status on the
job's key, if the store answers. -/
theorem Turn.returns {k' : Worker} (h : k.Turn w (some k') v) (ha : w.Answers)
    (hr : k'.phase.returns = true) (ht : k'.phase.taken? = some t) :
    k.phase.returns = true ∧ k.phase.taken? = some t ∨
      v.Concluded t.job.key (w.runnerConfig k.runner).terminalTtl := by
  cases h with
  | aborts hp hcall ho hv => cases (ha.writes_status hcall).1
  | @ends t' _ _ _ _ hp hcall hv =>
      have hsame : t' = t := by
        simp only [inPhase, afterJob] at hr ht
        split at ht
        · exact Option.some.inj ht
        · cases ht
      subst hsame
      exact .inr (concluded_of_writes ha hcall hv hp.final)
  | retries hp | rests hp =>
      cases ht
      rw [hp]
      exact .inl ⟨rfl, rfl⟩
  | @asks job a u hp hj hcall => rcases a with e | _ | _ <;> cases hr
  | joins hp hgoal hv => cases hgoal <;> cases hr
  | _ => cases hr

/-! ## The slot -/

/-- A turn of a worker that holds a slot, if the store answers and the counter holds a number: the
slot is kept, or the counter has been lowered for it. -/
theorem Turn.slot (h : k.Turn w left v) (ha : w.Answers) (hf : k.phase.Fair)
    (hs : k.phase.slots = 1) {n : Int}
    (hn : (w.landing (.decrement jobCounterKey)).counter = .ok n) :
    (∃ k', left = some k' ∧ k'.phase.slots = 1) ∨
      (∃ t attempt, k.phase = .releasing t attempt) ∧ left = some (k.inPhase .choosing) ∧
        v.counter = .ok (Number.Range.int64.clamp (n - 1)) := by
  obtain ⟨hanswer, hcounter⟩ := ha.lowers hn
  have hslots : ∀ {p : Phase} {t : Taken}, k.phase.taken? = some t → p.taken? = some t →
      p.slots = 1 := by
    intro p t hk hp
    simpa only [Phase.slots, hk, hp] using hs
  have hafter : ∀ {t : Taken}, k.phase.taken? = some t → (afterJob t).slots = 1 := by
    intro t hk
    rw [slots_afterJob (hf t hk).1]
    simpa only [Phase.slots, hk] using hs
  cases h with
  | starts hp | quits hp | takes hp | idles hp | waives hp | asks hp | refuses hp =>
      rw [hp] at hs
      cases hs
  | aborts hp hcall ho hv => cases (ha.writes_status hcall).1
  | ends hp hcall hv => exact .inl ⟨_, rfl, hafter hp.taken?⟩
  | joins hp hgoal hv =>
      refine .inl ⟨_, rfl, ?_⟩
      rw [hp] at hs
      cases hgoal <;> exact hs
  | begins hp | calls hp | resumes hp | abandons hp | retries hp | rests hp =>
      exact .inl ⟨_, rfl, hslots (by rw [hp]; rfl) rfl⟩
  | releases hp hcall =>
      rw [hcall] at hcounter
      exact .inr ⟨⟨_, _, hp⟩, rfl, hcounter⟩
  | sticks hp hcall hmore =>
      rw [hcall] at hanswer
      cases hanswer

end Worker

end JobFleet
