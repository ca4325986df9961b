import JobFleet.Proofs.Fleet.Dedup
import JobFleet.Proofs.Fleet.Served

/-!
# How long a job keeps its claim

A job that is taken in claims its key for a time, and again for a time when it is marked as running;
nothing else renews the claim, however long the job waits, is called or backs off. So a live job
keeps its key as long as the clock has not come to the end of the last claim, and no longer: from
then on the key may be claimed for another job.
-/

namespace JobFleet

/-- A claim on a key: what its status is set to, when, and for how long. -/
structure Claim where
  status : JobStatus
  since : Nat
  ttl : Duration
deriving DecidableEq

/-- The instant from which a claim is gone. -/
def Claim.ends (c : Claim) : Nat := Clock.expiry c.since c.ttl

/-- What the key's status holds for a claim. -/
def Claim.entry (c : Claim) : Entry := ⟨c.status.text, some c.ends⟩

/-- The claim that a runner makes when it writes a status. -/
def Runner.Config.claim (config : Runner.Config) (status : JobStatus) (now : Nat) : Claim :=
  ⟨status, now, config.ttl status⟩

/-- The runner whose worker is about to mark its job for a key as running. -/
def Task.marks? (key : JobKey) : Task → Option String
  | .worker ⟨runner, _, _, .beginning t⟩ => if t.job.key = key then some runner else none
  | _ => none

/-- The claim on a key that the next step of a task makes: it marks its job for the key as running,
or a job for the key is taken in. -/
def Task.claims? (key : JobKey) (id : TaskId) (w : World) (t : Task) : Option Claim :=
  match t.marks? key, t.hands? with
  | some runner, _ => some ((w.runnerConfig runner).claim .running w.now)
  | none, some e =>
      match (e.step id w).1 with
      | .ended .enqueued =>
          if e.job.key = key then some ((w.runnerConfig e.runner).claim .queued w.now) else none
      | _ => none
  | none, none => none

namespace World

/-- The claim on a key that a move makes. -/
def claims? (key : JobKey) (w : World) : Move → Option Claim
  | .step id => (w.tasks.find? id).bind (Task.claims? key id w)
  | _ => none

/-- The last of the claims on a key that moves make one after another, if the last one before them
is known. -/
def lastClaim (key : JobKey) (w : World) (last : Option Claim) : List Move → Option Claim
  | [] => last
  | m :: ms => (w.move m).lastClaim key ((w.claims? key m).or last) ms

end World

variable {key : JobKey} {w v : World}

/-- A job that is taken in has claimed its key for the time of a queued job. -/
theorem Enqueue.Turn.claims {e : Enqueue} {id : TaskId}
    (h : e.Turn id w (.ended .enqueued) v) (hs : w.Spared e.job.key.statusKey)
    (hfree : ∀ held, e.phase = .claiming held → Free held) :
    v.entry e.job.key.statusKey = some ((w.runnerConfig e.runner).claim .queued w.now).entry := by
  cases h with
  | @wins r held u hr hp ha =>
      have hu : u.runners.find? e.runner = some r := by
        have hrunners := w.perform_runners (e.claim r.config.queuedTtl held)
        rw [ha] at hrunners
        rw [hrunners, hr]
      have hconfig : w.runnerConfig e.runner = r.config := by
        rw [World.runnerConfig, hr]
        rfl
      obtain ⟨-, hclaim⟩ := claim_granted hs (hfree held hp) ha
      rw [(accept_spec e.job.key hu).2.1, hclaim, hconfig]
      rfl

/-- A job that is marked as running claims its key for the time of a running job. -/
theorem Worker.step_claims {k : Worker} {t : Taken} (hp : k.phase = .beginning t)
    (hs : w.Serves t.job.key.statusKey) :
    (k.step w).2.entry t.job.key.statusKey =
      some ((w.runnerConfig k.runner).claim .running w.now).entry := by
  obtain ⟨hanswer, hentry⟩ := hs.answers
    (statusCall (w.runnerConfig k.runner) t.job .running) rfl rfl
  cases ha : w.perform (statusCall (w.runnerConfig k.runner) t.job .running) with
  | mk a u =>
      rw [ha] at hanswer hentry
      cases hanswer
      simp only [step, hp, goOn, markRunning, writeStatus, ha]
      exact hentry

/-- Only workers mark jobs as running. -/
theorem Task.marks?_of_sort {t : Task} (h : t.sort ≠ .worker) (key : JobKey) :
    t.marks? key = none := by
  cases t with
  | worker k => exact absurd rfl h
  | _ => rfl

namespace World

/-- What a move does to the claim on a key: it makes one; it leaves the status as it was, and no
more live jobs; it ends a live job; or it lets the status lapse. -/
inductive Stake (key : JobKey) (w : World) (m : Move) : Option Claim → Prop
  | makes {c : Claim} (status : c.status = .queued ∨ c.status = .running)
      (entry : (w.move m).entry key.statusKey = some c.entry) : Stake key w m (some c)
  | keeps (live : (w.move m).live key ≤ w.live key)
      (entry : (w.move m).entry key.statusKey = w.entry key.statusKey) : Stake key w m none
  | ends (live : (w.move m).live key + 1 = w.live key) : Stake key w m none
  | lapses (h : w.Lapses key.statusKey m) (live : (w.move m).live key = w.live key) :
      Stake key w m none

variable {m : Move} {id : TaskId} {t : Task}

/-- A move that leaves the key alone changes no stake in it. -/
theorem Stake.of_calm (h : w.Calm key (w.move m))
    (hw : (w.move m).weigh (Worker.Phase.lives key) = w.weigh (Worker.Phase.lives key)) :
    w.Stake key m none := by
  refine .keeps ?_ h.status
  have hqueued := h.queued
  unfold live
  omega

/-- A worker makes a claim when it marks its job as running. -/
theorem claims?_worker (key : JobKey) {k : Worker} (ht : w.tasks.find? id = some (.worker k)) :
    (∃ t, k.phase = .beginning t ∧ t.job.key = key ∧
        w.claims? key (.step id) = some ((w.runnerConfig k.runner).claim .running w.now)) ∨
      (∀ t, k.phase = .beginning t → t.job.key ≠ key) ∧ w.claims? key (.step id) = none := by
  obtain ⟨runner, generation, cancelled, phase⟩ := k
  simp only [claims?, ht, Option.bind_some, Task.claims?, Task.marks?]
  cases phase with
  | beginning t =>
      by_cases hk : t.job.key = key
      · exact .inl ⟨t, rfl, hk, by simp only [if_pos hk]⟩
      · refine .inr ⟨?_, by simp only [if_neg hk]; rfl⟩
        rintro t ⟨⟩
        exact hk
  | _ => exact .inr ⟨by rintro t ⟨⟩, rfl⟩

/-- A hand-in makes a claim when its job is taken in. -/
theorem claims?_handIn (key : JobKey) {e : Enqueue} (ht : w.tasks.find? id = some t)
    (hin : t.hands? = some e) :
    (e.job.key = key ∧ (e.step id w).1 = .ended .enqueued ∧
        w.claims? key (.step id) = some ((w.runnerConfig e.runner).claim .queued w.now)) ∨
      ¬ (e.job.key = key ∧ (e.step id w).1 = .ended .enqueued) ∧
        w.claims? key (.step id) = none := by
  have hmarks := Task.marks?_of_sort (Task.sort_of_handIn (Task.hands?_handIn hin)) key
  simp only [claims?, ht, Option.bind_some, Task.claims?, hmarks, hin]
  split
  · by_cases hk : e.job.key = key
    · exact .inl ⟨hk, by assumption, if_pos hk⟩
    · exact .inr ⟨fun h => hk h.1, if_neg hk⟩
  · rename_i hne
    exact .inr ⟨fun h => hne h.2, rfl⟩

/-- A task that is neither a worker nor handing in makes no claim. -/
theorem claims?_idle (ht : w.tasks.find? id = some t) (hsort : t.sort ≠ .worker)
    (hin : t.hands? = none) : w.claims? key (.step id) = none := by
  simp only [claims?, ht, Option.bind_some, Task.claims?, Task.marks?_of_sort hsort, hin]

/-- What a worker's step does to the claim on a key. -/
theorem Sound.stake_worker (h : w.Sound) (hs : w.InReach key.statusKey) {k : Worker}
    (ht : w.tasks.find? id = some (.worker k)) (hm : w.Admits (.step id)) :
    w.Stake key (.step id) (w.claims? key (.step id)) := by
  obtain ⟨hentry, -, -, hlive⟩ := h.step_worker ht hm key
  rcases claims?_worker key ht with ⟨t, hp, rfl, hclaim⟩ | ⟨hne, hclaim⟩
  · rw [hclaim]
    exact .makes (.inr rfl) (hentry.trans (Worker.step_claims hp hs.serves))
  · rw [hclaim]
    cases (k.step_turn w).stamp hs.spared hs.prompt with
    | keeps entry =>
        refine .keeps ?_ (hentry.trans entry)
        cases (k.step_turn w).change hs.spared hs.prompt with
        | stays live status accepted => omega
        | drops had has calm =>
            have hqueued := calm.queued
            omega
        | writes had has queued marked accepted => split at has <;> omega
    | begins hp hkey calls marked => exact absurd hkey (hne _ hp)
    | closes hw hkey ended gone queued marked =>
        have hlives := Worker.Phase.lives_of_writes hw hkey
        exact .ends (by omega)

/-- What the step of a task that hands in a job does to the claim on a key. -/
theorem Sound.stake_handIn (h : w.Sound) (hfree : w.ReadsFree) (hs : w.InReach key.statusKey)
    {e : Enqueue} (ht : w.tasks.find? id = some t) (hin : t.handIn? = some e)
    (hm : w.Admits (.step id)) : w.Stake key (.step id) (w.claims? key (.step id)) := by
  have hsort := Task.sort_of_handIn hin
  have hw := h.weigh_step ht hsort hm key
  have hreads : ∀ held, e.phase = .claiming held → Enqueue.Free held :=
    fun held hp => hfree id t e held ht hin hp
  rcases step_handIn ht hin hm hs.spared with ⟨hands, hcalm⟩ | ⟨hands, hcalm⟩
  · rw [claims?_idle ht hsort hands]
    exact .of_calm hcalm hw
  · have hturn := e.step_turn id w
    rcases claims?_handIn key ht hands with ⟨rfl, hended, hclaim⟩ | ⟨hnot, hclaim⟩
    · rw [hended] at hturn
      rw [hclaim]
      exact .makes (.inl rfl) (hcalm.status.trans (hturn.claims hs.spared hreads))
    · rw [hclaim]
      rcases hturn.enqueues_or_calm hs.spared hs.prompt hreads with ⟨htaken, -⟩ | ⟨-, hc⟩
      · exact absurd htaken hnot
      · exact .of_calm (hc.trans hcalm) hw

/-- What every move does to the claim on a key while the store serves it. -/
theorem Sound.stake (h : w.Sound) (hfree : w.ReadsFree) (hs : w.InReach key.statusKey)
    (hm : w.Admits m) (hi : ¬ w.Intrudes key.statusKey m) : w.Stake key m (w.claims? key m) := by
  cases h.part hs.spared hm hi with
  | works ht => exact h.stake_worker hs ht hm
  | handsIn ht hin => exact h.stake_handIn hfree hs ht hin hm
  | lapses hl => exact .lapses hl rfl
  | idles calm weigh idle =>
      have hnone : w.claims? key m = none := by
        cases m with
        | step id =>
            obtain ⟨t, ht, -⟩ := move_step hm
            obtain ⟨hsort, hin⟩ := idle id t rfl ht
            exact claims?_idle ht hsort (Task.hands?_of_none hin)
        | _ => rfl
      rw [hnone]
      exact .of_calm calm weigh

/-! ## What is left of a claim -/

/-- The last claim goes on one move at a time. -/
theorem lastClaim_snoc (key : JobKey) (w : World) (last : Option Claim) (ms : List Move)
    (m : Move) :
    w.lastClaim key last (ms ++ [m]) =
      ((w.after ms).claims? key m).or (w.lastClaim key last ms) := by
  induction ms generalizing w last with
  | nil => rfl
  | cons m' ms ih => exact ih (w.move m') _

/-- The status of a key is written by the fleet alone, and the store stays in reach. -/
def StatusServed (key : JobKey) (w : World) (m : Move) : Prop :=
  ¬ w.Intrudes key.statusKey m ∧ ¬ w.Cuts m

instance (key : JobKey) (w : World) (m : Move) : Decidable (StatusServed key w m) :=
  inferInstanceAs (Decidable (¬ w.Intrudes key.statusKey m ∧ ¬ w.Cuts m))

/-- The status of a key says that its job is queued or running. -/
def Claims (key : JobKey) (w : World) : Prop := w.Says key .queued ∨ w.Says key .running

/-- A claim has been made, and the clock has not come to its end. -/
def Unexpired (w : World) : Option Claim → Prop
  | some c => w.now < c.ends
  | none => False

instance (w : World) (last : Option Claim) : Decidable (w.Unexpired last) :=
  match last with
  | some c => inferInstanceAs (Decidable (w.now < c.ends))
  | none => inferInstanceAs (Decidable False)

/-- Something holds of the world and of the last claim on a key whenever a job for the key is live
in the course of some moves. -/
def WhileLive (key : JobKey) (w : World) (ms : List Move)
    (P : World → Option Claim → Prop) : Prop :=
  ∀ before, before <+: ms → 0 < (w.after before).live key →
    P (w.after before) (w.lastClaim key none before)

/-- What follows at each moment follows while the job lives. -/
theorem WhileLive.mono {ms : List Move} {P Q : World → Option Claim → Prop}
    (h : w.WhileLive key ms P) (hPQ : ∀ v last, P v last → Q v last) : w.WhileLive key ms Q :=
  fun before hb hlive => hPQ _ _ (h before hb hlive)

/-- What holds while a job lives holds over each beginning. -/
theorem WhileLive.of_prefix {before ms : List Move} {P : World → Option Claim → Prop}
    (h : w.WhileLive key ms P) (hb : before <+: ms) : w.WhileLive key before P :=
  fun first hf hlive => h first (hf.trans hb) hlive

/-- A live job has what the last claim on its key has written. -/
structure Claimed (key : JobKey) (w : World) (last : Option Claim) : Prop where
  blocked : w.Blocked key
  reach : w.InReach key.statusKey
  held : 0 < w.live key → ∃ c, last = some c ∧ (c.status = .queued ∨ c.status = .running) ∧
    w.entry key.statusKey = some c.entry

variable {last : Option Claim}

/-- A claim that is written is in time, and says what it was made for. -/
theorem Claimed.unexpired (h : w.Claimed key last) (hlive : 0 < w.live key) :
    w.Unexpired last ∧ w.Claims key := by
  obtain ⟨c, rfl, hstatus, hentry⟩ := h.held hlive
  constructor
  · have hl : c.entry.live w.now = true := Store.entryAt_live hentry
    simpa [Entry.live, Claim.entry, Unexpired] using hl
  · rcases hstatus with hs | hs
    · exact .inl ⟨c.entry, hentry, by rw [Claim.entry, hs]⟩
    · exact .inr ⟨c.entry, hentry, by rw [Claim.entry, hs]⟩

/-- A move keeps the last claim written, unless the status of a live job lapses in it. -/
theorem Claimed.move (h : w.Claimed key last) (hm : w.Admits m) (hr : StatusServed key w m)
    (hl : w.Lapses key.statusKey m → w.live key = 0) :
    (w.move m).Claimed key ((w.claims? key m).or last) := by
  have hprompt : m.Prompt := by
    cases m with
    | disturb f =>
        have hnone : f.error = none := by simpa [StatusServed, Cuts] using hr.2
        intro he
        rw [hnone] at he
        cases he
    | _ => trivial
  refine ⟨h.blocked.move hm ⟨hr.1, hprompt, hl⟩, h.reach.move hm hr.1 hr.2, ?_⟩
  intro hlive
  have hone := h.blocked.one
  have hstake := h.blocked.sound.stake h.blocked.reads h.reach hm hr.1
  generalize w.claims? key m = made at hstake
  cases hstake with
  | @makes c status entry => exact ⟨c, rfl, status, entry⟩
  | keeps live entry =>
      obtain ⟨c, rfl, hstatus, hentry⟩ := h.held (by omega)
      exact ⟨c, rfl, hstatus, entry.trans hentry⟩
  | ends live => omega
  | lapses lapsed live =>
      have hzero := hl lapsed
      omega

/-- If the status of a live job lapses, its claim is neither in time nor there afterwards. -/
theorem Claimed.lapsed (h : w.Claimed key last) (hl : w.Lapses key.statusKey m)
    (hlive : 0 < w.live key) :
    (w.move m).live key = w.live key ∧ ¬ (w.move m).Unexpired ((w.claims? key m).or last) ∧
      ¬ (w.move m).Claims key := by
  cases m with
  | pass t =>
      obtain ⟨-, hgone⟩ := hl
      have hentry : (w.move (.pass t)).entry key.statusKey = none := hgone
      refine ⟨rfl, ?_, ?_⟩
      · intro htime
        obtain ⟨c, rfl, -, hheld⟩ := h.held hlive
        have hfound := (Option.filter_eq_some_iff.mp hheld).1
        have hlive : c.entry.live t = true := decide_eq_true htime
        have hthere : w.store.entryAt t key.statusKey = some c.entry :=
          Option.filter_eq_some_iff.mpr ⟨hfound, hlive⟩
        rw [hgone] at hthere
        cases hthere
      · rintro (⟨x, hx, -⟩ | ⟨x, hx, -⟩) <;>
          · rw [hentry] at hx
            cases hx
  | _ => exact hl.elim

/-- A claim that is in time, or says what it was made for. -/
def Stands (key : JobKey) (w : World) (last : Option Claim) : Prop :=
  w.Unexpired last ∨ w.Claims key

/-- If the last claim on a key stands whenever a job for the key is live, then it is written. -/
theorem History.claimed {utc : Int} {s : Store} {ms : List Move} (hs : s.available = true)
    (h : History (StatusServed key) (around utc s) ms w)
    (hall : (around utc s).WhileLive key ms (Stands key)) :
    w.Claimed key ((around utc s).lastClaim key none ms) := by
  induction h with
  | nil =>
      refine ⟨blocked_around key utc s, inReach_around hs utc _, ?_⟩
      intro hlive
      cases hlive
  | @snoc ms v m h hm hr ih =>
      have hv := ih (hall.of_prefix (List.prefix_append ms [m]))
      have hlast := hall _ (List.prefix_refl _)
      rw [after_snoc, lastClaim_snoc, h.after_eq] at hlast
      rw [lastClaim_snoc, h.after_eq]
      refine hv.move hm hr ?_
      intro hl
      by_cases hlive : 0 < v.live key
      · obtain ⟨hsame, htime, hclaims⟩ := hv.lapsed hl hlive
        rcases hlast (by omega) with hin | hin
        · exact absurd hin htime
        · exact absurd hin hclaims
      · omega

/-- A claim that stands is in time and says what it was made for. -/
theorem History.unexpired {utc : Int} {s : Store} {ms : List Move} (hs : s.available = true)
    (h : History (StatusServed key) (around utc s) ms w)
    (hall : (around utc s).WhileLive key ms (Stands key)) :
    (around utc s).WhileLive key ms fun v last => v.Unexpired last ∧ v.Claims key := by
  intro before hb hlive
  obtain ⟨rest, rfl⟩ := id hb
  obtain ⟨v, hv, -⟩ := h.split
  rw [hv.after_eq] at hlive ⊢
  exact (hv.claimed hs (hall.of_prefix hb)).unexpired hlive

/-- As long as the store is in reach and the fleet alone writes the status of a key, a live job for
the key is said to be queued or running at every instant if and only if the clock has not come to
the end of the last claim at any of them. While that is so, the status is what that claim has
written, no second job for the key is live, and no move takes one in. -/
theorem claim_kept_iff {utc : Int} {s : Store} {ms : List Move} (hs : s.available = true)
    (h : History (StatusServed key) (around utc s) ms w) :
    ((around utc s).WhileLive key ms (fun v _ => v.Claims key) ↔
        (around utc s).WhileLive key ms Unexpired) ∧
      ((around utc s).WhileLive key ms Unexpired → 0 < w.live key →
        w.live key = 1 ∧
          (∃ c, (around utc s).lastClaim key none ms = some c ∧
            w.entry key.statusKey = some c.entry) ∧
          ∀ m, w.Admits m → StatusServed key w m → ¬ w.Takes key m) := by
  refine ⟨⟨?_, ?_⟩, ?_⟩
  · intro hall
    have hboth := h.unexpired hs (hall.mono fun _ _ hc => .inr hc)
    exact hboth.mono fun _ _ hb => hb.1
  · intro hall
    have hboth := h.unexpired hs (hall.mono fun _ _ hc => .inl hc)
    exact hboth.mono fun _ _ hb => hb.2
  · intro hall hlive
    have hw := h.claimed hs (hall.mono fun _ _ hc => .inl hc)
    have hone := hw.blocked.one
    obtain ⟨c, hc, -, hentry⟩ := hw.held hlive
    refine ⟨by omega, ⟨c, hc, hentry⟩, ?_⟩
    intro m hm hr htakes
    have hfate := hw.blocked.sound.fate hw.blocked.reads hw.reach.spared hw.reach.prompt hm hr.1
    exact hw.blocked.blocks hlive (hfate.of_takes htakes).1

/-- A runner whose jobs stay marked as running for a second. -/
def forASecond : Runner.Config := { Runner.Config.usual with runningTtl := .ofSecs 1 }

/-- Two runners. A job is handed in to the first one, which marks it as running and calls its
handler; the handler waits for something that does not come. -/
def waiting : List Move :=
  [.runner "a" forASecond, .runner "b" Runner.Config.usual,
    .handler (.scripted "x" 0 fun _ => [.wait "gate"]),
    .launch (.enqueue (.start "a" (.new shared 0))), .step 0, .step 0, .step 0, .step 1, .step 1,
    .step 1, .step 1, .step 1, .step 2, .step 2]

/-- A second passes. -/
def overdue : List Move := waiting ++ [.pass 1000000000]

/-- A job for the same key is handed in to the second runner. -/
def secondClaim : List Move :=
  overdue ++ [.launch (.enqueue (.start "b" (.new shared 0))), .step 3, .step 3, .step 3]

/-- The first job is still live after its second, but its claim is gone, and the second runner takes
in a job for the same key. Nobody else has written the status, the store has always been in reach,
and nobody has been stopped. -/
theorem claim_lost :
    History (StatusServed shared) (around 0 .empty) secondClaim
        ((around 0 .empty).after secondClaim) ∧
      ((around 0 .empty).after overdue).live shared = 1 ∧
      ((around 0 .empty).after overdue).entry shared.statusKey = none ∧
      ((around 0 .empty).after secondClaim).live shared = 2 ∧
      (((around 0 .empty).after secondClaim).runners.find? "b").map Runner.pending =
        some [.new shared 0] := by
  have h : History (StatusServed shared) (around 0 .empty) secondClaim _ :=
    .of_check (by decide +kernel)
  exact ⟨h, by decide +kernel, by decide +kernel, by decide +kernel, by decide +kernel⟩

/-- All but the last nanosecond of the second pass. -/
def almostDue : List Move := waiting ++ [.pass 999999999]

/-- While the second has not passed, the job is marked as running, and no second job is taken in. -/
theorem claim_kept_iff_almostDue :
    ((around 0 .empty).after almostDue).live shared = 1 ∧
      ((around 0 .empty).after almostDue).entry shared.statusKey =
        some ⟨JobStatus.running.text, some 1000000000⟩ ∧
      ∀ m, ((around 0 .empty).after almostDue).Admits m →
        StatusServed shared ((around 0 .empty).after almostDue) m →
        ¬ ((around 0 .empty).after almostDue).Takes shared m := by
  have h : History (StatusServed shared) (around 0 .empty) almostDue _ :=
    .of_check (by decide +kernel)
  have htime : ∀ n, n < almostDue.length + 1 →
      0 < ((around 0 .empty).after (almostDue.take n)).live shared →
      ((around 0 .empty).after (almostDue.take n)).Unexpired
        ((around 0 .empty).lastClaim shared none (almostDue.take n)) := by decide +kernel
  have hall : (around 0 .empty).WhileLive shared almostDue Unexpired := by
    intro before hb
    rw [List.prefix_iff_eq_take.mp hb]
    exact htime _ (Nat.lt_succ_of_le hb.length_le)
  obtain ⟨hone, ⟨c, hc, hentry⟩, hnone⟩ := (claim_kept_iff rfl h).2 hall (by decide +kernel)
  have hlast : (around 0 .empty).lastClaim shared none almostDue =
      some ⟨.running, 0, .ofSecs 1⟩ := by decide +kernel
  rw [hlast] at hc
  cases hc
  exact ⟨hone, hentry, hnone⟩

end World

end JobFleet
