import JobFleet.Proofs.Fleet.Counter

/-!
# Slots of the counter

A job that is not critical holds a slot from its admission until the slot is given back. The
counter stands for the slots that are held and those that are stuck, as long as no reply is
lost; a raise whose reply is lost leaves it too high by one, a drop whose reply is lost too low.
-/

namespace JobFleet

/-- The admission that a worker has not yet given back. -/
def Worker.Phase.taken? : Worker.Phase → Option Taken
  | .beginning t => some t
  | .calling t => some t
  | .awaiting t _ => some t
  | .succeeding t => some t
  | .exhausted t => some t
  | .backingOff t _ => some t
  | .abandoning t => some t
  | .releasing t _ => some t
  | .resting t _ _ => some t
  | .starting | .choosing | .admitting _ | .refusing .. => none

/-- How many slots a worker holds: one for an admitted job that is not critical. -/
def Worker.Phase.slots (p : Worker.Phase) : Nat :=
  match p.taken? with
  | some t => if t.job.criticality.counted then 1 else 0
  | none => 0

/-- Whether a worker is about to give a slot back. -/
def Worker.Phase.returns : Worker.Phase → Bool
  | .releasing .. => true
  | .resting .. => true
  | _ => false

/-- An admission is marked as counted if its job is, and only counted ones are given back. -/
def Worker.Phase.Fair (p : Worker.Phase) : Prop :=
  ∀ t, p.taken? = some t →
    t.counted = t.job.criticality.counted ∧ (p.returns = true → t.counted = true)

namespace World

/-- How many jobs that are not critical hold a slot, over all runners. -/
def held (w : World) : Nat := w.weigh Worker.Phase.slots

/-- How many slots are stuck: giving them back failed as often as it was tried. -/
def stuck (w : World) : Nat := w.journal.countP fun r => r.2.tellsStuck

/-- One if a call failed and took effect on the counter all the same, else zero. -/
def lost {a : Answer} (w : World) (c : Call a) : Nat :=
  match w.perform c with
  | (.ok _, _) => 0
  | (.error _, v) => if v.entry jobCounterKey = w.entry jobCounterKey then 0 else 1

/-- Every worker's admission is marked as it should be. -/
def Fair (w : World) : Prop :=
  ∀ id k, w.tasks.find? id = some (.worker k) → k.phase.Fair

end World

namespace Worker

/-- One if this worker's next step raises the counter without learning of it. -/
def lostRaise (k : Worker) (w : World) : Nat :=
  match k.phase with
  | .admitting job =>
      if job.criticality.counted then
        w.lost (.incrementIfBelow jobCounterKey (w.runnerConfig k.runner).maxRunning)
      else 0
  | _ => 0

/-- One if this worker's next step lowers the counter without learning of it. -/
def lostDrop (k : Worker) (w : World) : Nat :=
  match k.phase with
  | .releasing .. => w.lost (.decrement jobCounterKey)
  | _ => 0

/-- Whether the next step of a worker calls on the counter. -/
def Phase.trades : Phase → Bool
  | .admitting job => job.criticality.counted
  | .releasing .. => true
  | _ => false

/-- A phase that makes no trade loses none. -/
theorem lost_of_not_trades {k : Worker} (h : k.phase.trades = false) (w : World) :
    k.lostRaise w = 0 ∧ k.lostDrop w = 0 := by
  unfold lostRaise lostDrop
  cases hp : k.phase with
  | admitting job =>
      rw [hp] at h
      have hc : job.criticality.counted = false := h
      simp [hc]
  | releasing t attempt =>
      rw [hp] at h
      cases h
  | _ => exact ⟨rfl, rfl⟩

end Worker

namespace World

/-- Two worlds in which the counter and the stuck slots are the same. -/
def Level (w v : World) : Prop :=
  v.entry jobCounterKey = w.entry jobCounterKey ∧ v.stuck = w.stuck

variable {w u v : World}

/-- Levels go on over two changes. -/
theorem Level.trans (h : w.Level u) (h' : u.Level v) : w.Level v :=
  ⟨h'.1.trans h.1, h'.2.trans h.2⟩

/-- Booked deeds leave the counter level. -/
theorem Booked.level (h : w.Booked v) : w.Level v :=
  ⟨h.entry, h.records _ fun _ hx => hx.1⟩

/-- A call takes no slot. -/
theorem perform_stuck {a : Answer} (w : World) (c : Call a) : (w.perform c).2.stuck = w.stuck := by
  rw [stuck, perform_journal]
  exact List.countP_cons_of_neg Bool.false_ne_true

/-- A call for another key is level. -/
theorem level_of_perform {a : Answer} {c : Call a} {r : Except StoreError a.Value}
    (hs : w.Spared jobCounterKey) (hc : c.target ≠ some jobCounterKey)
    (ha : w.perform c = (r, u)) : w.Level u := by
  have hu : u = (w.perform c).2 := by rw [ha]
  subst hu
  exact ⟨w.perform_entry_of_ne c hc hs, w.perform_stuck c⟩

end World

namespace Worker

open World (Level)

variable {k : Worker} {w v : World} {left : Option Worker}

/-- A status is not written over the counter. -/
theorem statusCall_target_ne (c : Runner.Config) (job : Job) (status : JobStatus) :
    (statusCall c job status).target ≠ some jobCounterKey :=
  fun h => statusKey_ne_jobCounterKey job.key (Option.some.inj h)

/-- A verdict takes as many slots as the counter was raised by. -/
theorem slots_verdict (job : Job) (b : Bool) (hc : job.criticality.counted = true) :
    (verdict job (.ok b)).slots = if b then 1 else 0 := by
  cases b with
  | true => simp [verdict, Phase.slots, Phase.taken?, hc]
  | false => rfl

/-- An admitted job that is over holds its slot until that is given back. -/
theorem slots_afterJob {t : Taken} (h : t.counted = t.job.criticality.counted) :
    (afterJob t).slots = if t.job.criticality.counted then 1 else 0 := by
  unfold afterJob
  rw [h]
  cases hc : t.job.criticality.counted with
  | true => simp [Phase.slots, Phase.taken?, hc]
  | false => rfl

/-- After its job a worker counts it as its criticality asks. -/
theorem fair_afterJob {t : Taken} (h : t.counted = t.job.criticality.counted) :
    (afterJob t).Fair := by
  unfold afterJob
  split
  · rename_i hc
    rintro u ⟨⟩
    exact ⟨h, fun _ => hc⟩
  · exact nofun

/-- A phase that ends a job has taken it. -/
theorem Phase.Ends.taken? {p : Phase} {t : Taken} {status : JobStatus} (h : p.Ends t status) :
    p.taken? = some t := by
  cases h <;> rfl

/-- A phase that ends a job makes no trade. -/
theorem Phase.Ends.not_trades {p : Phase} {t : Taken} {status : JobStatus} (h : p.Ends t status) :
    p.trades = false := by
  cases h <;> rfl

/-- A worker's turn leaves its admission marked as it should be. -/
theorem Turn.fair (h : k.Turn w left v) (hf : k.phase.Fair) {k' : Worker}
    (hk : left = some k') : k'.phase.Fair := by
  cases h with
  | quits hp hc => cases hk
  | idles hp hc hq => cases hk
  | waives hp hc =>
      cases hk
      rintro t ⟨⟩
      exact ⟨hc.symm, nofun⟩
  | @asks job a u hp hc ha =>
      cases hk
      intro t ht
      cases a with
      | error cause => cases ht
      | ok b =>
          cases b with
          | false => cases ht
          | true =>
              cases ht
              exact ⟨hc.symm, nofun⟩
  | begins hp ha ho hv =>
      cases hk
      rintro t ⟨⟩
      exact ⟨(hf _ (by rw [hp]; rfl)).1, nofun⟩
  | aborts hp ha ho hv =>
      cases hk
      exact fair_afterJob (hf _ (by rw [hp]; rfl)).1
  | calls hp =>
      cases hk
      rintro t ⟨⟩
      exact ⟨(hf _ (by rw [hp]; rfl)).1, nofun⟩
  | joins hp hgoal hv =>
      cases hk
      have hc := (hf _ (by rw [hp]; rfl)).1
      cases hgoal <;> rintro t ⟨⟩ <;> exact ⟨hc, nofun⟩
  | ends he ha hv =>
      cases hk
      exact fair_afterJob (hf _ he.taken?).1
  | resumes hp hc =>
      cases hk
      rintro t ⟨⟩
      exact ⟨(hf _ (by rw [hp]; rfl)).1, nofun⟩
  | abandons hp hc =>
      cases hk
      rintro t ⟨⟩
      exact ⟨(hf _ (by rw [hp]; rfl)).1, nofun⟩
  | retries hp ha hmore hv =>
      cases hk
      rintro t ⟨⟩
      have ht := hf _ (by rw [hp]; rfl)
      exact ⟨ht.1, fun _ => ht.2 (by rw [hp]; rfl)⟩
  | rests hp =>
      cases hk
      rintro t ⟨⟩
      have ht := hf _ (by rw [hp]; rfl)
      exact ⟨ht.1, fun _ => ht.2 (by rw [hp]; rfl)⟩
  | _ =>
      cases hk
      exact nofun

/-- A turn in which a worker gets a slot for a job, or gives one back. -/
inductive TradesSlot (k : Worker) : Option Worker → Prop
  | admits {job : Job} (hp : k.phase = .admitting job) (hc : job.criticality.counted = true) :
      TradesSlot k (some (k.inPhase (.beginning ⟨job, true⟩)))
  | returns {t : Taken} {attempt : Nat} (hp : k.phase = .releasing t attempt)
      (hc : t.job.criticality.counted = true) : TradesSlot k (some (k.inPhase .choosing))

/-- What a turn enters for the counter: its number, the slots held and stuck, and the replies
lost on the way balance before and after. If every reply arrives, the number changes only when
a slot changes hands. -/
structure Ledger (k : Worker) (w : World) (n : Int) (left : Option Worker) (v : World)
    (n' : Int) : Prop where
  counts : v.Counts n'
  word : World.InWord n'
  bound : n' ≤ n ∨ n' ≤ (w.runnerConfig k.runner).maxRunning
  balance : n' + k.phase.slots + w.stuck + k.lostDrop w =
    n + (left.elim 0 fun k' => k'.phase.slots) + v.stuck + k.lostRaise w
  moved : w.Prompt → n' = n ∨ TradesSlot k left
  prompt : w.Prompt → k.lostRaise w = 0 ∧ k.lostDrop w = 0

variable {n : Int}

/-- A turn that leaves the counter and the worker's slot alone. -/
theorem Ledger.level (hc : w.Counts n) (hn : World.InWord n) (hv : w.Level v)
    (hs : (left.elim 0 fun k' => k'.phase.slots) = k.phase.slots)
    (hl : k.lostRaise w = 0 ∧ k.lostDrop w = 0) : Ledger k w n left v n where
  counts := hc.of_entry hv.1
  word := hn
  bound := .inl (Int.le_refl n)
  balance := by
    rw [hs, hl.1, hl.2, hv.2]
  moved := fun _ => .inl rfl
  prompt := fun _ => hl

/-- A turn whose one call writes a status. -/
theorem Ledger.status {job : Job} {status : JobStatus} {a : Except StoreError Unit} {u : World}
    (hc : w.Counts n) (hn : World.InWord n) (hsp : w.Spared jobCounterKey)
    (ha : w.perform (statusCall (w.runnerConfig k.runner) job status) = (a, u))
    (hv : u.Via k.Books v) (hs : (left.elim 0 fun k' => k'.phase.slots) = k.phase.slots)
    (hl : k.lostRaise w = 0 ∧ k.lostDrop w = 0) : Ledger k w n left v n := by
  have hu : w.Level u := World.level_of_perform hsp (statusCall_target_ne _ job status) ha
  exact .level hc hn (hu.trans (hv.booked fun _ hb => hb.keeps).level) hs hl

/-- A call that is answered is not lost. -/
theorem lost_of_ok {a : Answer} {c : Call a} {x : a.Value} {u : World}
    (ha : w.perform c = (.ok x, u)) : w.lost c = 0 := by
  rw [World.lost, ha]

/-- A call that changed nothing is not lost. -/
theorem lost_of_same {a : Answer} {c : Call a} {e : StoreError} {u : World}
    (ha : w.perform c = (.error e, u)) (h : u.entry jobCounterKey = w.entry jobCounterKey) :
    w.lost c = 0 := by
  simp only [World.lost, ha, h, if_true]

/-- A call that failed and moved the counter is lost. -/
theorem lost_of_counts {a : Answer} {c : Call a} {e : StoreError} {u : World} {m : Int}
    (ha : w.perform c = (.error e, u)) (hc : w.Counts n) (hu : u.Counts m)
    (hn : World.InWord n) (hm : World.InWord m) (hne : m ≠ n) : w.lost c = 1 := by
  have h : u.entry jobCounterKey ≠ w.entry jobCounterKey := by
    intro he
    exact hne (hc.unique hu hn hm he)
  simp only [World.lost, ha, h, if_false]

/-- A call takes no slot, by its answer. -/
theorem stuck_of_perform {a : Answer} {c : Call a} {r : Except StoreError a.Value} {u : World}
    (ha : w.perform c = (r, u)) : u.stuck = w.stuck := by
  have h := w.perform_stuck c
  rwa [ha] at h

/-- A turn that asks for a slot. -/
theorem Ledger.asks {job : Job} {a : Except StoreError Bool} {u : World}
    (hp : k.phase = .admitting job) (hj : job.criticality.counted = true)
    (ha : w.perform (.incrementIfBelow jobCounterKey (w.runnerConfig k.runner).maxRunning) =
      (a, u)) (hc : w.Counts n) (hn : World.InWord n)
    (hsp : w.Spared jobCounterKey) (hfit : World.Fits (w.runnerConfig k.runner).maxRunning) :
    ∃ n', Ledger k w n (some (k.inPhase (verdict job a))) u n' := by
  have hslots : k.phase.slots = 0 := by rw [hp]; rfl
  have hdrop : k.lostDrop w = 0 := by simp only [lostDrop, hp]
  have hraise : k.lostRaise w =
      w.lost (.incrementIfBelow jobCounterKey (w.runnerConfig k.runner).maxRunning) := by
    simp only [lostRaise, hp, hj, if_true]
  have hst := stuck_of_perform ha
  have hword : n < (w.runnerConfig k.runner).maxRunning → World.InWord (n + 1) := by
    intro hlt
    unfold World.InWord at *
    unfold World.Fits at hfit
    omega
  have hcases := hc.raise hn hsp (w.runnerConfig k.runner).maxRunning
  rw [ha] at hcases
  cases hcases with
  | granted hlt hu =>
      have hl := lost_of_ok ha
      have hs : (verdict job (.ok true)).slots = 1 := slots_verdict job true hj
      refine ⟨n + 1, hu, hword hlt, .inr hlt, ?_, fun _ => .inr (.admits hp hj), fun _ => ?_⟩
      · simp only [Option.elim_some, inPhase]
        omega
      · exact ⟨hraise.trans hl, hdrop⟩
  | denied hu =>
      exact ⟨n, .level hc hn ⟨hu, hst⟩ hslots.symm ⟨hraise.trans (lost_of_ok ha), hdrop⟩⟩
  | failed hu =>
      exact ⟨n, .level hc hn ⟨hu, hst⟩ hslots.symm ⟨hraise.trans (lost_of_same ha hu), hdrop⟩⟩
  | @lost e _ lossy hlt hu =>
      refine ⟨n + 1, hu, hword hlt, .inr hlt, ?_, fun h => absurd h lossy, fun h => absurd h lossy⟩
      have hl := lost_of_counts ha hc hu hn (hword hlt) (by omega)
      have hs : (verdict job (.error e)).slots = 0 := rfl
      simp only [Option.elim_some, inPhase]
      omega

/-- A turn that gives a slot back: it has been given back, or is held as before, or stuck. -/
theorem Ledger.drops {t : Taken} {attempt : Nat} {a : Except StoreError Int} {u : World}
    (hp : k.phase = .releasing t attempt) (hf : k.phase.Fair)
    (ha : w.perform (.decrement jobCounterKey) = (a, u)) (hc : w.Counts n) (h0 : 0 ≤ n)
    (hn : World.InWord n) (hsp : w.Spared jobCounterKey)
    (hv : v.entry jobCounterKey = u.entry jobCounterKey)
    (hbook : match a with
      | .ok _ => v.stuck = u.stuck ∧ left = some (k.inPhase .choosing)
      | .error _ => v.stuck + (left.elim 0 fun k' => k'.phase.slots) = u.stuck + 1) :
    ∃ n', Ledger k w n left v n' := by
  have ht := hf t (by rw [hp]; rfl)
  have hcount : t.job.criticality.counted = true := ht.1 ▸ ht.2 (by rw [hp]; rfl)
  have hslots : k.phase.slots = 1 := by
    rw [hp]
    simp only [Phase.slots, Phase.taken?, hcount, if_true]
  have hraise : k.lostRaise w = 0 := by simp only [lostRaise, hp]
  have hdrop : k.lostDrop w = w.lost (.decrement jobCounterKey) := by simp only [lostDrop, hp]
  have hst := stuck_of_perform ha
  have hlow : Number.Range.int64.low < n := Int.lt_of_lt_of_le (by decide) h0
  have hword : World.InWord (n - 1) := by
    unfold World.InWord at *
    omega
  have hcases := hc.drop hn hlow hsp
  rw [ha] at hcases
  cases hcases with
  | done hu =>
      have hl := lost_of_ok ha
      obtain ⟨hb, rfl⟩ := hbook
      refine ⟨n - 1, hu.of_entry hv, hword, .inl (by omega), ?_, fun _ => ?_, fun _ => ?_⟩
      · have hz : (k.inPhase .choosing).phase.slots = 0 := rfl
        simp only [Option.elim_some]
        omega
      · exact .inr (.returns hp hcount)
      · exact ⟨hraise, hdrop.trans hl⟩
  | failed hu =>
      have hl := lost_of_same ha hu
      have hb : v.stuck + _ = u.stuck + 1 := hbook
      exact ⟨n, hc.of_entry (hv.trans hu), hn, .inl (Int.le_refl n), by omega, fun _ => .inl rfl,
        fun _ => ⟨hraise, hdrop.trans hl⟩⟩
  | lost lossy hu =>
      have hl := lost_of_counts ha hc hu hn hword (by omega)
      have hb : v.stuck + _ = u.stuck + 1 := hbook
      exact ⟨n - 1, hu.of_entry hv, hword, .inl (by omega), by omega,
        fun h => absurd h lossy, fun h => absurd h lossy⟩

/-- Every turn of a worker balances. -/
theorem Turn.ledger (h : k.Turn w left v) (hf : k.phase.Fair) (hc : w.Counts n) (h0 : 0 ≤ n)
    (hn : World.InWord n) (hsp : w.Spared jobCounterKey)
    (hfit : World.Fits (w.runnerConfig k.runner).maxRunning) :
    ∃ n', Ledger k w n left v n' := by
  have hover : ∀ t, k.phase.taken? = some t →
      (some (k.inPhase (afterJob t))).elim 0 (fun k' => k'.phase.slots) = k.phase.slots := by
    intro t ht
    rw [Phase.slots, ht]
    exact slots_afterJob (hf t ht).1
  have hquiet : k.phase.trades = false → w.Level v →
      (left.elim 0 fun k' => k'.phase.slots) = k.phase.slots → ∃ n', Ledger k w n left v n' :=
    fun ht hv hs => ⟨n, .level hc hn hv hs (lost_of_not_trades ht w)⟩
  have hnote : ∀ r : Record, r.tellsStuck = false → w.Level (w.enter r) := by
    intro r hr
    exact ⟨rfl, List.countP_cons_of_neg (by rw [hr]; exact Bool.false_ne_true)⟩
  cases h with
  | starts hp => exact hquiet (by rw [hp]; rfl) (hnote _ rfl) (by rw [hp]; rfl)
  | quits hp hq => exact hquiet (by rw [hp]; rfl) ⟨rfl, rfl⟩ (by rw [hp]; rfl)
  | takes hp hq hr hpend => exact hquiet (by rw [hp]; rfl) ⟨rfl, rfl⟩ (by rw [hp]; rfl)
  | idles hp hq hempty => exact hquiet (by rw [hp]; rfl) (hnote _ rfl) (by rw [hp]; rfl)
  | waives hp hj =>
      refine hquiet (by rw [hp]; exact hj) ⟨rfl, rfl⟩ ?_
      rw [hp]
      simp [inPhase, Phase.slots, Phase.taken?, hj]
  | asks hp hj ha => exact Ledger.asks hp hj ha hc hn hsp hfit
  | refuses hp ha hv =>
      have hl := lost_of_not_trades (k := k) (by rw [hp]; rfl) w
      exact ⟨n, .status hc hn hsp ha hv (by rw [hp]; rfl) hl⟩
  | begins hp ha ho hv =>
      have hl := lost_of_not_trades (k := k) (by rw [hp]; rfl) w
      exact ⟨n, .status hc hn hsp ha hv (by rw [hp]; rfl) hl⟩
  | aborts hp ha ho hv =>
      have hl := lost_of_not_trades (k := k) (by rw [hp]; rfl) w
      exact ⟨n, .status hc hn hsp ha hv (hover _ (by rw [hp]; rfl)) hl⟩
  | calls hp => exact hquiet (by rw [hp]; rfl) ⟨rfl, rfl⟩ (by rw [hp]; rfl)
  | joins hp hgoal hv =>
      refine hquiet (by rw [hp]; rfl) ?_ ?_
      · exact World.Level.trans ⟨rfl, rfl⟩ (hv.booked fun _ hb => hb.keeps).level
      · rw [hp]
        cases hgoal <;> rfl
  | ends he ha hv =>
      have hl := lost_of_not_trades (k := k) he.not_trades w
      exact ⟨n, .status hc hn hsp ha hv (hover _ he.taken?) hl⟩
  | resumes hp hq => exact hquiet (by rw [hp]; rfl) ⟨rfl, rfl⟩ (by rw [hp]; rfl)
  | abandons hp hq => exact hquiet (by rw [hp]; rfl) ⟨rfl, rfl⟩ (by rw [hp]; rfl)
  | releases hp ha => exact Ledger.drops hp hf ha hc h0 hn hsp rfl ⟨rfl, rfl⟩
  | @retries t _ _ _ _ _ hp ha hmore hv =>
      have hb := (hv.booked fun _ hd => hd.keeps).level
      refine Ledger.drops hp hf ha hc h0 hn hsp hb.1 ?_
      have ht := hf t (by rw [hp]; rfl)
      have hcount : t.job.criticality.counted = true := ht.1 ▸ ht.2 (by rw [hp]; rfl)
      simp only [hb.2, Option.elim_some, inPhase, Phase.slots, Phase.taken?, hcount, if_true]
  | sticks hp ha hmore =>
      refine Ledger.drops hp hf ha hc h0 hn hsp rfl ?_
      exact congrArg (· + 0) (List.countP_cons_of_pos rfl)
  | rests hp => exact hquiet (by rw [hp]; rfl) ⟨rfl, rfl⟩ (by rw [hp]; rfl)

end Worker

end JobFleet
