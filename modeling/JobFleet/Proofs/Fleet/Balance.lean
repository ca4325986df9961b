import JobFleet.Proofs.Fleet.Frame
import JobFleet.Proofs.Fleet.Slots

/-!
# The balance of the counter

Along every history in which nobody else writes the counter, its number, the slots that are held
or stuck and the replies that were lost balance. If no reply is lost, the counter is the number
of slots held and stuck, and no more slots are held than the highest ceiling allows. If replies
may be lost, the counter covers the slots that are held exactly as long as lost drops are made
up for by stuck slots and lost raises.
-/

namespace JobFleet.World

/-- The highest ceiling that a runner is told, zero if none is higher. -/
def topCeiling (w : World) : Int :=
  (w.runners.entries.map fun e => e.2.config.maxRunning).foldl max 0

/-- The largest of a list is bounded as each of its members is. -/
theorem foldl_max_le (l : List Int) (a b : Int) :
    l.foldl max a ≤ b ↔ a ≤ b ∧ ∀ x ∈ l, x ≤ b := by
  induction l generalizing a with
  | nil => simp
  | cons y rest ih =>
      rw [List.foldl_cons, ih, Int.max_le, List.forall_mem_cons]
      exact and_assoc

/-- The highest ceiling is under a bound if every ceiling is. -/
theorem topCeiling_le {w : World} {b : Int} : w.topCeiling ≤ b ↔
    0 ≤ b ∧ ∀ name r, w.runners.find? name = some r → r.config.maxRunning ≤ b := by
  rw [topCeiling, foldl_max_le, List.forall_mem_map]
  refine and_congr_right fun _ => ⟨?_, ?_⟩
  · intro h name r hr
    exact h (name, r) (Table.mem_of_find? hr)
  · rintro h ⟨name, r⟩ hr
    exact h name r (Table.find?_of_mem hr)

/-- The top ceiling is no less than zero. -/
theorem topCeiling_nonneg (w : World) : 0 ≤ w.topCeiling :=
  (topCeiling_le.mp (Int.le_refl w.topCeiling)).1

/-- The top ceiling is no lower than any runner's. -/
theorem le_topCeiling {w : World} {name : String} {r : Runner}
    (h : w.runners.find? name = some r) : r.config.maxRunning ≤ w.topCeiling :=
  (topCeiling_le.mp (Int.le_refl w.topCeiling)).2 name r h

/-- No move lowers the highest ceiling. -/
theorem topCeiling_move {w : World} {m : Move} (hm : w.Admits m) :
    w.topCeiling ≤ (w.move m).topCeiling := by
  refine topCeiling_le.mpr ⟨topCeiling_nonneg _, ?_⟩
  intro name r hr
  obtain ⟨r', hr', he⟩ := move_runner hm hr
  rw [← he]
  exact le_topCeiling hr'

/-- One if a move raises the counter for a worker that does not learn of it. -/
def lostRaise (w : World) : Move → Nat
  | .step id =>
      match w.tasks.find? id with
      | some (.worker k) => k.lostRaise w
      | _ => 0
  | _ => 0

/-- One if a move lowers the counter for a worker that does not learn of it. -/
def lostDrop (w : World) : Move → Nat
  | .step id =>
      match w.tasks.find? id with
      | some (.worker k) => k.lostDrop w
      | _ => 0
  | _ => 0

/-- The sum of what the moves of a history count for. -/
def tally (count : World → Move → Nat) (w : World) : List Move → Nat
  | [] => 0
  | m :: ms => count w m + tally count (w.move m) ms

/-- The tally goes on one move at a time. -/
theorem tally_snoc (count : World → Move → Nat) (w : World) (ms : List Move) (m : Move) :
    tally count w (ms ++ [m]) = tally count w ms + count (w.after ms) m := by
  induction ms generalizing w with
  | nil => exact Nat.add_comm (count w m) 0
  | cons m' rest ih =>
      have h := ih (w.move m')
      simp only [List.cons_append, tally, h]
      exact (Nat.add_assoc _ _ _).symm

/-! ## One move -/

/-- Books in which every move can be entered: tasks are in order, admissions are marked as they
should be, no fault writes the counter, and ceilings are numbers of the counter. -/
structure Bank (w : World) : Prop where
  sound : w.Sound
  fair : w.Fair
  spared : w.Spared jobCounterKey
  fits : ∀ name r, w.runners.find? name = some r → Fits r.config.maxRunning

variable {w : World} {m : Move} {n : Int}

theorem fair_around (utc : Int) (s : Store) : (around utc s).Fair := by
  intro id k hk
  cases hk

/-- A move leaves every worker's admission marked as it should be. -/
theorem Sound.fair_move (h : w.Sound) (hf : w.Fair) (hm : w.Admits m) : (w.move m).Fair := by
  intro id k' hk
  rcases h.move_worker hm hk with ⟨k, hk', hp, -⟩ | hp | ⟨k, -, hk', hturn⟩
  · rw [hp]
    exact hf id k hk'
  · rw [hp]
    exact nofun
  · exact hturn.fair (hf id k hk') rfl

theorem bank_around (utc : Int) (s : Store) : (around utc s).Bank where
  sound := .of_none fun _ => rfl
  fair := fair_around utc s
  spared := spared_around utc s _
  fits := by
    intro name r hr
    cases hr

/-- Every move that leaves the counter to the runners keeps the bank in order. -/
theorem Bank.move (h : w.Bank) (hm : w.Admits m) (hi : ¬ w.Intrudes jobCounterKey m) :
    (w.move m).Bank where
  sound := h.sound.move hm
  fair := h.sound.fair_move h.fair hm
  spared := h.spared.move hm hi
  fits := by
    intro name r' hr'
    rcases runner_of_move hm hr' with ⟨r, hr, he⟩ | ⟨config, worker, rfl, hf⟩
    · rw [he]
      exact h.fits name r hr
    · exact hf

/-- At every moment each worker counts its job as its criticality asks. -/
theorem History.fair {rule : World → Move → Prop} {utc : Int} {s : Store} {ms : List Move}
    (h : History rule (around utc s) ms w) : w.Fair := by
  have hboth : w.Sound ∧ w.Fair := by
    refine h.keeps (P := fun v => v.Sound ∧ v.Fair) ⟨(bank_around utc s).sound, fair_around utc s⟩
      ?_
    exact fun v m hm _ hv => ⟨hv.1.move hm, hv.1.fair_move hv.2 hm⟩
  exact hboth.2

/-- A number that a key holds without an expiry is held later as well. -/
theorem Counts.later (h : w.Counts n) {t : Nat} (ht : w.now ≤ t) :
    ({ w with now := t } : World).Counts n := by
  have he := w.store.entryAt_later ht jobCounterKey
  rcases h with h | ⟨hn, h⟩
  · refine .inl (he.trans ?_)
    have hw : w.store.entryAt w.now jobCounterKey = _ := h
    rw [hw]
    rfl
  · refine .inr ⟨hn, he.trans ?_⟩
    have hw : w.store.entryAt w.now jobCounterKey = _ := h
    rw [hw]
    rfl

/-- A move that is no worker's step leaves the counter alone, unless it intrudes. -/
theorem Bank.quiet (h : w.Bank) (hc : w.Counts n) (hm : w.Admits m)
    (hi : ¬ w.Intrudes jobCounterKey m)
    (hn : ∀ id k, m = .step id → w.tasks.find? id ≠ some (.worker k)) :
    (w.move m).Counts n := by
  cases hset : m.setsUp with
  | true =>
      have hu := move_setUp hset hm
      exact hc.of_entry (by rw [entry, entry, hu.store, hu.now])
  | false =>
      cases m with
      | step id =>
          obtain ⟨t, ht, -, he⟩ := move_step hm
          have hs : t.sort ≠ .worker := by
            cases t with
            | worker k => exact absurd ht (hn id k rfl)
            | _ => rintro ⟨⟩
          have hw : ¬ t.Writes jobCounterKey := fun hw =>
            hi (intrudes_of_handler ht hw (fun j he => statusKey_ne_jobCounterKey j he.symm)
              (fun r he => counterKey_ne_jobCounterKey r he.symm)
              (fun name he => lockKey_ne_jobCounterKey name he.symm) hs)
          refine hc.of_entry ?_
          rw [he, put_entry]
          exact (t.act_via id w).entry (fun _ hd => hd.spares hw) h.spared
      | call c => exact hc.of_entry (w.perform_entry_of_ne c.2 hi h.spared)
      | pass t => exact hc.later hm
      | launch o => exact hc
      | collect id => exact hc
      | disturb f => exact hc
      | reach value => exact hc
      | _ => cases hset

/-- What a move enters for the counter. -/
structure Entered (w : World) (n : Int) (m : Move) (n' : Int) : Prop where
  counts : (w.move m).Counts n'
  word : InWord n'
  bound : n' ≤ n ∨ n' ≤ (w.move m).topCeiling
  balance : n' + w.held + w.stuck + w.lostDrop m =
    n + (w.move m).held + (w.move m).stuck + w.lostRaise m
  moved : w.Prompt → n' = n ∨ ∃ id k k', m = .step id ∧
    w.tasks.find? id = some (.worker k) ∧ (w.move m).tasks.find? id = some (.worker k') ∧
      k.TradesSlot (some k')
  prompt : w.Prompt → w.lostRaise m = 0 ∧ w.lostDrop m = 0

/-- A step of a worker balances. -/
theorem Bank.enter_worker (h : w.Bank) (hc : w.Counts n) (h0 : 0 ≤ n) (hn : InWord n) {id : TaskId}
    {k : Worker} (hm : w.Admits (.step id)) (ht : w.tasks.find? id = some (.worker k)) :
    ∃ n', w.Entered n (.step id) n' := by
  have hturn := k.step_turn w
  obtain ⟨r, hr⟩ := h.sound.employed id _ k.runner ht rfl
  have hcfg : w.runnerConfig k.runner = r.config := by
    rw [runnerConfig, hr]
    rfl
  have hfit : Fits (w.runnerConfig k.runner).maxRunning := hcfg ▸ h.fits _ r hr
  obtain ⟨n', hl⟩ := hturn.ledger (h.fair id k ht) hc h0 hn h.spared hfit
  have hwd := h.sound.turn_weigh ht hturn Worker.Phase.slots rfl
  have hv := move_step_worker hm ht
  have hraise : w.lostRaise (.step id) = k.lostRaise w := by simp only [lostRaise, ht]
  have hdrop : w.lostDrop (.step id) = k.lostDrop w := by simp only [lostDrop, ht]
  have hstuck : (w.move (.step id)).stuck = (k.step w).2.stuck := by
    rw [hv, stuck, stuck, put_journal]
  refine ⟨n', ?_, hl.word, ?_, ?_, ?_, ?_⟩
  · rw [hv]
    exact hl.counts.of_entry (put_entry ..)
  · obtain ⟨r', hr', hcfg'⟩ := move_runner hm hr
    have hle := le_topCeiling hr'
    rcases hl.bound with hb | hb
    · exact .inl hb
    · rw [hcfg, ← hcfg'] at hb
      exact .inr (Int.le_trans hb hle)
  · have hb := hl.balance
    have hheld : (w.move (.step id)).held + k.phase.slots =
        w.held + (k.step w).1.state?.elim 0 fun k' => k'.phase.slots := by
      rw [hv]
      exact hwd
    omega
  · intro hp
    rcases hl.moved hp with hsame | htrade
    · exact .inl hsame
    · refine .inr ?_
      cases hs : (k.step w).1.state? with
      | none =>
          rw [hs] at htrade
          cases htrade
      | some k' =>
          rw [hs] at htrade
          refine ⟨id, k, k', rfl, ht, ?_, htrade⟩
          rw [hv, put_find?, if_pos rfl, hs]
          rfl
  · intro hp
    rw [hraise, hdrop]
    exact hl.prompt hp

/-- A move that is no step of a worker loses no call of one. -/
theorem lost_of_other (hno : ∀ id k, m = .step id → w.tasks.find? id ≠ some (.worker k)) :
    w.lostRaise m = 0 ∧ w.lostDrop m = 0 := by
  cases m with
  | step id =>
      cases ht : w.tasks.find? id with
      | none => simp only [lostRaise, lostDrop, ht, and_self]
      | some t =>
          cases t with
          | worker k => exact absurd ht (hno id k rfl)
          | _ => simp only [lostRaise, lostDrop, ht, and_self]
  | _ => exact ⟨rfl, rfl⟩

/-- A move that is no step of a worker gives no slot up. -/
theorem stuck_of_other (hm : w.Admits m)
    (hno : ∀ id k, m = .step id → w.tasks.find? id ≠ some (.worker k)) :
    (w.move m).stuck = w.stuck := by
  refine move_records hm (fun _ => rfl) (fun _ => rfl) ?_
  intro id t r hc he ht hr
  refine hr.tellsStuck ?_
  cases t with
  | worker k => exact absurd ht (hno id k he)
  | _ => rintro ⟨⟩

/-- Every move balances. -/
theorem Bank.enter (h : w.Bank) (hc : w.Counts n) (h0 : 0 ≤ n) (hn : InWord n)
    (hm : w.Admits m) (hi : ¬ w.Intrudes jobCounterKey m) : ∃ n', w.Entered n m n' := by
  by_cases hstep : ∃ id k, m = .step id ∧ w.tasks.find? id = some (.worker k)
  · obtain ⟨id, k, rfl, ht⟩ := hstep
    exact h.enter_worker hc h0 hn hm ht
  · have hno : ∀ id k, m = .step id → w.tasks.find? id ≠ some (.worker k) :=
      fun id k he ht => hstep ⟨id, k, he, ht⟩
    have hq := h.quiet hc hm hi hno
    have hheld : (w.move m).held = w.held := h.sound.move_weigh hm hno _ rfl
    have hstuck := stuck_of_other hm hno
    have hzero := lost_of_other hno
    exact ⟨n, hq, hn, .inl (Int.le_refl n), by omega, fun _ => .inl rfl, fun _ => hzero⟩

/-! ## Whole histories -/

/-- The counter covers the slots that are held. -/
def Covered (w : World) : Prop := ∃ n, w.counter = .ok n ∧ w.held ≤ n

/-- What a history has entered for the counter. -/
structure Ledger (start : World) (ms : List Move) (n : Int) : Prop where
  counts : (start.after ms).Counts n
  word : InWord n
  bound : n ≤ 0 ∨ n ≤ (start.after ms).topCeiling
  balance : n + tally lostDrop start ms =
    (start.after ms).held + (start.after ms).stuck + tally lostRaise start ms

variable {rule : World → Move → Prop} {start : World} {ms : List Move}

/-- What has been entered before a move, and what the move enters. -/
theorem Ledger.snoc {n' : Int} (h : Ledger start ms n) (hm : (start.after ms).Admits m)
    (he : (start.after ms).Entered n m n') : Ledger start (ms ++ [m]) n' := by
  have hb := h.balance
  have hb' := he.balance
  have ht := topCeiling_move hm
  rw [← after_snoc] at ht
  constructor
  case counts =>
    rw [after_snoc]
    exact he.counts
  case word => exact he.word
  case bound =>
    have hbound := he.bound
    rw [← after_snoc] at hbound
    have hn := h.bound
    have h0 := topCeiling_nonneg (start.after (ms ++ [m]))
    omega
  case balance =>
    rw [tally_snoc, tally_snoc, after_snoc]
    omega

/-- The counter covers the slots that are held exactly if lost drops are made up for. -/
theorem Ledger.covered_iff (h : Ledger start ms n) : (start.after ms).Covered ↔
    tally lostDrop start ms ≤ (start.after ms).stuck + tally lostRaise start ms := by
  have hb := h.balance
  have hc := h.counts.counter h.word
  constructor
  · rintro ⟨n', hn', hle⟩
    rw [hc] at hn'
    cases hn'
    omega
  · intro hle
    exact ⟨n, hc, by omega⟩

theorem ledger_nil {utc : Int} {s : Store} (hs : s.entryAt 0 jobCounterKey = none) :
    Ledger (around utc s) [] 0 where
  counts := counts_zero hs
  word := ⟨by decide, by decide⟩
  bound := .inl (Int.le_refl 0)
  balance := rfl

/-- As long as the counter has covered the slots held, everything is entered. -/
theorem History.ledger {utc : Int} {s : Store} (hs : s.entryAt 0 jobCounterKey = none)
    (hrule : ∀ v m, rule v m → ¬ v.Intrudes jobCounterKey m)
    (h : History rule (around utc s) ms w)
    (hbefore : ∀ first last, ms = first ++ last → last ≠ [] →
      ((around utc s).after first).Covered) :
    w.Bank ∧ ∃ n, Ledger (around utc s) ms n := by
  induction h with
  | nil => exact ⟨bank_around utc s, 0, ledger_nil hs⟩
  | @snoc ms v m h possible obeys ih =>
      have hlast : (around utc s).after ms = v := h.after_eq
      obtain ⟨hbank, n, hl⟩ := ih fun first last he hne => by
        refine hbefore first (last ++ [m]) ?_ (by simp)
        rw [he, List.append_assoc]
      obtain ⟨n', hn', hle⟩ := hbefore ms [m] rfl (by simp)
      have hc := hl.counts.counter hl.word
      rw [hc] at hn'
      cases hn'
      rw [← hlast] at hbank possible obeys ⊢
      obtain ⟨n', he⟩ := hbank.enter hl.counts (by omega) hl.word possible (hrule _ _ obeys)
      exact ⟨hbank.move possible (hrule _ _ obeys), n', hl.snoc possible he⟩

/-- Nobody but the fleet's runners writes the counter. -/
def CounterOwned (w : World) (m : Move) : Prop := ¬ w.Intrudes jobCounterKey m

/-- Nobody but the fleet's runners writes the counter, and a call that fails has had no effect. -/
def CounterTrusted (w : World) (m : Move) : Prop :=
  ¬ w.Intrudes jobCounterKey m ∧ m.Prompt

instance (w : World) (m : Move) : Decidable (CounterOwned w m) :=
  inferInstanceAs (Decidable (¬ w.Intrudes jobCounterKey m))

instance (w : World) (m : Move) : Decidable (CounterTrusted w m) :=
  inferInstanceAs (Decidable (¬ w.Intrudes jobCounterKey m ∧ m.Prompt))

/-- If no reply is lost, the counter is the number of slots that are held or stuck, no more slots
are held than the highest ceiling allows, and the counter changes only when a job that is not
critical gets its slot or gives it back. -/
theorem counter_balance {utc : Int} {s : Store} (hs : s.entryAt 0 jobCounterKey = none)
    (h : History CounterTrusted (around utc s) ms w) :
    w.counter = .ok ((w.held + w.stuck : Nat) : Int) ∧ (w.held : Int) ≤ w.topCeiling ∧
      ∀ m, w.Admits m → CounterTrusted w m → (w.move m).counter ≠ w.counter →
        ∃ id k k', m = .step id ∧ w.tasks.find? id = some (.worker k) ∧
          (w.move m).tasks.find? id = some (.worker k') ∧ k.TradesSlot (some k') := by
  have hkept : w.Bank ∧ w.Prompt ∧ ∃ n : Int, w.Counts n ∧ InWord n ∧
      n = ((w.held + w.stuck : Nat) : Int) ∧ n ≤ w.topCeiling := by
    refine h.keeps (P := fun w => w.Bank ∧ w.Prompt ∧ ∃ n : Int, w.Counts n ∧ InWord n ∧
      n = ((w.held + w.stuck : Nat) : Int) ∧ n ≤ w.topCeiling) ?_ ?_
    · exact ⟨bank_around utc s, prompt_around utc s, 0, counts_zero hs, ⟨by decide, by decide⟩,
        rfl, Int.le_refl 0⟩
    · rintro v m hm ⟨hi, hp⟩ ⟨hbank, hprompt, n, hc, hn, hsum, htop⟩
      obtain ⟨n', he⟩ := hbank.enter hc (by omega) hn hm hi
      have hb := he.balance
      have hz := he.prompt hprompt
      have ht := topCeiling_move hm
      have hbound := he.bound
      exact ⟨hbank.move hm hi, hprompt.move hm hp, n', he.counts, he.word, by omega, by omega⟩
  obtain ⟨hbank, hprompt, n, hc, hn, hsum, htop⟩ := hkept
  refine ⟨by rw [hc.counter hn, hsum], by omega, ?_⟩
  rintro m hm ⟨hi, -⟩ hne
  obtain ⟨n', he⟩ := hbank.enter hc (by omega) hn hm hi
  rcases he.moved hprompt with rfl | htrade
  · exact absurd (by rw [he.counts.counter he.word, hc.counter hn]) hne
  · exact htrade

/-- A runner under a ceiling of one. -/
def oneAtATime : Runner.Config := { Runner.Config.usual with maxRunning := 1 }

/-- A job that is not critical and whose handler ends at once. -/
def brief (key : JobKey) : Job := .new key 0

theorem visible_x : Text.isBlank "x" = false := by decide

/-- One job is handed in to the only runner and admitted. -/
def admission : List Move :=
  [.runner "a" oneAtATime, .launch (.enqueue (.start "a" (brief ⟨"x", visible_x⟩))),
    .step 0, .step 0, .step 0, .step 1, .step 1, .step 1]

/-- The balance after an admission: one slot is held. -/
theorem counter_balance_admission :
    ((around 0 .empty).after admission).held = 1 ∧
      ((around 0 .empty).after admission).counter =
        .ok ((((around 0 .empty).after admission).held +
          ((around 0 .empty).after admission).stuck : Nat) : Int) ∧
      (((around 0 .empty).after admission).held : Int) ≤
        ((around 0 .empty).after admission).topCeiling := by
  have h : History CounterTrusted (around 0 .empty) admission ((around 0 .empty).after admission) :=
    .of_check (by decide +kernel)
  have hb := counter_balance rfl h
  exact ⟨by decide +kernel, hb.1, hb.2.1⟩

/-- If replies may be lost, the counter has always covered the slots held exactly if at all times
the drops that were lost were made up for by stuck slots and lost raises; and then no more slots
were ever held than the highest ceiling allowed. -/
theorem counter_covers_iff {utc : Int} {s : Store} (hs : s.entryAt 0 jobCounterKey = none)
    (h : History CounterOwned (around utc s) ms w) :
    ((∀ first, first <+: ms → ((around utc s).after first).Covered) ↔
      ∀ first, first <+: ms → tally lostDrop (around utc s) first ≤
        ((around utc s).after first).stuck + tally lostRaise (around utc s) first) ∧
    ((∀ first, first <+: ms → ((around utc s).after first).Covered) →
      ∀ first, first <+: ms → (((around utc s).after first).held : Int) ≤
        ((around utc s).after first).topCeiling) := by
  have hledger : ∀ first, first <+: ms → (∀ shorter, shorter <+: first → shorter ≠ first →
      ((around utc s).after shorter).Covered) → ∃ n, Ledger (around utc s) first n := by
    rintro first ⟨last, rfl⟩ hall
    obtain ⟨v, hfirst, -⟩ := h.split
    refine (hfirst.ledger hs (fun _ _ hr => hr) ?_).2
    rintro shorter rest rfl hne
    exact hall shorter (List.prefix_append _ _) fun he => hne (by simpa using he)
  refine ⟨⟨?_, ?_⟩, ?_⟩
  · intro hcov first hfirst
    obtain ⟨n, hl⟩ := hledger first hfirst fun shorter hs _ => hcov shorter (hs.trans hfirst)
    exact hl.covered_iff.mp (hcov first hfirst)
  · intro hcond first
    induction hlen : first.length using Nat.strongRecOn generalizing first with
    | ind len ih =>
        intro hfirst
        obtain ⟨n, hl⟩ := hledger first hfirst fun shorter hs hne => by
          refine ih shorter.length ?_ shorter rfl (hs.trans hfirst)
          rw [← hlen]
          exact Nat.lt_of_le_of_ne hs.length_le fun he => hne (hs.eq_of_length he)
        exact hl.covered_iff.mpr (hcond first hfirst)
  · intro hcov first hfirst
    obtain ⟨n, hl⟩ := hledger first hfirst fun shorter hs _ => hcov shorter (hs.trans hfirst)
    obtain ⟨n', hn', hle⟩ := hcov first hfirst
    rw [hl.counts.counter hl.word] at hn'
    cases hn'
    have hbound := hl.bound
    have h0 := topCeiling_nonneg ((around utc s).after first)
    omega

/-- Two runners under a ceiling of one, and three jobs. The reply to the first job's drop is
lost; the second job is admitted by the other runner; the drop is repeated and takes the second
job's slot from the counter; so the third job is admitted as well. -/
def lostReply : List Move :=
  [.runner "a" oneAtATime, .runner "b" oneAtATime,
    .disturb ⟨.decrement, 0, 1, none, some (.connection "lost"), true⟩,
    .launch (.enqueue (.start "a" (brief ⟨"x", visible_x⟩))), .step 0, .step 0, .step 0,
    .step 1, .step 1, .step 1, .step 1, .step 1, .step 2, .step 1, .step 1, .step 1,
    .launch (.enqueue (.start "b" (brief ⟨"y", by decide⟩))), .step 3, .step 3, .step 3,
    .step 4, .step 4, .step 4, .pass 100000000, .step 1, .step 1,
    .launch (.enqueue (.start "a" (brief ⟨"z", by decide⟩))), .step 5, .step 5, .step 5,
    .step 1, .step 1]

/-- A drop that is repeated after its reply was lost lets two jobs hold slots under a ceiling of
one, with a counter of one. -/
theorem counter_uncovered_lostReply :
    ∃ w, History CounterOwned (around 0 .empty) lostReply w ∧
      (∀ e ∈ w.runners.entries, e.2.config.maxRunning = 1) ∧
      w.counter = .ok 1 ∧ w.held = 2 := by
  have hc : ((around 0 .empty).after lostReply).Counts 1 := .inl (by decide +kernel)
  refine ⟨_, .of_check (by decide +kernel), by decide +kernel, ?_, by decide +kernel⟩
  exact hc.counter ⟨by decide, by decide⟩

/-- In that history a lost drop is at some time not made up for. -/
theorem counter_covers_iff_lostReply :
    ¬ ∀ first, first <+: lostReply → tally lostDrop (around 0 .empty) first ≤
      ((around 0 .empty).after first).stuck + tally lostRaise (around 0 .empty) first := by
  have h : History CounterOwned (around 0 .empty) lostReply ((around 0 .empty).after lostReply) :=
    .of_check (by decide +kernel)
  have hc : ((around 0 .empty).after lostReply).Counts 1 := .inl (by decide +kernel)
  have hheld : ((around 0 .empty).after lostReply).held = 2 := by decide +kernel
  intro hall
  obtain ⟨n, hn, hle⟩ := (counter_covers_iff rfl h).1.mpr hall lostReply (List.prefix_refl _)
  rw [hc.counter ⟨by decide, by decide⟩, Except.ok.injEq] at hn
  omega

end JobFleet.World
