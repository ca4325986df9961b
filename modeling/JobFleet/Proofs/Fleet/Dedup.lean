import JobFleet.Proofs.Fleet.Fate

/-!
# One live job for a key

As long as the status of a key is written by the fleet alone and does not lapse while a job for
the key is live, a live job keeps the key from being vacant. So there is at most one live job for
the key over all runners, at most one call of a handler runs for it, and between two jobs for it
that are taken into queues the key has become vacant: its status was written as failed, or it
lapsed.
-/

namespace JobFleet.World

variable {key : JobKey} {w : World} {m : Move}

/-- A status that is not failed leaves no vacancy. -/
theorem Says.not_vacant {status : JobStatus} (h : w.Says key status) (hne : status ≠ .failed) :
    ¬ w.Vacant key := by
  obtain ⟨e, he, htext⟩ := h
  rintro (hn | ⟨e', he', hfailed⟩)
  · rw [hn] at he
    cases he
  · rw [he] at he'
    cases he'
    rw [htext] at hfailed
    cases status with
    | failed => exact hne rfl
    | _ => exact absurd hfailed (by decide)

/-- A vacancy is read off the entry of the status. -/
theorem Vacant.of_entry {v : World} (h : w.Vacant key)
    (he : v.entry key.statusKey = w.entry key.statusKey) : v.Vacant key := by
  unfold Vacant Says
  rw [he]
  exact h

/-- A key's status is written by the fleet alone, a call that fails has had no effect, and the
status does not lapse while a job for the key is live. -/
def StatusKept (key : JobKey) (w : World) (m : Move) : Prop :=
  ¬ w.Intrudes key.statusKey m ∧ m.Prompt ∧ (w.Lapses key.statusKey m → w.live key = 0)

instance (key : JobKey) (w : World) (m : Move) : Decidable (StatusKept key w m) :=
  inferInstanceAs (Decidable (¬ w.Intrudes key.statusKey m ∧ m.Prompt ∧
    (w.Lapses key.statusKey m → w.live key = 0)))

/-- What keeps a second job for a key out while one is live: the status blocks it. -/
structure Blocked (key : JobKey) (w : World) : Prop where
  sound : w.Sound
  reads : w.ReadsFree
  spared : w.Spared key.statusKey
  prompt : w.Prompt
  one : w.live key ≤ 1
  blocks : 0 < w.live key → ¬ w.Vacant key

theorem blocked_around (key : JobKey) (utc : Int) (s : Store) : (around utc s).Blocked key where
  sound := .of_none fun _ => rfl
  reads := by
    intro i t e held ht
    cases ht
  spared := spared_around utc s _
  prompt := prompt_around utc s
  one := Nat.zero_le 1
  blocks := by
    intro hpos
    cases hpos

/-- What a move does to a key that is kept as it should be. -/
theorem Blocked.fate (h : w.Blocked key) (hm : w.Admits m) (hr : StatusKept key w m) :
    w.Fate key m :=
  h.sound.fate h.reads h.spared h.prompt hm hr.1

/-- A move that keeps the statuses keeps them blocking. -/
theorem Blocked.move (h : w.Blocked key) (hm : w.Admits m) (hr : StatusKept key w m) :
    (w.move m).Blocked key := by
  have hkept : (w.move m).live key ≤ 1 ∧ (0 < (w.move m).live key → ¬ (w.move m).Vacant key) := by
    have hone := h.one
    cases h.fate hm hr with
    | stays live status accepted =>
        rw [live]
        exact ⟨hone, fun hpos hv => h.blocks hpos (hv.of_entry status.symm)⟩
    | takes vacant live status accepted =>
        have hzero : w.live key = 0 := by
          by_cases hpos : 0 < w.live key
          · exact absurd vacant (h.blocks hpos)
          · omega
        exact ⟨by omega, fun _ => status.not_vacant nofun⟩
    | @writes status some live marked accepted =>
        refine ⟨by split at live <;> omega, fun hpos => marked.not_vacant ?_⟩
        rintro rfl
        rw [if_neg nofun] at live
        omega
    | drops live status accepted => exact ⟨by omega, fun hpos => by omega⟩
    | lapses hl live accepted =>
        have hzero := hr.2.2 hl
        exact ⟨by omega, fun hpos => by omega⟩
  exact ⟨h.sound.move hm, h.reads.move h.sound hm, h.spared.move hm hr.1,
    h.prompt.move hm hr.2.1, hkept.1, hkept.2⟩

/-- A history that keeps to the rule leads to a world in which the status blocks. -/
theorem History.blocked {utc : Int} {s : Store} {ms : List Move}
    (h : History (StatusKept key) (around utc s) ms w) : w.Blocked key :=
  h.keeps (blocked_around key utc s) fun _ _ hm hr hv => hv.move hm hr

/-! ## Calls of handlers -/

/-- A handler's call that runs for a job of a key. -/
def RunsFor (key : JobKey) (w : World) (call : TaskId) : Prop :=
  (∃ h, w.tasks.find? call = some (.handler h)) ∧
    ∃ id k t, w.tasks.find? id = some (.worker k) ∧ k.phase = .awaiting t call ∧ t.job.key = key

/-- Every handler's call runs for a job of some key. -/
theorem Sound.runsFor (h : w.Sound) {call : TaskId} {c : HandlerCall}
    (hc : w.tasks.find? call = some (.handler c)) : ∃ key, w.RunsFor key call := by
  obtain ⟨id, t, ht, ha⟩ := h.served call c hc
  cases t with
  | worker k =>
      have hp : k.phase.awaits? = some call := ha
      cases hph : k.phase with
      | awaiting t task =>
          rw [hph] at hp
          cases hp
          exact ⟨t.job.key, ⟨c, hc⟩, id, k, t, ht, hph, rfl⟩
      | _ =>
          rw [hph] at hp
          cases hp
  | _ => cases ha

/-- Two calls that run for one key are the same, if there is at most one live job for it. -/
theorem RunsFor.unique (h : w.live key ≤ 1) {call call' : TaskId} (hc : w.RunsFor key call)
    (hc' : w.RunsFor key call') : call = call' := by
  obtain ⟨-, id, k, t, ht, hp, hk⟩ := hc
  obtain ⟨-, id', k', t', ht', hp', hk'⟩ := hc'
  by_cases hid : id = id'
  · subst hid
    rw [ht] at ht'
    cases ht'
    rw [hp] at hp'
    cases hp'
    rfl
  · have hsum := w.tasks.weightAt_add_le_total (Task.weigh (Worker.Phase.lives key)) hid
    rw [Table.weightAt_some ht, Table.weightAt_some ht'] at hsum
    have hone : Task.weigh (Worker.Phase.lives key) (.worker k) = 1 := by
      rw [Task.weigh, hp]
      exact if_pos hk
    have hone' : Task.weigh (Worker.Phase.lives key) (.worker k') = 1 := by
      rw [Task.weigh, hp']
      exact if_pos hk'
    unfold live weigh at h
    omega

/-! ## Jobs that are taken in -/

/-- A move in which a job for a key is taken into a queue. -/
def Takes (key : JobKey) (w : World) (m : Move) : Prop :=
  w.accepted key < (w.move m).accepted key

instance (key : JobKey) (w : World) (m : Move) : Decidable (w.Takes key m) :=
  inferInstanceAs (Decidable (w.accepted key < (w.move m).accepted key))

/-- A move in which a key becomes vacant: its status is written as failed, or lapses. -/
def Vacates (key : JobKey) (w : World) (m : Move) : Prop :=
  ¬ w.Says key .failed ∧ (w.move m).Says key .failed ∨ w.Lapses key.statusKey m

/-- A job is taken in where the key is vacant, and blocks it. -/
theorem Fate.of_takes (h : w.Fate key m) (ht : w.Takes key m) :
    w.Vacant key ∧ ¬ (w.move m).Vacant key := by
  have hlt : w.accepted key < (w.move m).accepted key := ht
  cases h with
  | takes vacant live status accepted => exact ⟨vacant, status.not_vacant nofun⟩
  | stays _ _ accepted => omega
  | writes _ _ _ accepted => omega
  | drops _ _ accepted => omega
  | lapses _ _ accepted => omega

/-- A key that is vacant after a move and not before has been vacated. -/
theorem Fate.vacates (h : w.Fate key m) (hw : ¬ w.Vacant key) (hv : (w.move m).Vacant key) :
    w.Vacates key m := by
  cases h with
  | stays live status accepted => exact absurd (hv.of_entry status.symm) hw
  | drops live status accepted => exact absurd (hv.of_entry status.symm) hw
  | takes vacant live status accepted => exact absurd vacant hw
  | lapses hl live accepted => exact .inr hl
  | writes some live marked accepted =>
      refine .inl ⟨fun h => hw (.inr h), ?_⟩
      rcases hv with hn | hfailed
      · obtain ⟨e, he, -⟩ := marked
        rw [hn] at he
        cases he
      · exact hfailed

/-- If the status of a key is kept, then at most one job for the key is live over all runners, at
most one call of a handler runs for it, and between two moves that take a job for it in there is
one that vacates it. -/
theorem one_live_job {utc : Int} {s : Store} {ms : List Move}
    (h : History (StatusKept key) (around utc s) ms w) :
    w.live key ≤ 1 ∧ (∀ call call', w.RunsFor key call → w.RunsFor key call' → call = call') ∧
      ∀ before m between m' later, ms = before ++ m :: (between ++ m' :: later) →
        ((around utc s).after before).Takes key m →
        ((around utc s).after (before ++ m :: between)).Takes key m' →
        ∃ first n last, between = first ++ n :: last ∧
          ((around utc s).after (before ++ m :: first)).Vacates key n := by
  have hone := h.blocked.one
  refine ⟨hone, fun _ _ hc hc' => hc.unique hone hc', ?_⟩
  rintro before m between m' later rfl htakes htakes'
  obtain ⟨v, hbefore, hv⟩ := h.split
  obtain ⟨hm, hr, hrest⟩ := hv.uncons
  obtain ⟨u, hbetween, hu⟩ := hrest.split
  obtain ⟨hm', hr', -⟩ := hu.uncons
  have hafter : ∀ ms, (around utc s).after (before ++ m :: ms) = (v.move m).after ms := by
    intro ms
    rw [after_append, hbefore.after_eq, after_cons]
  have hkept := hbefore.blocked.move hm hr
  rw [hbefore.after_eq] at htakes
  rw [hafter, hbetween.after_eq] at htakes'
  have hblocked := (hbefore.blocked.fate hm hr).of_takes htakes
  have hu' : u.Blocked key := hbetween.keeps hkept fun _ _ hm hr hv => hv.move hm hr
  have hvacant := (hu'.fate hm' hr').of_takes htakes'
  obtain ⟨first, n, last, x, hsplit, hfirst, hn, hrn, hx, hxn⟩ :=
    hbetween.crosses (P := fun v => ¬ v.Vacant key) hblocked.2 (not_not_intro hvacant.1)
  refine ⟨first, n, last, hsplit, ?_⟩
  rw [hafter, hfirst.after_eq]
  have hx' : x.Blocked key := hfirst.keeps hkept fun _ _ hm hr hv => hv.move hm hr
  exact (hx'.fate hn hrn).vacates hx (Classical.not_not.mp hxn)

/-- A runner that has no slot for a job that is not critical. -/
def noneAtATime : Runner.Config := { Runner.Config.usual with maxRunning := 0 }

/-- A key for which two runners are handed a job each. -/
def shared : JobKey := ⟨"x", by decide⟩

/-- Two runners, and a job that is handed in to the first one, up to its claim. -/
def firstClaim : List Move :=
  [.runner "a" noneAtATime, .runner "b" Runner.Config.usual,
    .launch (.enqueue (.start "a" (.new shared 0))), .step 0, .step 0]

/-- The first runner refuses its job, which is marked as failed; then a job for the same key is
handed in to the second one, up to its claim. -/
def refusal : List Move :=
  [.step 1, .step 1, .step 1, .step 1, .launch (.enqueue (.start "b" (.new shared 0))), .step 2,
    .step 2]

/-- Both claims are granted. Between them the key has been vacated, and afterwards only the second
job is live. -/
theorem one_live_job_refusal :
    ((around 0 .empty).after
        (firstClaim ++ .step 0 :: (refusal ++ .step 2 :: []))).live shared = 1 ∧
      ∃ first n last, refusal = first ++ n :: last ∧
        ((around 0 .empty).after (firstClaim ++ .step 0 :: first)).Vacates shared n := by
  have h : History (StatusKept shared) (around 0 .empty)
      (firstClaim ++ .step 0 :: (refusal ++ .step 2 :: [])) _ := .of_check (by decide +kernel)
  refine ⟨by decide +kernel, ?_⟩
  exact (one_live_job h).2.2 firstClaim (.step 0) refusal (.step 2) [] rfl (by decide +kernel)
    (by decide +kernel)

end JobFleet.World
