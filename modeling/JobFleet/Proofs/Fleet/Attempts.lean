import JobFleet.Proofs.Fleet.Balance
import JobFleet.Proofs.Fleet.Fate
import JobFleet.Proofs.Fleet.Guards
import JobFleet.Proofs.Fleet.Served

/-!
# Attempts in a window

The counter of a key tells how many rejected attempts have been recorded since the window opened.
A guard looks at it before its attempt and records after it, so that guards which overlap may all
be let through by the same number. Between its check and its record a guard is in flight. As many
attempts as the limit allows may be rejected, and one more for each guard in flight beside the
one that is let through last; from then on every check refuses.
-/

namespace JobFleet

open Number (Range showInteger)

namespace Guard

/-- One for a guard that is in flight under a key. -/
def Phase.inFlight (key : RateLimitKey) (p : Phase) : Nat := if p.key? = some key then 1 else 0

/-- One for a guard in flight under a key whose attempt has been started. -/
def Phase.started (key : RateLimitKey) : Phase → Nat
  | .attempting k => if k = key then 1 else 0
  | .settling k => if k = key then 1 else 0
  | .checking | .admitted _ => 0

/-- How a turn of a guard changes what the guard counts for, if an attempt under the key that is
over was rejected: it is let through at most once, by a look that did not limit it. -/
theorem Turn.weighs {g : Guard} {w v : World} {key : RateLimitKey}
    {next : Progress Guard Result} (h : g.Turn w next v)
    (hfails : g.phase = .settling key → g.outcome.toOption.isNone) :
    ∃ passes,
      (next.state?.elim 0 fun g' => g'.phase.inFlight key) +
          (if g.phase = .settling key ∧ g.outcome.toOption.isNone then 1 else 0) =
        g.phase.inFlight key + passes ∧
      (next.state?.elim 0 fun g' => g'.phase.started key) +
          (if g.phase = .settling key ∧ g.outcome.toOption.isNone then 1 else 0) =
        g.phase.started key + (if g.phase = .admitted key then 1 else 0) ∧
      (passes = 0 ∨ passes = 1 ∧ g.phase = .checking ∧ g.key = .ok key ∧
        (g.limiterIn w).limits (w.perform (Limiter.attempts key)).1 = false) := by
  cases h with
  | nameless hp _ => exact ⟨0, by rw [hp]; rfl, by rw [hp]; rfl, .inl rfl⟩
  | refuses hp _ _ _ _ => exact ⟨0, by rw [hp]; rfl, by rw [hp]; rfl, .inl rfl⟩
  | @passes k a u v hp hk ha hl hv =>
      refine ⟨if k = key then 1 else 0, ?_, by rw [hp]; rfl, ?_⟩
      · simp [hp, Phase.inFlight, Phase.key?, Progress.state?]
      · by_cases hsame : k = key
        · subst hsame
          exact .inr ⟨if_pos rfl, hp, hk, by rw [ha]; exact hl⟩
        · exact .inl (if_neg hsame)
  | begins hp =>
      refine ⟨0, ?_, ?_, .inl rfl⟩
      · simp [hp, Phase.inFlight, Phase.key?, Progress.state?]
      · simp [hp, Phase.started, Progress.state?]
  | finishes hp =>
      refine ⟨0, ?_, ?_, .inl rfl⟩
      · simp [hp, Phase.inFlight, Phase.key?, Progress.state?]
      · simp [hp, Phase.started, Progress.state?]
  | @forgets k value a u v hp ho ha hv =>
      have hne : k ≠ key := by
        rintro rfl
        have hrejected := hfails hp
        rw [ho] at hrejected
        cases hrejected
      refine ⟨0, ?_, ?_, .inl rfl⟩
      · simp [hp, hne, Phase.inFlight, Phase.key?, Progress.state?]
      · simp [hp, hne, Phase.started, Progress.state?]
  | records hp ho _ _ =>
      refine ⟨0, ?_, ?_, .inl rfl⟩
      · simp [hp, ho, Except.toOption, Phase.inFlight, Phase.key?, Progress.state?]
      · simp [hp, ho, Except.toOption, Phase.started, Progress.state?]

end Guard

/-- The guard that a task is. -/
def Task.guard? : Task → Option Guard
  | .operation (.guard g) => some g
  | _ => none

namespace World

/-- The guard whose step a move is. -/
def guardOf (w : World) : Move → Option Guard
  | .step id => (w.tasks.find? id).bind Task.guard?
  | _ => none

/-- How many guards are in flight under a key. -/
def inFlight (w : World) (key : RateLimitKey) : Nat :=
  w.sum (Guard.weight (Guard.Phase.inFlight key) rfl)

/-- How many of the guards in flight under a key have started their attempts. -/
def attempting (w : World) (key : RateLimitKey) : Nat :=
  w.sum (Guard.weight (Guard.Phase.started key) rfl)

/-- One for a move that starts an attempt under a key. -/
def starts (key : RateLimitKey) (w : World) (m : Move) : Nat :=
  match w.guardOf m with
  | some g => if g.phase = .admitted key then 1 else 0
  | none => 0

/-- One for a move that records a rejected attempt under a key. -/
def rejects (key : RateLimitKey) (w : World) (m : Move) : Nat :=
  match w.guardOf m with
  | some g => if g.phase = .settling key ∧ g.outcome.toOption.isNone then 1 else 0
  | none => 0

/-- A move within a window of a key: nobody but guards writes the key's counter, the store stays
in reach, the counter does not lapse, no attempt succeeds, and who checks does so under a limit. -/
def InWindow (key : RateLimitKey) (limit : Nat) (w : World) (m : Move) : Prop :=
  ¬ w.Intrudes key.counterKey m ∧ ¬ w.Cuts m ∧ ¬ w.Lapses key.counterKey m ∧
    ∀ g ∈ w.guardOf m, (g.phase = .settling key → g.outcome.toOption.isNone) ∧
      (g.phase = .checking → g.key.toOption = some key → (g.limiterIn w).maxAttempts ≤ limit)

instance (key : RateLimitKey) (limit : Nat) (w : World) (m : Move) :
    Decidable (InWindow key limit w m) :=
  inferInstanceAs (Decidable (¬ w.Intrudes key.counterKey m ∧ ¬ w.Cuts m ∧
    ¬ w.Lapses key.counterKey m ∧
    ∀ g ∈ w.guardOf m, (g.phase = .settling key → g.outcome.toOption.isNone) ∧
      (g.phase = .checking → g.key.toOption = some key → (g.limiterIn w).maxAttempts ≤ limit)))

/-- The counter of a key says that a number of failures have been recorded; it stops at the
highest number of 64 bits. -/
def Recorded (key : RateLimitKey) (w : World) (n : Nat) : Prop :=
  n = 0 ∧ w.entry key.counterKey = none ∨
    1 ≤ n ∧ ∃ t, w.entry key.counterKey = some ⟨showInteger (min (n : Int) Range.int64.high), t⟩

variable {key : RateLimitKey} {limit : Nat} {w u v : World}

/-- The count of failures is read off the entry of its counter. -/
theorem Recorded.of_entry {n : Nat} (h : w.Recorded key n)
    (he : u.entry key.counterKey = w.entry key.counterKey) : u.Recorded key n := by
  unfold Recorded
  rw [he]
  exact h

/-- A look at the counter that is served answers the number. -/
theorem Recorded.look {n : Nat} (h : w.Recorded key n) (hs : w.Serves key.counterKey) :
    (w.perform (Limiter.attempts key)).1 = .ok (min (n : Int) Range.int64.high) := by
  have heffect : (Limiter.attempts key).effect w.now (w.entry key.counterKey) =
      .ok (min (n : Int) Range.int64.high, w.entry key.counterKey) := by
    rcases h with ⟨rfl, he⟩ | ⟨-, t, he⟩
    · rw [he]
      rfl
    · rw [he]
      exact look_failures key n w.now t
  exact (hs.answers (Limiter.attempts key) rfl heffect).1

/-- A record that is served adds one to the number. -/
theorem Recorded.record {n : Nat} (h : w.Recorded key n) (hs : w.Serves key.counterKey)
    (l : Limiter) : (w.perform (l.recordFailure key)).2.Recorded key (n + 1) := by
  refine .inr ⟨Nat.succ_pos n, ?_⟩
  rcases h with ⟨rfl, he⟩ | ⟨-, t, he⟩
  · have heffect : (l.recordFailure key).effect w.now (w.entry key.counterKey) =
        .ok (1, some ⟨showInteger 1, expiryOf w.now (some l.window)⟩) := by
      rw [he]
      rfl
    exact ⟨_, (hs.answers (l.recordFailure key) rfl heffect).2⟩
  · have heffect : (l.recordFailure key).effect w.now (w.entry key.counterKey) =
        .ok (min ((n + 1 : Nat) : Int) Range.int64.high,
          some ⟨showInteger (min ((n + 1 : Nat) : Int) Range.int64.high), t⟩) := by
      rw [he]
      exact add_failure key.counterKey n t (expiryOf w.now (some l.window))
    exact ⟨_, (hs.answers (l.recordFailure key) rfl heffect).2⟩

/-- A limiter that looks at the counter refuses exactly if the number has reached its limit. -/
theorem Recorded.limits {n : Nat} (h : w.Recorded key n) (hs : w.Serves key.counterKey)
    {l : Limiter} (hword : l.maxAttempts < 0x100000000) :
    l.limits (w.perform (Limiter.attempts key)).1 = true ↔ l.maxAttempts ≤ n := by
  rw [h.look hs, l.limits_min n hword]
  exact decide_eq_true_iff

/-! ## One move -/

/-- A move in which no guard records under a key leaves the key's counter alone. -/
theorem entry_still (hs : w.Spared key.counterKey) {m : Move} (hm : w.Admits m)
    (hi : ¬ w.Intrudes key.counterKey m) (hl : ¬ w.Lapses key.counterKey m)
    (hno : ∀ g ∈ w.guardOf m, g.phase ≠ .settling key) :
    (w.move m).entry key.counterKey = w.entry key.counterKey := by
  refine entry_kept hs hm hi hl ?_
  rintro id t rfl ht hw
  generalize hk : key.counterKey = k at hw hi
  cases hw with
  | claim _ _ => exact counterKey_ne_statusKey _ _ hk
  | counter _ => exact counterKey_ne_jobCounterKey _ hk
  | status _ _ => exact counterKey_ne_statusKey _ _ hk
  | scribble hscribbles =>
      refine hi ?_
      rw [Intrudes, ht]
      exact hscribbles
  | @attempts g k' hg hp =>
      subst hg
      cases counterKey_inj hk
      exact hno g (by rw [guardOf, ht]; rfl) hp
  | lock _ => exact counterKey_ne_lockKey _ _ hk

/-- The books of a move within a window: how many guards it lets through, at most one and only
below the limit, and how guards in flight, attempts under way and failures recorded go on. -/
structure Passage (key : RateLimitKey) (limit : Nat) (w : World) (m : Move) (passes : Nat) :
    Prop where
  flight : (w.move m).inFlight key + rejects key w m = w.inFlight key + passes
  going : (w.move m).attempting key + rejects key w m = w.attempting key + starts key w m
  recorded : ∀ n, w.Recorded key n → (w.move m).Recorded key (n + rejects key w m)
  below : passes = 0 ∨
    passes = 1 ∧ rejects key w m = 0 ∧ ∀ n, w.Recorded key n → n < limit

/-- A move that is no guard's step lets nobody through. -/
theorem Sound.passage_still (h : w.Sound) (hs : w.Spared key.counterKey) {m : Move}
    (hm : w.Admits m) (hr : InWindow key limit w m) (hg : w.guardOf m = none) :
    Passage key limit w m 0 := by
  have hno : ∀ id g, m = .step id → w.tasks.find? id ≠ some (.operation (.guard g)) := by
    rintro id g rfl ht
    rw [guardOf, ht] at hg
    cases hg
  have hstarts : starts key w m = 0 := by simp only [starts, hg]
  have hrejects : rejects key w m = 0 := by simp only [rejects, hg]
  have hflight : (w.move m).inFlight key = w.inFlight key := h.still_sum _ rfl hm hno
  have hgoing : (w.move m).attempting key = w.attempting key := h.still_sum _ rfl hm hno
  refine ⟨by omega, by omega, ?_, .inl rfl⟩
  intro n hn
  rw [hrejects]
  exact hn.of_entry (entry_still hs hm hr.1 hr.2.2.1 (by rw [hg]; rintro g ⟨⟩))

/-- The record of a rejected attempt adds one to the counter. -/
theorem Recorded.step {n : Nat} (h : w.Recorded key n) (hs : w.InReach key.counterKey)
    {id : TaskId} {g : Guard} (hg : w.tasks.find? id = some (.operation (.guard g)))
    (hm : w.Admits (.step id)) (hp : g.phase = .settling key)
    (ho : g.outcome.toOption.isNone) : (w.move (.step id)).Recorded key (n + 1) := by
  obtain ⟨t, ht, -, he⟩ := move_step hm
  cases hg.symm.trans ht
  have hturn := g.step_turn w
  rw [he, Task.act_guard]
  refine Recorded.of_entry (w := (g.step w).2) ?_ (put_entry ..)
  generalize g.step w = p at hturn
  obtain ⟨next, v⟩ := p
  cases hturn with
  | nameless hp' _ => cases hp.symm.trans hp'
  | refuses hp' _ _ _ _ => cases hp.symm.trans hp'
  | passes hp' _ _ _ _ => cases hp.symm.trans hp'
  | begins hp' => cases hp.symm.trans hp'
  | finishes hp' => cases hp.symm.trans hp'
  | forgets _ ho' _ _ =>
      rw [ho'] at ho
      cases ho
  | @records k fault a u v hp' _ ha hv =>
      cases hp.symm.trans hp'
      have hu : (w.perform ((g.limiterIn w).recordFailure key)).2 = u := by rw [ha]
      have hspared := hs.spared.inherits (w.perform_network ((g.limiterIn w).recordFailure key))
      rw [hu] at hspared
      have hrecorded := h.record hs.serves (g.limiterIn w)
      rw [hu] at hrecorded
      exact hrecorded.of_entry (hv.entry (fun d hd => hd.spares _) hspared)

/-- The check of a guard refuses exactly if the number has reached the limit. -/
theorem Recorded.check {n : Nat} (h : w.Recorded key n) (hs : w.Serves key.counterKey)
    {id : TaskId} {g : Guard} (hg : w.tasks.find? id = some (.operation (.guard g)))
    (hp : g.phase = .checking) (hk : g.key = .ok key)
    (hword : (g.limiterIn w).maxAttempts < 0x100000000) :
    w.Admits (.step id) ∧ (w.move (.step id)).tasks.find? id =
      some (if (g.limiterIn w).maxAttempts ≤ n
        then .ended (.guarded ⟨.error (.refused .limited), false⟩)
        else .operation (.guard { g with phase := .admitted key })) := by
  have hm : w.Admits (.step id) := by
    have henabled : w.enabled id = (Task.operation (.guard g)).ready w id := by rw [enabled, hg]
    exact henabled
  refine ⟨hm, ?_⟩
  obtain ⟨t, ht, -, he⟩ := move_step hm
  cases hg.symm.trans ht
  have hlimits := h.limits hs hword
  have hturn := g.step_turn w
  rw [he, put_find?, if_pos rfl, Task.act_guard]
  generalize g.step w = p at hturn
  obtain ⟨next, v⟩ := p
  cases hturn with
  | nameless _ hk' => cases hk.symm.trans hk'
  | @refuses k a u v _ hk' ha hl _ =>
      cases hk.symm.trans hk'
      rw [ha] at hlimits
      rw [if_pos (hlimits.mp hl)]
      rfl
  | @passes k a u v _ hk' ha hl _ =>
      cases hk.symm.trans hk'
      rw [ha] at hlimits
      rw [if_neg fun hle => by rw [hlimits.mpr hle] at hl; cases hl]
      rfl
  | begins hp' => cases hp.symm.trans hp'
  | finishes hp' => cases hp.symm.trans hp'
  | forgets hp' _ _ _ => cases hp.symm.trans hp'
  | records hp' _ _ _ => cases hp.symm.trans hp'

/-- What the step of a guard does within a window. -/
theorem Sound.passage_guard (h : w.Sound) (hs : w.InReach key.counterKey)
    (hword : limit < 0x100000000) {id : TaskId} {g : Guard} (hm : w.Admits (.step id))
    (hr : InWindow key limit w (.step id))
    (hg : w.tasks.find? id = some (.operation (.guard g))) :
    ∃ passes, Passage key limit w (.step id) passes := by
  have hof : w.guardOf (.step id) = some g := by
    rw [guardOf, hg]
    rfl
  have hstarts : starts key w (.step id) = if g.phase = .admitted key then 1 else 0 := by
    simp only [starts, hof]
  have hrejects : rejects key w (.step id) =
      if g.phase = .settling key ∧ g.outcome.toOption.isNone then 1 else 0 := by
    simp only [rejects, hof]
  obtain ⟨hfails, hlimit⟩ := hr.2.2.2 g hof
  obtain ⟨passes, hflight', hgoing', hpasses⟩ := (g.step_turn w).weighs hfails
  have hflight : (w.move (.step id)).inFlight key + g.phase.inFlight key =
      w.inFlight key + ((g.step w).1.state?.elim 0 fun g' => g'.phase.inFlight key) :=
    h.guard_sum (Guard.Phase.inFlight key) rfl hm hg
  have hgoing : (w.move (.step id)).attempting key + g.phase.started key =
      w.attempting key + ((g.step w).1.state?.elim 0 fun g' => g'.phase.started key) :=
    h.guard_sum (Guard.Phase.started key) rfl hm hg
  rw [← hrejects] at hflight' hgoing'
  rw [← hstarts] at hgoing'
  refine ⟨passes, by omega, by omega, ?_, ?_⟩
  · intro n hn
    by_cases hp : g.phase = .settling key
    · rw [hrejects, if_pos ⟨hp, hfails hp⟩]
      exact hn.step hs hg hm hp (hfails hp)
    · rw [hrejects, if_neg fun hboth => hp hboth.1]
      refine hn.of_entry (entry_still hs.spared hm hr.1 hr.2.2.1 ?_)
      intro g' hg'
      cases hof.symm.trans hg'
      exact hp
  · rcases hpasses with hnone | ⟨hone, hp, hk, hl⟩
    · exact .inl hnone
    · refine .inr ⟨hone, ?_, ?_⟩
      · rw [hrejects, hp, if_neg]
        rintro ⟨⟨⟩, -⟩
      · intro n hn
        have hmax := hlimit hp (by rw [hk]; rfl)
        have hfewer : ¬ (g.limiterIn w).maxAttempts ≤ n := by
          rw [← hn.limits hs.serves (Nat.lt_of_le_of_lt hmax hword), hl]
          exact Bool.false_ne_true
        omega

/-- Every move within a window has its books. -/
theorem Sound.passage (h : w.Sound) (hs : w.InReach key.counterKey) (hword : limit < 0x100000000)
    {m : Move} (hm : w.Admits m) (hr : InWindow key limit w m) :
    ∃ passes, Passage key limit w m passes := by
  cases hg : w.guardOf m with
  | none => exact ⟨0, h.passage_still hs.spared hm hr hg⟩
  | some g =>
      cases m with
      | step id =>
          obtain ⟨t, ht, hguard⟩ := Option.bind_eq_some_iff.mp hg
          refine h.passage_guard (g := g) hs hword hm hr ?_
          rw [ht]
          cases t with
          | operation o =>
              cases o with
              | guard g' =>
                  cases hguard
                  rfl
              | _ => cases hguard
          | _ => cases hguard
      | _ => cases hg

/-! ## Whole windows -/

/-- Attempts under way are of guards in flight. -/
theorem attempting_le_inFlight (key : RateLimitKey) (w : World) :
    w.attempting key ≤ w.inFlight key := by
  have hphase : ∀ p : Guard.Phase, p.started key ≤ p.inFlight key := by
    intro p
    cases p <;> simp [Guard.Phase.started, Guard.Phase.inFlight, Guard.Phase.key?]
  refine w.tasks.total_le ?_
  intro t
  cases t with
  | operation o =>
      cases o with
      | guard g => exact hphase g.phase
      | _ => exact Nat.le_refl 0
  | _ => exact Nat.le_refl 0

/-- What the moves of a window add up to. -/
structure Window (key : RateLimitKey) (limit : Nat) (start : World) (ms : List Move) : Prop where
  sound : (start.after ms).Sound
  inReach : (start.after ms).InReach key.counterKey
  recorded : (start.after ms).Recorded key (tally (rejects key) start ms)
  started : tally (starts key) start ms ≤
    tally (rejects key) start ms + (start.after ms).attempting key
  room : ∀ c, (∀ first, first <+: ms → (start.after first).inFlight key ≤ c) →
    tally (rejects key) start ms + (start.after ms).inFlight key + 1 ≤ limit + c

/-- A window of a key's counter that is opened by nobody yet. -/
theorem window_nil (hs : v.Sound) (hreach : v.InReach key.counterKey)
    (hopen : v.entry key.counterKey = none) (hpos : 1 ≤ limit) : Window key limit v [] where
  sound := hs
  inReach := hreach
  recorded := .inl ⟨rfl, hopen⟩
  started := Nat.zero_le _
  room := by
    intro c hc
    have h := hc [] (List.prefix_refl _)
    simp only [tally, after_nil] at h ⊢
    omega

/-- A window goes on by a move that keeps it. -/
theorem Window.snoc {ms : List Move} (h : Window key limit v ms) (hword : limit < 0x100000000)
    {m : Move} (hm : (v.after ms).Admits m) (hr : InWindow key limit (v.after ms) m) :
    Window key limit v (ms ++ [m]) := by
  obtain ⟨passes, hp⟩ := h.sound.passage h.inReach hword hm hr
  have hgoing := hp.going
  have hflight := hp.flight
  have hstarted := h.started
  constructor
  case sound =>
    rw [after_snoc]
    exact h.sound.move hm
  case inReach =>
    rw [after_snoc]
    exact h.inReach.move hm hr.1 hr.2.1
  case recorded =>
    rw [after_snoc, tally_snoc]
    exact hp.recorded _ h.recorded
  case started =>
    rw [after_snoc, tally_snoc, tally_snoc]
    omega
  case room =>
    intro c hc
    have hlast := hc (ms ++ [m]) (List.prefix_refl _)
    rw [after_snoc] at hlast
    rw [after_snoc, tally_snoc]
    rcases hp.below with hzero | ⟨hone, hnone, hfewer⟩
    · have hroom := h.room c fun first hf => hc first (hf.trans (List.prefix_append _ _))
      omega
    · have hroom := hfewer _ h.recorded
      omega

/-- A history within one window keeps what the window says. -/
theorem History.window {ms : List Move} (hs : v.Sound) (hreach : v.InReach key.counterKey)
    (hopen : v.entry key.counterKey = none) (hpos : 1 ≤ limit) (hword : limit < 0x100000000)
    (h : History (InWindow key limit) v ms w) : Window key limit v ms := by
  induction h with
  | nil => exact window_nil hs hreach hopen hpos
  | snoc h possible obeys ih =>
      rw [← h.after_eq] at possible obeys
      exact ih.snoc hword possible obeys

/-- In a window no more attempts are started or rejected than the limit allows, and one more for
each guard in flight beside another; and a check is refused exactly if as many rejected attempts
have been recorded as its limiter allows, and then its attempt is never started. -/
theorem attempts_bounded {rule : World → Move → Prop} {utc : Int} {s : Store}
    {before ms : List Move} (hbefore : History rule (around utc s) before v)
    (hreach : v.InReach key.counterKey) (hopen : v.entry key.counterKey = none)
    (hpos : 1 ≤ limit) (hword : limit < 0x100000000) (h : History (InWindow key limit) v ms w) :
    (∀ c, (∀ first, first <+: ms → (v.after first).inFlight key ≤ c) →
      tally (starts key) v ms + 1 ≤ limit + c ∧ tally (rejects key) v ms + 1 ≤ limit + c) ∧
    ∀ id g, w.tasks.find? id = some (.operation (.guard g)) → g.phase = .checking →
      g.key = .ok key → (g.limiterIn w).maxAttempts < 0x100000000 →
        w.Admits (.step id) ∧ (w.move (.step id)).tasks.find? id =
          some (if (g.limiterIn w).maxAttempts ≤ tally (rejects key) v ms
            then .ended (.guarded ⟨.error (.refused .limited), false⟩)
            else .operation (.guard { g with phase := .admitted key })) := by
  have hsound : v.Sound :=
    hbefore.keeps (P := Sound) (.of_none fun _ => rfl) fun _ _ hm _ hv => hv.move hm
  have hwindow := h.window hsound hreach hopen hpos hword
  constructor
  · intro c hc
    have hstarted := hwindow.started
    have hle := attempting_le_inFlight key (v.after ms)
    have hroom := hwindow.room c hc
    omega
  · intro id g hg hp hk hl
    have hrecorded := hwindow.recorded
    have hserves := hwindow.inReach.serves
    rw [h.after_eq] at hrecorded hserves
    exact hrecorded.check hserves hg hp hk hl

/-- A refresh that is rejected. -/
def badRefresh : Guard := ⟨"l", .refresh, "u", none, .error "expired", .checking⟩

/-- What it is counted under. -/
def badRefreshKey : RateLimitKey :=
  ⟨("refresh:unknown-ip-0bfe935e:" ++
    "0bfe935e70c321c7ca3afc75ce0d0ca2f98b5422e008bb31c00c6d7f1f1c0ad6").toList⟩

/-- A limiter that allows one failure. -/
def oneFailure : List Move := [.limiter "l" ⟨1, .ofSecs 60, .failClosed⟩]

theorem inReach_oneFailure :
    ((around 0 .empty).after oneFailure).InReach badRefreshKey.counterKey :=
  (inReach_around rfl 0 _).move (m := .limiter "l" ⟨1, .ofSecs 60, .failClosed⟩) trivial id id

/-- Two refreshes check before either is rejected. -/
def overlap : List Move :=
  [.launch (.guard badRefresh), .launch (.guard badRefresh), .step 0, .step 1, .step 0, .step 1,
    .step 0, .step 1, .step 0, .step 1]

/-- A third one is asked for then. -/
def afterwards : List Move := overlap ++ [.launch (.guard badRefresh)]

/-- Under a limit of one the two refreshes are both started and rejected. -/
theorem attempts_over_limit :
    History (InWindow badRefreshKey 1) ((around 0 .empty).after oneFailure) overlap
        (((around 0 .empty).after oneFailure).after overlap) ∧
      ((around 0 .empty).after oneFailure).InReach badRefreshKey.counterKey ∧
      ((around 0 .empty).after oneFailure).entry badRefreshKey.counterKey = none ∧
      tally (starts badRefreshKey) ((around 0 .empty).after oneFailure) overlap = 2 ∧
      tally (rejects badRefreshKey) ((around 0 .empty).after oneFailure) overlap = 2 :=
  ⟨.of_check (by decide +kernel), inReach_oneFailure, by decide +kernel, by decide +kernel,
    by decide +kernel⟩

/-- That is one more than the limit, since two were in flight at once; the third is refused. -/
theorem attempts_bounded_afterwards :
    tally (starts badRefreshKey) ((around 0 .empty).after oneFailure) afterwards + 1 ≤ 1 + 2 ∧
      ((((around 0 .empty).after oneFailure).after afterwards).move (.step 2)).tasks.find? 2 =
        some (.ended (.guarded ⟨.error (.refused .limited), false⟩)) := by
  have hbefore : History (fun _ _ => True) (around 0 .empty) oneFailure
      ((around 0 .empty).after oneFailure) := .of_check (by decide +kernel)
  have hwindow : History (InWindow badRefreshKey 1) ((around 0 .empty).after oneFailure) afterwards
      (((around 0 .empty).after oneFailure).after afterwards) := .of_check (by decide +kernel)
  obtain ⟨hbound, hcheck⟩ := attempts_bounded hbefore inReach_oneFailure
    (by decide +kernel) (by decide) (by decide) hwindow
  constructor
  · refine (hbound 2 fun first hf => ?_).1
    have hflight : ∀ n ∈ List.range 12, (((around 0 .empty).after oneFailure).after
        (afterwards.take n)).inFlight badRefreshKey ≤ 2 := by decide +kernel
    rw [List.prefix_iff_eq_take.mp hf]
    exact hflight first.length (List.mem_range.mpr (Nat.lt_succ_of_le hf.length_le))
  · have hthird : (((around 0 .empty).after oneFailure).after afterwards).tasks.find? 2 =
        some (.operation (.guard badRefresh)) := by
      have hnext : (((around 0 .empty).after oneFailure).after overlap).nextTask = 2 := by
        decide +kernel
      rw [afterwards, after_snoc, ← hnext]
      exact Table.find?_insert_self ..
    have hkey : badRefresh.key = .ok badRefreshKey := by
      have hsome : badRefresh.key.toOption = some badRefreshKey := by decide +kernel
      generalize badRefresh.key = derived at hsome
      cases derived with
      | ok k => exact congrArg _ (Option.some.inj hsome)
      | error cause => cases hsome
    refine (hcheck 2 badRefresh hthird rfl hkey (by decide +kernel)).2.trans ?_
    rw [if_pos (by decide +kernel)]

end World

end JobFleet
