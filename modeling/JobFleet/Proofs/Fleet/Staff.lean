import JobFleet.Proofs.Fleet.RunnerMoves

/-!
# The one worker of a runner

A worker sits in its runner's slot from its first step to its last, so a runner has one worker at
most, and none while its slot is empty. A slot is emptied by the worker that sits there, or by the
stop that has waited for that worker to end. `World.Staffed` is the invariant; it holds after every
history.
-/

namespace JobFleet

namespace World

variable {w v : World} {name : String} {r r' : Runner} {m : Move}

/-! ## Slots -/

/-- How a runner's slot may change: it keeps its worker, takes in a new one where it was empty, or
becomes empty. -/
inductive Reseats (name : String) (w v : World) (r r' : Runner) : Prop
  | keeps {s s' : Runner.Slot} (was : r.slot = some s) (is : r'.slot = some s')
      (task : s'.task = s.task) (generation : s'.generation = s.generation)
      (generations : r'.generations = r.generations)
  | hires (was : r.slot = none) (is : r'.slot = some ⟨r.generations + 1, w.nextTask, false⟩)
      (generations : r'.generations = r.generations + 1)
      (crew : v.crew name w.nextTask = some ⟨name, r.generations + 1, false, .starting⟩)
  | empties (is : r'.slot = none) (generations : r'.generations = r.generations)

/-- A runner with the same slot and generations is seated alike. -/
theorem Reseats.of_eq (hs : r'.slot = r.slot) (hg : r'.generations = r.generations) :
    Reseats name w v r r' := by
  cases hr : r.slot with
  | none => exact .empties (hs.trans hr) hg
  | some s => exact .keeps hr (hs.trans hr) rfl rfl hg

/-- A worker may vacate the slot of its generation. -/
theorem Reseats.of_vacates (g : Nat) : Reseats name w v r (r.vacates g) := by
  cases hs : (r.vacates g).slot with
  | none => exact .empties hs (r.vacates_generations g)
  | some s =>
      obtain ⟨hr, -⟩ := Runner.vacates_slot.mp hs
      exact .keeps hr hs rfl rfl (r.vacates_generations g)

/-- A hand-in starts a worker where the slot was empty. -/
theorem Reseats.of_handIn {self : TaskId} {e : Enqueue}
    {next : Progress Enqueue EnqueueOutcome} {hired : Option Worker}
    (h : e.RunnerStep self w.nextTask r next r' hired) (hl : w.Leaves e.runner v r' hired) :
    Reseats e.runner w v r r' := by
  cases h with
  | hires hp hs =>
      refine .hires hs rfl rfl ?_
      rw [hl.crew, if_pos rfl]
  | _ => exact .of_eq rfl rfl

/-- A move keeps the worker in a runner's slot, puts a new one into an empty slot, or empties it. -/
theorem RunnerMove.reseats (h : w.RunnerMove name r m) (hr : w.runners.find? name = some r)
    (hr' : (w.move m).runners.find? name = some r') : Reseats name w (w.move m) r r' := by
  cases h with
  | passes apart shuns =>
      rw [apart.runner, hr] at hr'
      cases hr'
      exact .of_eq rfl rfl
  | handsIn hm ht hin hn step made left leaves =>
      subst hn
      cases leaves.runner.symm.trans hr'
      exact .of_handIn made leaves
  | givesUp hm ht hin hands hn left leaves =>
      cases leaves.runner.symm.trans hr'
      split
      · exact .of_eq rfl rfl
      · exact .of_eq rfl rfl
  | works hm hk tells made runner crew =>
      cases runner.symm.trans hr'
      cases made with
      | idles hp hc hq => exact .of_vacates _
      | _ => exact .of_eq rfl rfl
  | stops hm ht hp made left runner crew =>
      cases runner.symm.trans hr'
      cases made with
      | halts hs ha => exact .keeps hs rfl rfl rfl rfl
      | clears => exact .of_vacates _
      | _ => exact .of_eq rfl rfl

/-- No worker of a generation but one comes to sit in a runner's slot, if the generation is no later
than the runner's. -/
theorem Reseats.latest (h : Reseats name w v r r') {g : Nat} {task : TaskId}
    (hle : g ≤ r.generations) (hsame : ∀ s, r.slot = some s → s.generation = g → s.task = task) :
    g ≤ r'.generations ∧ ∀ s, r'.slot = some s → s.generation = g → s.task = task := by
  cases h with
  | keeps was is htask hgen hgens =>
      refine ⟨hgens ▸ hle, ?_⟩
      intro s' hs' hg
      cases is.symm.trans hs'
      rw [htask]
      exact hsame _ was (hgen.symm.trans hg)
  | hires was is hgens crew =>
      refine ⟨by omega, ?_⟩
      intro s' hs' hg
      cases is.symm.trans hs'
      have hgen : r.generations + 1 = g := hg
      omega
  | empties is hgens =>
      refine ⟨hgens ▸ hle, ?_⟩
      intro s' hs'
      rw [is] at hs'
      cases hs'

/-- A runner that is not there has no crew, and is new if it is there after a move. -/
theorem Sound.founds (h : w.Sound) (hm : w.Admits m) (hr : w.runners.find? name = none) :
    (∀ i, (w.move m).crew name i = none) ∧
      ∀ r', (w.move m).runners.find? name = some r' → ∃ config worker, r' = .new config worker := by
  have hcrew : ∀ v : World, v.Sound → v.runners.find? name = none → ∀ i, v.crew name i = none := by
    intro v hv hn i
    cases hc : v.crew name i with
    | none => rfl
    | some k =>
        obtain ⟨ht, rfl⟩ := crew_eq_some.mp hc
        obtain ⟨r, hr⟩ := hv.employed i _ _ ht rfl
        rw [hn] at hr
        cases hr
  constructor
  · cases hset : m.setsUp with
    | true =>
        intro i
        rw [crew_of_tasks (move_setUp hset hm).tasks]
        exact hcrew w h hr i
    | false =>
        have hc := move_config hm hset name
        rw [hr] at hc
        exact hcrew _ (h.move hm) (Option.map_eq_none_iff.mp hc)
  · intro r' hr'
    rcases runner_of_move hm hr' with ⟨r, hr₀, -⟩ | ⟨config, worker, he, -⟩
    · rw [hr] at hr₀
      cases hr₀
    · exact ⟨config, worker, he⟩

/-! ## Who sits in a slot -/

/-- A step leaves a task that works for whom it worked for. -/
theorem act_employer? {t t' : Task} {id : TaskId} (h : (t.act id w).1 = some t') :
    t'.employer? = t.employer? := by
  cases t with
  | worker k =>
      obtain ⟨k', hk, rfl⟩ := Progress.kept_none h
      obtain ⟨p, rfl⟩ := Worker.step_inPhase hk
      rfl
  | _ =>
      refine (Task.idle_of_sort ?_).2
      rw [Task.act_sort h]
      nofun

/-- A task that is still there works for whom it worked for. -/
theorem Sound.employer_was (h : w.Sound) (hm : w.Admits m) {i : TaskId} {t' : Task}
    (hi : i < w.nextTask) (ht : (w.move m).tasks.find? i = some t') :
    ∃ t, w.tasks.find? i = some t ∧ t'.employer? = t.employer? := by
  rcases h.move_was hm ht with ⟨t, hw, hcore⟩ | ⟨hle, -⟩ | ⟨t, -, hw, hleft⟩
  · refine ⟨t, hw, ?_⟩
    rw [← t'.core_employer?, hcore, t.core_employer?]
  · exact absurd hi (Nat.not_lt_of_le hle)
  · exact ⟨t, hw, act_employer? hleft⟩

/-- Every move leaves the workers housed. -/
theorem Regular.housed_move (h : w.Regular) (hm : w.Admits m) : (w.move m).Housed := by
  intro name r' s' t' hr' hs' ht'
  cases hr : w.runners.find? name with
  | none =>
      obtain ⟨config, worker, rfl⟩ := (h.sound.founds hm hr).2 r' hr'
      cases hs'
  | some r =>
      cases (h.runnerMove hr hm).reseats hr hr' with
      | @keeps s _ was is task _ _ =>
          cases is.symm.trans hs'
          have hlt : s'.task < w.nextTask := by
            rw [task]
            exact (h.seated name r s hr was).1
          obtain ⟨t, ht, he⟩ := h.sound.employer_was hm hlt ht'
          rw [he]
          exact h.housed name r s t hr was (task ▸ ht)
      | hires was is _ crew =>
          cases is.symm.trans hs'
          have ht := (crew_eq_some.mp crew).1
          cases ht'.symm.trans ht
          rfl
      | empties is _ =>
          rw [is] at hs'
          cases hs'

theorem regular_around (utc : Int) (s : Store) : (around utc s).Regular where
  sound := .of_none fun _ => rfl
  seated := by
    intro name r s hr
    cases hr
  tied := tied_around utc s
  housed := by
    intro name r s t hr
    cases hr

/-- Every move keeps a world regular. -/
theorem Regular.move (h : w.Regular) (hm : w.Admits m) : (w.move m).Regular where
  sound := h.sound.move hm
  seated := h.seated.move h.sound hm
  tied := h.tied.move h.sound h.seated hm
  housed := h.housed_move hm

/-- A history from an empty world is regular throughout. -/
theorem History.regular {rule : World → Move → Prop} {utc : Int} {s : Store} {ms : List Move}
    (h : History rule (around utc s) ms w) : w.Regular :=
  h.keeps (regular_around utc s) fun _ _ hm _ hv => hv.move hm

end World

/-! ## Stops -/

namespace Task

variable {w : World} {t t' : Task} {id : TaskId} {n : String} {p : StopPhase}

/-- A stop can go on when its phase can. -/
theorem ready_stop (h : t.stops? = some (n, p)) : t.ready w id = p.ready w := by
  cases t with
  | operation o =>
      cases o with
      | stop name q =>
          cases h
          rfl
      | shutdownApp name q =>
          cases q with
          | stopping q =>
              cases h
              rfl
          | _ => cases h
      | _ => cases h
  | _ => cases h

@[simp] theorem core_stops? (t : Task) : t.core.stops? = t.stops? := by cases t <;> rfl

/-- A task at its beginning stops no runner, or has not begun to. -/
theorem Begins.stops? (h : t.Begins w) (hp : t.stops? = some (n, p)) : p = .entering := by
  cases h with
  | @operation o ho =>
      cases o with
      | stop name q =>
          cases hp
          exact of_decide_eq_true ho
      | shutdownApp name q =>
          cases q with
          | stopping q => cases ho
          | _ => cases hp
      | _ => cases hp
  | _ => cases hp

/-- A task that stops no runner begins to, if it does. -/
theorem act_stop_begins (h : t.stops? = none) (ht : (t.act id w).1 = some t')
    (hp : t'.stops? = some (n, p)) : p = .entering := by
  have hsort := act_sort ht
  cases t with
  | operation o =>
      simp only [act] at ht
      cases hs : (o.step id w).1 with
      | ended r =>
          rw [hs] at ht
          cases ht
          cases hp
      | on o' =>
          rw [hs] at ht
          cases ht
          cases o with
          | stop name q => cases h
          | shutdownApp name q =>
              obtain ⟨q', hq, rfl⟩ := Progress.map_on hs
              cases q with
              | scheduler q =>
                  simp only at hq
                  split at hq <;> cases hq <;> cases hp
              | draining q =>
                  simp only at hq
                  split at hq <;> cases hq <;> cases hp
                  rfl
              | stopping q => cases h
          | drain runner deadline q =>
              simp only [Operation.step, Operation.stepDrain] at hs
              split at hs
              · split at hs
                · cases hs
                · cases hs
                  cases hp
              · cases hs
          | _ =>
              obtain ⟨x, -, rfl⟩ := Progress.map_on hs
              cases hp
  | ended r =>
      cases ht
      cases hp
  | _ => cases t' <;> first | cases hp | cases hsort

end Task

namespace World

variable {w v : World} {name : String} {r r' : Runner} {m : Move}

/-- How a stop that has begun came to be where it is after a move: it was there, or has taken a
step. -/
theorem Sound.stop_was (h : w.Sound) (hm : w.Admits m) {q : TaskId} {t' : Task} {p : StopPhase}
    (ht : (w.move m).tasks.find? q = some t') (hp : t'.stops? = some (name, p))
    (hne : p ≠ .entering) :
    (∃ t, w.tasks.find? q = some t ∧ t.stops? = some (name, p)) ∨
      ∃ t p₀, m = .step q ∧ w.tasks.find? q = some t ∧ t.stops? = some (name, p₀) ∧
        (p₀.step name w).1 = .on p := by
  rcases h.move_was hm ht with ⟨t, hw, hcore⟩ | ⟨-, hnew | ⟨c, rfl⟩⟩ | ⟨t, he, hw, hleft⟩
  · refine .inl ⟨t, hw, ?_⟩
    rw [← t.core_stops?, ← hcore, t'.core_stops?, hp]
  · exact absurd (hnew.stops? hp) hne
  · cases hp
  · cases hs : t.stops? with
    | none => exact absurd (Task.act_stop_begins hs hleft hp) hne
    | some np =>
        obtain ⟨n, p₀⟩ := np
        have hact := (Task.act_stop q w hs).2
        rw [hleft, Option.bind_some, hp] at hact
        cases hstep : (p₀.step n w).1 with
        | ended _ =>
            rw [hstep] at hact
            cases hact
        | on p₁ =>
            rw [hstep] at hact
            cases hact
            exact .inr ⟨t, p₀, he, hw, hs, hstep⟩

/-! ## The invariant -/

/-- How a runner's crew, its slot and its stops hang together. -/
structure Staffed (name : String) (w : World) : Prop where
  /-- A worker sits in the slot. -/
  seat : ∀ i k, w.crew name i = some k → ∃ r s, w.runners.find? name = some r ∧
    r.slot = some s ∧ s.task = i ∧ s.generation = k.generation
  /-- The worker in the slot is of the latest generation. -/
  newest : ∀ r s, w.runners.find? name = some r → r.slot = some s →
    s.generation = r.generations
  /-- A stop waits for the worker of a generation, and no other worker is of that generation. -/
  awaits : ∀ q t task g, w.tasks.find? q = some t → t.stops? = some (name, .awaiting task g) →
    ∃ r, w.runners.find? name = some r ∧ g ≤ r.generations ∧
      ∀ s, r.slot = some s → s.generation = g → s.task = task

theorem staffed_around (name : String) (utc : Int) (s : Store) :
    (around utc s).Staffed name where
  seat := by
    intro i k hk
    cases hk
  newest := by
    intro r s hr
    cases hr
  awaits := by
    intro q t task g ht
    cases ht

/-- A runner whose slot is empty has no crew. -/
theorem Staffed.none_of_empty (h : w.Staffed name) (hr : w.runners.find? name = some r)
    (hs : r.slot = none) (i : TaskId) : w.crew name i = none := by
  cases hc : w.crew name i with
  | none => rfl
  | some k =>
      obtain ⟨r₀, s, hr₀, hs₀, -⟩ := h.seat i k hc
      cases hr.symm.trans hr₀
      rw [hs] at hs₀
      cases hs₀

/-- A runner has one worker at most. -/
theorem Staffed.unique (h : w.Staffed name) {i j : TaskId} {k k' : Worker}
    (hi : w.crew name i = some k) (hj : w.crew name j = some k') : i = j := by
  obtain ⟨r, s, hr, hs, rfl, -⟩ := h.seat i k hi
  obtain ⟨r', s', hr', hs', rfl, -⟩ := h.seat j k' hj
  cases hr.symm.trans hr'
  rw [Option.some.inj (hs.symm.trans hs')]

/-- The worker of the generation that a stop waits for has ended when the stop goes on. -/
theorem Staffed.gone (h : w.Staffed name) (hr : w.runners.find? name = some r)
    {q task : TaskId} {t : Task} {g : Nat} (hm : w.Admits (.step q))
    (ht : w.tasks.find? q = some t) (hp : t.stops? = some (name, .awaiting task g)) {i : TaskId}
    {k : Worker} (hk : w.crew name i = some k) : k.generation ≠ g := by
  intro hg
  obtain ⟨t', ht', hready, -⟩ := move_step hm
  cases ht.symm.trans ht'
  rw [Task.ready_stop hp] at hready
  obtain ⟨r₀, s, hr₀, hs, hi, hgen⟩ := h.seat i k hk
  cases hr.symm.trans hr₀
  obtain ⟨r₁, hr₁, -, hsame⟩ := h.awaits q t task g ht hp
  cases hr.symm.trans hr₁
  have htask : s.task = task := hsame s hs (hgen.trans hg)
  have hthere := (crew_eq_some.mp hk).1
  rw [← hi, htask] at hthere
  simp [StopPhase.ready, running, Table.contains, hthere] at hready

/-- After a move a worker of a runner still sits in its slot. -/
theorem Staffed.seat_move (h : w.Staffed name) (hr : w.runners.find? name = some r)
    (hw : w.RunnerMove name r m) (hm : w.Admits m) {i : TaskId} {k' : Worker}
    (hk' : (w.move m).crew name i = some k') : ∃ r' s, (w.move m).runners.find? name = some r' ∧
      r'.slot = some s ∧ s.task = i ∧ s.generation = k'.generation := by
  have hseat : ∀ {k : Worker}, w.crew name i = some k →
      ∃ s, r.slot = some s ∧ s.task = i ∧ s.generation = k.generation := by
    intro k hk
    obtain ⟨r₀, s, hr₀, hs, hi, hg⟩ := h.seat i k hk
    cases hr.symm.trans hr₀
    exact ⟨s, hs, hi, hg⟩
  cases hw with
  | passes apart shuns =>
      rw [apart.crew] at hk'
      obtain ⟨s, hs, hi, hg⟩ := hseat hk'
      exact ⟨r, s, apart.runner.trans hr, hs, hi, hg⟩
  | handsIn _ ht hin hn step made left leaves =>
      have hc := leaves.crew i
      rw [hk'] at hc
      cases made with
      | hires hp hs =>
          rw [h.none_of_empty hr hs i] at hc
          split at hc
          · rename_i hi
            cases hc
            exact ⟨_, _, leaves.runner, rfl, hi.symm, rfl⟩
          · cases hc
      | _ =>
          split at hc
          · cases hc
          · obtain ⟨s, hs, hi, hg⟩ := hseat hc.symm
            exact ⟨_, s, leaves.runner, hs, hi, hg⟩
  | givesUp _ ht hin hands hn left leaves =>
      have hc := leaves.crew i
      rw [hk'] at hc
      split at hc
      · cases hc
      · obtain ⟨s, hs, hi, hg⟩ := hseat hc.symm
        refine ⟨_, s, leaves.runner, ?_, hi, hg⟩
        split <;> exact hs
  | @works id k _ _ r' _ hk tells made runner crew =>
      have hc := crew i
      rw [hk'] at hc
      by_cases hid : i = id
      · subst hid
        rw [if_pos rfl] at hc
        obtain ⟨s, hs, hi, hg⟩ := hseat hk
        cases made with
        | quits hp hq => cases hc
        | idles hp hq hempty => cases hc
        | _ =>
            cases hc
            exact ⟨_, s, runner, hs, hi, hg⟩
      · rw [if_neg hid] at hc
        exact absurd (h.unique hc.symm hk) hid
  | @stops id t p next r' cancelled hstep ht hp made left runner crew =>
      have hkept : ∃ k, w.crew name i = some k ∧ k.generation = k'.generation := by
        have hc := crew i
        rw [hk'] at hc
        split at hc
        · obtain ⟨k, hk, rfl⟩ := Option.map_eq_some_iff.mp hc.symm
          exact ⟨k, hk, rfl⟩
        · exact ⟨k', hc.symm, rfl⟩
      obtain ⟨k, hk, hkg⟩ := hkept
      obtain ⟨s, hs, hi, hg⟩ := hseat hk
      cases made with
      | halts hs₀ ha =>
          cases hs.symm.trans hs₀
          exact ⟨_, _, runner, rfl, hi, hg.trans hkg⟩
      | clears =>
          subst hstep
          have hgone := h.gone hr hm ht hp hk
          refine ⟨_, s, runner, Runner.vacates_slot.mpr ⟨hs, ?_⟩, hi, hg.trans hkg⟩
          rw [hg]
          exact hgone
      | _ => exact ⟨_, s, runner, hs, hi, hg.trans hkg⟩

/-- After a move a stop still waits for the one worker of its generation. -/
theorem Staffed.awaits_move (h : w.Staffed name) (hw : w.Regular) (hm : w.Admits m) {q : TaskId}
    {t' : Task} {task : TaskId} {g : Nat} (ht' : (w.move m).tasks.find? q = some t')
    (hp' : t'.stops? = some (name, .awaiting task g)) :
    ∃ r', (w.move m).runners.find? name = some r' ∧ g ≤ r'.generations ∧
      ∀ s, r'.slot = some s → s.generation = g → s.task = task := by
  have hlater : ∀ {r : Runner}, w.runners.find? name = some r → g ≤ r.generations →
      (∀ s, r.slot = some s → s.generation = g → s.task = task) →
      ∃ r', (w.move m).runners.find? name = some r' ∧ g ≤ r'.generations ∧
        ∀ s, r'.slot = some s → s.generation = g → s.task = task := by
    intro r hr hle hsame
    obtain ⟨r', hr', -⟩ := move_runner hm hr
    exact ⟨r', hr', ((hw.runnerMove hr hm).reseats hr hr').latest hle hsame⟩
  rcases hw.sound.stop_was hm ht' hp' nofun with ⟨t, ht, hp⟩ | ⟨t, p₀, -, ht, hp, hstep⟩
  · obtain ⟨r, hr, hle, hsame⟩ := h.awaits q t task g ht hp
    exact hlater hr hle hsame
  · cases p₀ with
    | entering =>
        cases hr : w.runners.find? name with
        | none =>
            simp only [StopPhase.step, StopPhase.enter, hr] at hstep
            cases hstep
        | some r =>
            obtain ⟨r', cancelled, hmade, -, -⟩ := StopPhase.entering.step_runner hr
            rw [hstep] at hmade
            cases hmade with
            | @halts s hs ha =>
                refine hlater hr (Nat.le_of_eq (h.newest r s hr hs)) ?_
                intro s' hs' _
                cases hs.symm.trans hs'
                rfl
    | awaiting task' g' => cases hstep
    | draining d =>
        obtain ⟨d', -, he⟩ := Progress.map_on hstep
        cases he

/-- Every move keeps a runner staffed. -/
theorem Staffed.move (h : w.Staffed name) (hw : w.Regular) (hm : w.Admits m) :
    (w.move m).Staffed name := by
  refine ⟨?_, ?_, fun q t task g ht hp => h.awaits_move hw hm ht hp⟩
  · intro i k' hk'
    cases hr : w.runners.find? name with
    | none =>
        rw [(hw.sound.founds hm hr).1 i] at hk'
        cases hk'
    | some r => exact h.seat_move hr (hw.runnerMove hr hm) hm hk'
  · intro r' s' hr' hs'
    cases hr : w.runners.find? name with
    | none =>
        obtain ⟨config, worker, rfl⟩ := (hw.sound.founds hm hr).2 r' hr'
        cases hs'
    | some r =>
        cases (hw.runnerMove hr hm).reseats hr hr' with
        | keeps was is task generation generations =>
            cases is.symm.trans hs'
            rw [generation, generations]
            exact h.newest r _ hr was
        | hires was is generations crew =>
            cases is.symm.trans hs'
            exact generations.symm
        | empties is generations =>
            rw [is] at hs'
            cases hs'

/-- A runner stays staffed in the course of a history. -/
theorem History.stays_staffed {rule : World → Move → Prop} {u : World} {ms : List Move}
    (h : History rule u ms w) (hu : u.Regular) (hs : u.Staffed name) :
    w.Regular ∧ w.Staffed name := by
  refine h.keeps (P := fun v => v.Regular ∧ v.Staffed name) ⟨hu, hs⟩ ?_
  rintro v m hm - ⟨hv, hs⟩
  exact ⟨hv.move hm, hs.move hv hm⟩

/-- A history from an empty world is staffed throughout. -/
theorem History.staffed {rule : World → Move → Prop} {utc : Int} {s : Store} {ms : List Move}
    (h : History rule (around utc s) ms w) (name : String) : w.Staffed name :=
  (h.stays_staffed (regular_around utc s) (staffed_around name utc s)).2

end World

end JobFleet
