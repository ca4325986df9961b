import JobFleet.Proofs.Fleet.Staff

/-!
# No wake-up is lost

A runner has one worker at most, whoever hands in jobs, drains and stops it meanwhile. Until the
first stop begins, a job in the queue means that a worker is there to take it, so a drain returns
only when nothing is left to do.
-/

namespace JobFleet

/-- How the step of a task shows that a drain of a runner has returned: the drain was asked for, or
it was part of a shutdown, which now turns to the worker. -/
inductive Task.DrainReturns (name : String) : Task → Task → Prop
  | asked {deadline : Option Nat} {p : DrainPhase} :
      DrainReturns name (.operation (.drain name deadline p)) (.ended .drained)
  | shutdown {p : DrainPhase} :
      DrainReturns name (.operation (.shutdownApp name (.draining p)))
        (.operation (.shutdownApp name (.stopping .entering)))

/-- A drain that ends has found the slot empty. -/
theorem DrainPhase.step_ended {name : String} {p : DrainPhase} {w : World}
    (h : p.step name w = .ended ()) : w.occupied name = false := by
  cases p with
  | looking =>
      simp only [step] at h
      split at h
      · cases h
      · rename_i ho
        exact Bool.not_eq_true _ ▸ ho
  | sleeping wake => cases h

/-- A step in which a drain returns finds the slot empty and does nothing else. -/
theorem Task.DrainReturns.act {name : String} {w : World} {id : TaskId} {t t' : Task}
    (h : t.DrainReturns name t') (ht : (t.act id w).1 = some t') :
    w.occupied name = false ∧ (t.act id w).2 = w := by
  cases h with
  | asked =>
      refine ⟨?_, rfl⟩
      simp only [Task.act, Operation.step, Operation.stepDrain] at ht
      split at ht
      · rename_i p _
        cases hp : p.step name w with
        | ended _ => exact DrainPhase.step_ended hp
        | on q =>
            rw [hp] at ht
            cases ht
      · cases ht
  | @shutdown p =>
      cases hp : p.step name w with
      | ended _ =>
          refine ⟨DrainPhase.step_ended hp, ?_⟩
          simp only [Task.act, Operation.step, AppShutdown.step, hp]
      | on q =>
          simp only [Task.act, Operation.step, AppShutdown.step, hp] at ht
          cases ht

namespace World

variable {w v : World} {name : String} {r r' : Runner} {m : Move}

/-- A step that may clear the slot of a runner's worker: the worker's own, or that of a stop that
has waited for this worker, which has ended. -/
def MayClear (name : String) (w : World) (s : Runner.Slot) (id : TaskId) : Prop :=
  (id = s.task ∧ ∃ k, w.crew name id = some k ∧ k.generation = s.generation) ∨
    (w.running s.task = false ∧ ∃ t, w.tasks.find? id = some t ∧
      t.stops? = some (name, .awaiting s.task s.generation))

/-- A slot is cleared by the worker that sits there, or after its end. -/
theorem RunnerMove.clears (h : w.RunnerMove name r m) (hw : w.Staffed name) (hm : w.Admits m)
    (hr : w.runners.find? name = some r) (hr' : (w.move m).runners.find? name = some r')
    {s : Runner.Slot} (hs : r.slot = some s) (hs' : r'.slot = none) :
    ∃ id, m = .step id ∧ w.MayClear name s id := by
  have hkept : r'.slot = r.slot → ∃ id, m = .step id ∧ w.MayClear name s id := by
    intro he
    rw [he, hs] at hs'
    cases hs'
  cases h with
  | passes apart shuns =>
      rw [apart.runner, hr] at hr'
      cases hr'
      exact hkept rfl
  | handsIn _ ht hin hn step made left leaves =>
      cases leaves.runner.symm.trans hr'
      cases made with
      | hires hp hs₀ =>
          rw [hs] at hs₀
          cases hs₀
      | _ => exact hkept rfl
  | givesUp _ ht hin hands hn left leaves =>
      cases leaves.runner.symm.trans hr'
      refine hkept ?_
      split <;> rfl
  | @works id k _ _ _ he hk tells made runner crew =>
      cases runner.symm.trans hr'
      cases made with
      | idles hp hc hq =>
          obtain ⟨r₀, s₀, hr₀, hs₀, htask, hgen⟩ := hw.seat id k hk
          cases hr.symm.trans hr₀
          cases hs.symm.trans hs₀
          exact ⟨id, he, .inl ⟨htask.symm, k, hk, hgen.symm⟩⟩
      | _ => exact hkept rfl
  | @stops id t _ _ _ _ he ht hp made left runner crew =>
      cases runner.symm.trans hr'
      cases made with
      | halts hs₀ ha => cases hs'
      | @clears task g =>
          by_cases hg : s.generation = g
          · obtain ⟨r₀, hr₀, -, hsame⟩ := hw.awaits id t task g ht hp
            cases hr.symm.trans hr₀
            have htask := hsame s hs hg
            subst he hg htask
            obtain ⟨t', ht', hready, -⟩ := move_step hm
            cases ht.symm.trans ht'
            rw [Task.ready_stop hp] at hready
            refine ⟨id, rfl, .inr ⟨?_, t, ht, hp⟩⟩
            simpa [StopPhase.ready] using hready
          · rw [Runner.vacates_slot.mpr ⟨hs, hg⟩] at hs'
            cases hs'
      | _ => exact hkept rfl

/-! ## Workers from before -/

/-- None of the tasks up to a number works for a runner. -/
def Unmanned (name : String) (n : TaskId) (w : World) : Prop :=
  ∀ i t, i < n → w.tasks.find? i = some t → t.employer? ≠ some name

/-- Who works for a runner later has been started later. -/
theorem Unmanned.move {n : TaskId} (h : w.Unmanned name n) (hw : w.Sound) (hn : n ≤ w.nextTask)
    (hm : w.Admits m) : (w.move m).Unmanned name n := by
  intro i t' hi ht'
  obtain ⟨t, ht, he⟩ := hw.employer_was hm (Nat.lt_of_lt_of_le hi hn) ht'
  rw [he]
  exact h i t hi ht

/-- A move in which a stop of a runner takes a step. -/
def Halts (name : String) (w : World) : Move → Prop
  | .step id => ((w.tasks.find? id).bind Task.stops?).map Prod.fst = some name
  | _ => False

/-- A move in which no stop of a runner takes a step. -/
def Unstopped (name : String) (w : World) (m : Move) : Prop := ¬ w.Halts name m

instance (name : String) (w : World) (m : Move) : Decidable (w.Unstopped name m) :=
  match m with
  | .step id =>
      inferInstanceAs (Decidable (¬ ((w.tasks.find? id).bind Task.stops?).map Prod.fst = some name))
  | .pass _ | .turn _ | .favour _ | .launch _ | .collect _ | .disturb _ | .reach _ | .call _
  | .openGate .. | .handler _ | .runner .. | .scheduler .. | .limiter .. | .lock .. | .app ..
  | .update .. => .isTrue id

/-- A worker that has not been cancelled sits in a runner's slot, or there is nothing to do. -/
def Manned (name : String) (w : World) : Prop :=
  ∀ r, w.runners.find? name = some r → (r.slot = none → r.pending = []) ∧
    ∀ s, r.slot = some s → ∃ k, w.crew name s.task = some k ∧ k.cancelled = false

/-- A manned runner stays manned over a step of its worker. -/
theorem Manned.works (h : w.Manned name) (hs : w.Staffed name)
    (hr : w.runners.find? name = some r) {id : TaskId} {k : Worker}
    (hk : w.crew name id = some k) {episode : Option Runner.Episode} {left : Option Worker}
    (made : k.RunnerStep w.nextTask r episode left r') (runner : v.runners.find? name = some r')
    (crew : ∀ i, v.crew name i = if i = id then left else w.crew name i) : v.Manned name := by
  intro r₁ hr₁
  cases runner.symm.trans hr₁
  obtain ⟨hidle, hbusy⟩ := h r hr
  obtain ⟨r₀, s, hr₀, hslot, rfl, hgen⟩ := hs.seat id k hk
  cases hr.symm.trans hr₀
  obtain ⟨k₀, hk₀, hcancelled⟩ := hbusy s hslot
  cases hk.symm.trans hk₀
  have hstays : ∀ {p : Worker.Phase}, left = some (k.inPhase p) →
      (r.slot = none → r.pending = []) ∧ ∀ s', r.slot = some s' →
        ∃ k', v.crew name s'.task = some k' ∧ k'.cancelled = false := by
    rintro p rfl
    refine ⟨hidle, ?_⟩
    intro s' hs'
    cases hslot.symm.trans hs'
    rw [crew, if_pos rfl]
    exact ⟨_, rfl, hcancelled⟩
  cases made with
  | quits hp hc =>
      rw [hcancelled] at hc
      cases hc
  | idles hp hc hq =>
      refine ⟨fun _ => by rw [Runner.vacates_pending, hq], ?_⟩
      intro s' hs'
      obtain ⟨hs', hne⟩ := Runner.vacates_slot.mp hs'
      cases hslot.symm.trans hs'
      exact absurd hgen hne
  | takes hp hc hq =>
      refine ⟨?_, (hstays rfl).2⟩
      intro hnone
      cases hslot.symm.trans hnone
  | _ => exact hstays rfl

/-- As long as nobody begins to stop a runner, it stays manned. -/
theorem Manned.move (h : w.Manned name) (hw : w.Regular) (hs : w.Staffed name) (hm : w.Admits m)
    (hu : w.Unstopped name m) : (w.move m).Manned name := by
  cases hr : w.runners.find? name with
  | none =>
      intro r' hr'
      obtain ⟨config, worker, rfl⟩ := (hw.sound.founds hm hr).2 r' hr'
      exact ⟨fun _ => rfl, nofun⟩
  | some r =>
      obtain ⟨hidle, hbusy⟩ := h r hr
      have hthere : ∀ {r₁ : Runner} {hired : Option Worker}, w.Leaves name (w.move m) r₁ hired →
          ∀ s, r.slot = some s →
            ∃ k, (w.move m).crew name s.task = some k ∧ k.cancelled = false := by
        intro r₁ hired leaves s hslot
        obtain ⟨k, hk, hc⟩ := hbusy s hslot
        have hne : s.task ≠ w.nextTask := Nat.ne_of_lt (hw.sound.fresh.lt (crew_eq_some.mp hk).1)
        rw [leaves.crew, if_neg hne]
        exact ⟨k, hk, hc⟩
      cases hw.runnerMove hr hm with
      | passes apart shuns =>
          intro r' hr'
          rw [apart.runner, hr] at hr'
          cases hr'
          refine ⟨hidle, ?_⟩
          intro s hs
          rw [apart.crew]
          exact hbusy s hs
      | handsIn _ ht hin hn step made left leaves =>
          intro r' hr'
          cases leaves.runner.symm.trans hr'
          cases made with
          | joins hp hslot =>
              refine ⟨?_, hthere leaves⟩
              intro hnone
              cases hslot.symm.trans hnone
          | hires hp hslot =>
              refine ⟨nofun, ?_⟩
              rintro s ⟨⟩
              rw [leaves.crew, if_pos rfl]
              exact ⟨_, rfl, rfl⟩
          | _ => exact ⟨hidle, hthere leaves⟩
      | givesUp _ ht hin hands hn left leaves =>
          intro r' hr'
          cases leaves.runner.symm.trans hr'
          have hthere := hthere leaves
          split
          · exact ⟨hidle, hthere⟩
          · exact ⟨hidle, hthere⟩
      | works _ hk tells made runner crew => exact h.works hs hr hk made runner crew
      | stops he ht hp made left runner crew =>
          subst he
          refine absurd ?_ hu
          simp [Halts, ht, hp]

theorem manned_around (name : String) (utc : Int) (s : Store) : (around utc s).Manned name := by
  intro r hr
  cases hr

/-- A queue that nobody stopped is manned at every moment. -/
theorem History.manned {utc : Int} {s : Store} {ms : List Move}
    (h : History (Unstopped name) (around utc s) ms w) : w.Manned name := by
  have hall : w.Regular ∧ w.Staffed name ∧ w.Manned name := by
    refine h.keeps (P := fun v => v.Regular ∧ v.Staffed name ∧ v.Manned name)
      ⟨regular_around utc s, staffed_around name utc s, manned_around name utc s⟩ ?_
    rintro v m hm hu ⟨hv, hs, hmanned⟩
    exact ⟨hv.move hm, hs.move hv hm, hmanned.move hv hs hm hu⟩
  exact hall.2.2

/-- When a drain of a manned runner returns, the queue is empty and no worker is there. -/
theorem Manned.drained (h : w.Manned name) (hw : w.Staffed name) {id : TaskId} {t t' : Task}
    (hm : w.Admits (.step id)) (ht : w.tasks.find? id = some t)
    (ht' : (w.move (.step id)).tasks.find? id = some t') (hd : t.DrainReturns name t') :
    (∀ r, (w.move (.step id)).runners.find? name = some r → r.pending = []) ∧
      ∀ i, (w.move (.step id)).crew name i = none := by
  obtain ⟨t₀, ht₀, -, he⟩ := move_step hm
  cases ht.symm.trans ht₀
  have hleft : (t.act id w).1 = some t' := by
    rw [he, put_find?, if_pos rfl] at ht'
    exact ht'
  obtain ⟨hfree, hsame⟩ := hd.act hleft
  have hslot : ∀ r, w.runners.find? name = some r → r.slot = none := by
    intro r hr
    simpa [occupied, hr] using hfree
  rw [he, hsame, hleft]
  constructor
  · intro r hr
    rw [put_runners] at hr
    exact (h r hr).1 (hslot r hr)
  · intro i
    rw [crew_put]
    split
    · cases hd <;> rfl
    · cases hc : w.crew name i with
      | none => rfl
      | some k =>
          obtain ⟨r, s, hr, hs, -⟩ := hw.seat i k hc
          rw [hslot r hr] at hs
          cases hs

end World

end JobFleet
