import JobFleet.Proofs.Fleet.Workers

/-!
# What a move does to guards

After a move a guard is as it was, or has just been asked for, or has taken its turn in that move.
Past its check it keeps the key that it was let through under.
-/

namespace JobFleet

/-- The key that a guard has been let through under. -/
def Guard.Phase.key? : Guard.Phase → Option RateLimitKey
  | .checking => none
  | .admitted k => some k
  | .attempting k => some k
  | .settling k => some k

/-- What the step of a guard leaves: the guard after its turn, or the result. -/
theorem Task.act_guard (g : Guard) (id : TaskId) (w : World) :
    (Task.operation (.guard g)).act id w =
      ((g.step w).1.kept (fun g' => .operation (.guard g')) fun r => some (.ended (.guarded r)),
        (g.step w).2) := by
  simp only [Task.act, Operation.step]
  cases (g.step w).1 <;> rfl

/-- Only the step of a guard leaves a guard. -/
theorem Task.guard_of_act {t : Task} {id : TaskId} {w : World} {g' : Guard}
    (h : (t.act id w).1 = some (.operation (.guard g'))) :
    ∃ g v, t = .operation (.guard g) ∧ g.Turn w (.on g') v := by
  have hother : ∀ {σ α : Type} {f : σ → Operation} {r : α → Result} (p : Progress σ α),
      (∀ s, f s ≠ .guard g') →
      ((p.map f r).kept .operation fun r => some (.ended r)) ≠ some (.operation (.guard g')) := by
    intro σ α f r p hf hkept
    cases p with
    | on s =>
        injection hkept with hop
        injection hop with hg
        exact hf s hg
    | ended a => cases hkept
  cases t with
  | worker k =>
      obtain ⟨k', -, hk⟩ := Progress.kept_none h
      cases hk
  | handler c => cases h
  | mainLoop m =>
      obtain ⟨m', -, hm⟩ := Progress.kept_none h
      cases hm
  | extender x =>
      obtain ⟨x', -, hx⟩ := Progress.kept_none h
      cases hx
  | ended r => cases h
  | operation o =>
      cases o with
      | guard g =>
          refine ⟨g, (g.step w).2, rfl, ?_⟩
          have hturn := g.step_turn w
          rw [act_guard] at h
          cases hnext : (g.step w).1 with
          | on g'' =>
              rw [hnext] at h hturn
              cases h
              exact hturn
          | ended r =>
              rw [hnext] at h
              cases h
      | drain runner deadline p =>
          simp only [act, Operation.step, Operation.stepDrain] at h
          split at h
          · cases hn : p.step runner w <;> rw [hn] at h <;> cases h
          · cases h
      | enqueue e => exact absurd h (hother _ (by rintro s ⟨⟩))
      | stop runner p => exact absurd h (hother _ (by rintro s ⟨⟩))
      | startScheduler name p => exact absurd h (hother _ (by rintro s ⟨⟩))
      | stopScheduler name p => exact absurd h (hother _ (by rintro s ⟨⟩))
      | runCycle c => exact absurd h (hother _ (by rintro s ⟨⟩))
      | startApp name p => exact absurd h (hother _ (by rintro s ⟨⟩))
      | shutdownApp name p => exact absurd h (hother _ (by rintro s ⟨⟩))
      | request app p => exact absurd h (hother _ (by rintro s ⟨⟩))

/-- A weight of guards by their phase, if a guard at the beginning weighs nothing. -/
def Guard.weight (f : Guard.Phase → Nat) (h0 : f .checking = 0) : Task.Weight where
  of
    | .operation (.guard g) => f g.phase
    | _ => 0
  core := by
    intro t
    cases t <;> rfl
  begins := by
    intro w t h
    cases h with
    | @operation o ho =>
        cases o with
        | guard g => exact (congrArg f (of_decide_eq_true ho)).trans h0
        | _ => rfl
    | _ => rfl
  handler := fun _ => rfl
  ended := fun _ => rfl

namespace World

variable {w : World} (f : Guard.Phase → Nat) (h0 : f .checking = 0)

/-- What the step of a guard does to a sum over guards. -/
theorem Sound.guard_sum (h : w.Sound) {id : TaskId} {g : Guard}
    (hm : w.Admits (.step id)) (hg : w.tasks.find? id = some (.operation (.guard g))) :
    (w.move (.step id)).sum (Guard.weight f h0) + f g.phase =
      w.sum (Guard.weight f h0) + ((g.step w).1.state?.elim 0 fun g' => f g'.phase) := by
  obtain ⟨t, ht, -, he⟩ := move_step hm
  cases hg.symm.trans ht
  have hsum := h.act_sum (Guard.weight f h0) hg
  rw [← he, Task.act_guard] at hsum
  rw [Task.act_guard] at he
  cases hnext : (g.step w).1 with
  | on g' =>
      rw [hnext] at hsum
      exact hsum
  | ended r =>
      rw [hnext] at hsum
      exact hsum

/-- A move that is no guard's step leaves a sum over guards alone. -/
theorem Sound.still_sum (h : w.Sound) {m : Move} (hm : w.Admits m)
    (hn : ∀ id g, m = .step id → w.tasks.find? id ≠ some (.operation (.guard g))) :
    (w.move m).sum (Guard.weight f h0) = w.sum (Guard.weight f h0) := by
  by_cases hstep : ∃ id, m = .step id
  · obtain ⟨id, rfl⟩ := hstep
    obtain ⟨t, ht, -, he⟩ := move_step hm
    have hzero : ∀ u : Task, (∀ g, u ≠ .operation (.guard g)) → (Guard.weight f h0).of u = 0 := by
      intro u hu
      cases u with
      | operation o =>
          cases o with
          | guard g => exact absurd rfl (hu g)
          | _ => rfl
      | _ => rfl
    have hno : ∀ g, t ≠ .operation (.guard g) := by
      rintro g rfl
      exact hn id g rfl ht
    have hleft : (t.act id w).1.elim 0 (Guard.weight f h0).of = 0 := by
      cases hl : (t.act id w).1 with
      | none => rfl
      | some u =>
          refine hzero u ?_
          rintro g rfl
          obtain ⟨g', v, rfl, -⟩ := Task.guard_of_act hl
          exact hno g' rfl
    have hsum := h.act_sum (Guard.weight f h0) ht
    rw [hzero t hno, hleft] at hsum
    rw [he]
    exact hsum
  · exact h.move_sum (Guard.weight f h0) hm fun id he => hstep ⟨id, he⟩

/-- How a guard that is there after a move came to be so: it is as it was, it has been asked for,
or it has taken its turn. -/
theorem Sound.guard_was (h : w.Sound) {m : Move} (hm : w.Admits m) {i : TaskId} {g' : Guard}
    (hg : (w.move m).tasks.find? i = some (.operation (.guard g'))) :
    w.tasks.find? i = some (.operation (.guard g')) ∨ g'.phase = .checking ∨
      ∃ g v, m = .step i ∧ w.tasks.find? i = some (.operation (.guard g)) ∧
        g.Turn w (.on g') v := by
  rcases h.move_was hm hg with ⟨t, ht, hcore⟩ | ⟨-, hnew | ⟨c, hc⟩⟩ | ⟨t, he, ht, hleft⟩
  · cases t with
    | operation o =>
        cases hcore
        exact .inl ht
    | _ => cases hcore
  · cases hnew with
    | operation ho => exact .inr (.inl (of_decide_eq_true ho))
  · cases hc
  · obtain ⟨g, v, rfl, hturn⟩ := Task.guard_of_act hleft
    exact .inr (.inr ⟨g, v, he, ht, hturn⟩)

end World

end JobFleet
