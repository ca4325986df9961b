import JobFleet.Proofs.Fleet.Tasks

/-!
# Sums over tasks

A weight of tasks that takes no notice of cancellation and gives nothing to a task at its
beginning, to a handler's call or to a result has a sum that changes only by the step of a task
that weighs something, and then by what the step makes of that one task. A weight of workers by
their phases is such a weight. A worker after a move is as it was, or has just been started, or has
taken its turn in that move.
-/

namespace JobFleet

/-- A weight of tasks that nothing but their own steps changes. -/
structure Task.Weight where
  of : Task → Nat
  core : ∀ t, of t.core = of t
  begins : ∀ w t, Task.Begins w t → of t = 0
  handler : ∀ c, of (.handler c) = 0
  ended : ∀ r, of (.ended r) = 0

/-- The weight of a worker by its phase; other tasks weigh nothing. -/
def Task.weigh (weight : Worker.Phase → Nat) : Task → Nat
  | .worker k => weight k.phase
  | _ => 0

/-- A weight of workers, if a worker at the beginning weighs nothing. -/
def Worker.weight (weight : Worker.Phase → Nat) (h0 : weight .starting = 0) : Task.Weight where
  of := Task.weigh weight
  core := by
    intro t
    cases t <;> rfl
  begins := by
    intro w t h
    cases h with
    | worker hp _ => exact (congrArg weight hp).trans h0
    | _ => rfl
  handler := fun _ => rfl
  ended := fun _ => rfl

namespace World

/-- The sum of the weights of all tasks. -/
def sum (w : World) (f : Task.Weight) : Nat := w.tasks.total f.of

/-- The sum of the weights of all workers. -/
def weigh (w : World) (weight : Worker.Phase → Nat) : Nat := w.tasks.total (Task.weigh weight)

variable {w v : World} (f : Task.Weight)

/-- A sum is read off the tasks. -/
theorem sum_of_tasks (h : v.tasks = w.tasks) : v.sum f = w.sum f := by
  rw [sum, sum, h]

/-- What filing a task anew does to a sum. -/
theorem put_sum {id : TaskId} {t : Task} (ht : w.tasks.find? id = some t) (left : Option Task) :
    (w.put id left).sum f + f.of t = w.sum f + left.elim 0 f.of := by
  cases left with
  | none =>
      have he := w.tasks.total_erase f.of id
      rw [Table.weightAt_some ht] at he
      exact he
  | some t' =>
      have he := w.tasks.total_insert f.of id t'
      rw [Table.weightAt_some ht] at he
      exact he

/-- Starting a task that weighs nothing. -/
theorem spawn_sum (hw : w.Fresh) {t : Task} (ht : f.of t = 0) :
    (w.spawn t).2.sum f = w.sum f := by
  have he := w.tasks.total_insert f.of w.nextTask t
  rw [Table.weightAt_none (hw _ (Nat.le_refl _)), ht] at he
  exact he

/-- A cancellation changes no sum. -/
theorem cancel_sum (id : TaskId) : (w.cancel id).sum f = w.sum f := by
  refine Table.total_modify_of_eq _ id ?_
  intro t
  refine (f.core _).symm.trans (Eq.trans (congrArg f.of ?_) (f.core t))
  cases t <;> rfl

/-- Deeds of the growing kind leave a sum alone. -/
theorem Via.sum {D : Deed → Prop} (h : w.Via D v) (hw : w.Fresh) (hD : ∀ d, D d → w.Grows d) :
    v.sum f = w.sum f := by
  have hboth : w.Extends v ∧ v.sum f = w.sum f := by
    refine h.keeps (P := fun u => w.Extends u ∧ u.sum f = w.sum f) ?_
      ⟨hw.extends_of_eq rfl rfl fun _ r hr => ⟨r, hr⟩, rfl⟩
    rintro u d hd ⟨hx, hu⟩
    refine ⟨hx.does (hD d hd), Eq.trans ?_ hu⟩
    have hg := hD d hd
    cases d with
    | spawn t => exact spawn_sum f hx.fresh (f.begins w t hg)
    | cancel id => exact cancel_sum f id
    | remove id => exact hg.elim
    | call c => exact sum_of_tasks f (u.perform_tasks c.2)
    | _ => rfl
  exact hboth.2

namespace Sound

/-- What deeds of the growing kind and what they leave of a task do to a sum. -/
theorem grows_sum (h : w.Sound) {id : TaskId} {t : Task} (ht : w.tasks.find? id = some t)
    {D : Deed → Prop} (hv : w.Via D v) (hD : ∀ d, D d → w.Grows d) (left : Option Task) :
    (v.put id left).sum f + f.of t = w.sum f + left.elim 0 f.of := by
  obtain ⟨t', ht', hcore⟩ := (hv.grows h.fresh hD).find? (h.fresh.lt ht) ht
  have hp := put_sum f ht' left
  rw [← f.core, hcore, f.core] at hp
  rw [← hv.sum f h.fresh hD]
  exact hp

/-- What a worker's turn does to a sum: it trades the weight before it for the weight after it. -/
theorem turn_sum (h : w.Sound) {id : TaskId} {k : Worker} {left : Option Worker}
    (ht : w.tasks.find? id = some (.worker k)) (hk : k.Turn w left v) :
    (v.put id (left.map .worker)).sum f + f.of (.worker k) =
      w.sum f + (left.map Task.worker).elim 0 f.of := by
  rcases hk.split with ⟨t, hp, rfl, rfl⟩ | ⟨t, task, goal, hp, hgoal, rfl, hb⟩ | ⟨hc, ha⟩
  · have hne : id ≠ w.nextTask := Nat.ne_of_lt (h.fresh.lt ht)
    have hf : (w.spawn (.handler (.start t.job.handler))).2.tasks.find? id = some (.worker k) :=
      (Table.find?_insert_of_ne _ _ hne).trans ht
    rw [← spawn_sum f h.fresh (f.handler (.start t.job.handler))]
    exact put_sum f hf _
  · obtain ⟨c, hcall⟩ := h.called id _ task ht (by rw [Task.awaits?, hp]; rfl)
    have hne : id ≠ task := by
      rintro rfl
      cases ht.symm.trans hcall
    have hf : v.tasks.find? id = some (.worker k) := by
      rw [hb.tasks]
      exact (Table.find?_erase _ _ _).trans ((if_neg hne).trans ht)
    have he : v.sum f = w.sum f := by
      have htotal := w.tasks.total_erase f.of task
      rw [Table.weightAt_some hcall, f.handler] at htotal
      exact (sum_of_tasks f hb.tasks).trans htotal
    rw [← he]
    exact put_sum f hf _
  · exact h.grows_sum f ht hk.via (fun d hd => hd.grows hc ha) _

/-- What a step does to a sum. -/
theorem act_sum (h : w.Sound) {id : TaskId} {t : Task} (ht : w.tasks.find? id = some t) :
    ((t.act id w).2.put id (t.act id w).1).sum f + f.of t =
      w.sum f + (t.act id w).1.elim 0 f.of := by
  by_cases hs : t.sort = .worker
  · cases t with
    | worker k =>
        have hk := h.turn_sum f ht (k.step_turn w)
        rwa [← Progress.kept_eq] at hk
    | _ => cases hs
  · exact h.grows_sum f ht (t.act_via id w) (fun d hd => hd.grows hs) _

/-- A move that is no step leaves a sum alone. -/
theorem move_sum (h : w.Sound) {m : Move} (hm : w.Admits m) (hn : ∀ id, m ≠ .step id) :
    (w.move m).sum f = w.sum f := by
  cases hset : m.setsUp with
  | true => exact sum_of_tasks f (move_setUp hset hm).tasks
  | false =>
      cases m with
      | step id => exact absurd rfl (hn id)
      | launch o => exact spawn_sum f h.fresh (f.begins w _ (.operation hm))
      | collect id =>
          obtain ⟨r, hr⟩ := hm
          have hp := put_sum f hr none
          rw [f.ended] at hp
          exact hp
      | call c => exact sum_of_tasks f (w.perform_tasks c.2)
      | pass t => rfl
      | disturb g => rfl
      | reach value => rfl
      | _ => cases hset

/-- What a turn does to a sum over workers. -/
theorem turn_weigh (h : w.Sound) {id : TaskId} {k : Worker} {left : Option Worker}
    (ht : w.tasks.find? id = some (.worker k)) (hk : k.Turn w left v)
    (weight : Worker.Phase → Nat) (h0 : weight .starting = 0) :
    (v.put id (left.map .worker)).weigh weight + weight k.phase =
      w.weigh weight + left.elim 0 fun k' => weight k'.phase := by
  have hsum := h.turn_sum (Worker.weight weight h0) ht hk
  cases left <;> exact hsum

/-- A move that is no worker's step leaves a sum over workers alone. -/
theorem move_weigh (h : w.Sound) {m : Move} (hm : w.Admits m)
    (hn : ∀ id k, m = .step id → w.tasks.find? id ≠ some (.worker k))
    (weight : Worker.Phase → Nat) (h0 : weight .starting = 0) :
    (w.move m).weigh weight = w.weigh weight := by
  by_cases hstep : ∃ id, m = .step id
  · obtain ⟨id, rfl⟩ := hstep
    obtain ⟨t, ht, -, he⟩ := move_step hm
    have hs : t.sort ≠ .worker := by
      cases t with
      | worker k => exact absurd ht (hn id k rfl)
      | _ => nofun
    have hzero : ∀ u : Task, u.sort ≠ .worker → u.weigh weight = 0 := by
      intro u hu
      cases u with
      | worker k => exact absurd rfl hu
      | _ => rfl
    have hleft : (t.act id w).1.elim 0 (Task.weigh weight) = 0 := by
      cases hl : (t.act id w).1 with
      | none => rfl
      | some u => exact hzero u (Task.act_sort hl ▸ hs)
    have hsum := h.act_sum (Worker.weight weight h0) ht
    have htask : (Worker.weight weight h0).of t = 0 := hzero t hs
    have hnext : (t.act id w).1.elim 0 (Worker.weight weight h0).of = 0 := hleft
    rw [htask, hnext] at hsum
    rw [he]
    exact hsum
  · exact h.move_sum (Worker.weight weight h0) hm fun id he => hstep ⟨id, he⟩

end Sound

/-- How a worker that is there after a move came to be so: it is as it was, it has been started,
or it has taken its turn. -/
theorem Sound.move_worker (h : w.Sound) {m : Move} (hm : w.Admits m) {i : TaskId} {k' : Worker}
    (hk : (w.move m).tasks.find? i = some (.worker k')) :
    (∃ k, w.tasks.find? i = some (.worker k) ∧ k'.phase = k.phase ∧ k'.runner = k.runner) ∨
      k'.phase = .starting ∨
      ∃ k, m = .step i ∧ w.tasks.find? i = some (.worker k) ∧ k.Turn w (some k') (k.step w).2 := by
  rcases h.move_was hm hk with ⟨t, ht, hcore⟩ | ⟨-, hnew | ⟨c, hc⟩⟩ | ⟨t, he, ht, hleft⟩
  · obtain ⟨k, rfl, hp, hr⟩ := Task.core_eq_worker hcore.symm
    exact .inl ⟨k, ht, hp.symm, hr.symm⟩
  · cases hnew with
    | worker hp _ => exact .inr (.inl hp)
  · cases hc
  · have hs := Task.act_sort hleft
    cases t with
    | worker k =>
        obtain ⟨k'', hp, hk'⟩ := Progress.kept_none hleft
        cases hk'
        have hturn := k.step_turn w
        rw [hp] at hturn
        exact .inr (.inr ⟨k, he, ht, hturn⟩)
    | _ => cases hs

end World

end JobFleet
