import JobFleet.Proofs.Fleet.Roles

/-!
# The crew of a runner

The crew of a runner are its workers, by their numbers. A deed that changes another runner, starts
none of the crew, and cancels or removes none of them leaves a runner and its crew as they were.
-/

namespace JobFleet

/-- A worker that has been cancelled. -/
def Worker.cancel (k : Worker) : Worker := { k with cancelled := true }

/-- A worker of a runner. -/
def Task.crew? (name : String) : Task → Option Worker
  | .worker k => if k.runner = name then some k else none
  | _ => none

/-- Who is of a runner's crew is a worker of that runner. -/
theorem Task.crew?_eq_some {name : String} {t : Task} {k : Worker} :
    t.crew? name = some k ↔ t = .worker k ∧ k.runner = name := by
  cases t with
  | worker k' =>
      by_cases hn : k'.runner = name
      · simp only [crew?, if_pos hn, Option.some.injEq, worker.injEq]
        constructor
        · rintro rfl
          exact ⟨rfl, hn⟩
        · exact And.left
      · simp only [crew?, if_neg hn, worker.injEq]
        constructor
        · nofun
        · rintro ⟨rfl, h⟩
          exact absurd h hn
  | _ => simp [crew?]

/-- Nobody but a worker is of a crew. -/
theorem Task.crew?_of_sort {name : String} {t : Task} (h : t.sort ≠ .worker) :
    t.crew? name = none := by
  cases t with
  | worker k => exact absurd rfl h
  | _ => simp [crew?]

/-- Who hands in a job is no worker. -/
theorem Task.crew?_of_handIn {t : Task} {e : Enqueue} {name : String} (h : t.handIn? = some e) :
    t.crew? name = none :=
  crew?_of_sort (sort_of_handIn h)

namespace World

/-- The worker of a runner that has a number. -/
def crew (w : World) (name : String) (i : TaskId) : Option Worker :=
  (w.tasks.find? i).bind (Task.crew? name)

variable {w u v : World} {name : String} {i : TaskId}

/-- The worker of a number is read off its task. -/
theorem crew_of_find? {t : Task} (h : w.tasks.find? i = some t) :
    w.crew name i = t.crew? name := by
  simp [crew, h]

/-- Who is not there is of no crew. -/
theorem crew_of_none (h : w.tasks.find? i = none) : w.crew name i = none := by
  simp [crew, h]

/-- Crews are read off the tasks. -/
theorem crew_of_tasks (h : v.tasks = w.tasks) : v.crew name i = w.crew name i := by
  simp [crew, h]

/-- A worker of a crew is a task that works for the runner. -/
theorem crew_eq_some {k : Worker} :
    w.crew name i = some k ↔ w.tasks.find? i = some (.worker k) ∧ k.runner = name := by
  unfold crew
  cases w.tasks.find? i with
  | none => simp
  | some t => simp [Task.crew?_eq_some]

/-- A task of another sort is of no crew. -/
theorem Kind.crew {s : Task.Sort} (h : w.Kind i s) (hs : s ≠ .worker) : w.crew name i = none := by
  cases ht : w.tasks.find? i with
  | none => exact crew_of_none ht
  | some t =>
      rw [crew_of_find? ht]
      apply Task.crew?_of_sort
      rw [h.unique ht]
      exact hs

/-- A new task is of the crew that it belongs to. -/
theorem crew_spawn (w : World) (t : Task) (name : String) (i : TaskId) :
    (w.spawn t).2.crew name i = if i = w.nextTask then t.crew? name else w.crew name i := by
  have hf : (w.spawn t).2.tasks.find? i = if i = w.nextTask then some t else w.tasks.find? i :=
    Table.find?_insert _ _ _ _
  rw [crew, hf]
  split <;> rfl

/-- A task that is removed is of no crew. -/
theorem crew_endTask (w : World) (id : TaskId) (name : String) (i : TaskId) :
    (w.endTask id).crew name i = if i = id then none else w.crew name i := by
  have hf : (w.endTask id).tasks.find? i = if i = id then none else w.tasks.find? i :=
    Table.find?_erase _ _ _
  rw [crew, hf]
  split <;> rfl

/-- Filing what is left of a task changes the crew at its own number alone. -/
theorem crew_put (w : World) (id : TaskId) (left : Option Task) (name : String) (i : TaskId) :
    (w.put id left).crew name i =
      if i = id then left.bind (Task.crew? name) else w.crew name i := by
  rw [crew, put_find?]
  split <;> rfl

/-- What is left of a worker after a step is a worker of the same runner. -/
theorem crew_put_step {w : World} {k : Worker} {name : String} (hn : k.runner = name)
    (id i : TaskId) :
    ((k.step w).2.put id ((k.step w).1.state?.map .worker)).crew name i =
      if i = id then (k.step w).1.state? else (k.step w).2.crew name i := by
  subst hn
  rw [crew_put]
  cases hs : (k.step w).1 with
  | ended _ => rfl
  | on k' =>
      obtain ⟨p, rfl⟩ := Worker.step_inPhase hs
      simp [Progress.state?, Task.crew?, Worker.inPhase]

/-- Cancelling a worker leaves it in its crew. -/
theorem crew_cancel (w : World) (id : TaskId) (name : String) (i : TaskId) :
    (w.cancel id).crew name i =
      if i = id then (w.crew name i).map Worker.cancel else w.crew name i := by
  unfold crew cancel
  rw [Table.find?_modify]
  split
  · rename_i hi
    subst hi
    cases w.tasks.find? i with
    | none => rfl
    | some t =>
        cases t with
        | worker k =>
            by_cases hn : k.runner = name <;> simp [Task.crew?, hn, Worker.cancel]
        | _ => simp [Task.crew?]
  · rfl

/-! ## What passes a runner by -/

/-- Two worlds in which a runner and its crew are the same. -/
structure Apart (name : String) (w v : World) : Prop where
  runner : v.runners.find? name = w.runners.find? name
  crew : ∀ i, v.crew name i = w.crew name i

/-- Where neither runners nor tasks change, a runner is passed by. -/
theorem Apart.of_eq (hr : v.runners = w.runners) (ht : v.tasks = w.tasks) : w.Apart name v where
  runner := by rw [hr]
  crew := fun _ => crew_of_tasks ht

/-- Filing a task that is not of the crew in place of one that is not. -/
theorem Apart.put (h : w.Apart name v) {id : TaskId} {left : Option Task}
    (hw : w.crew name id = none) (hl : left.bind (Task.crew? name) = none) :
    w.Apart name (v.put id left) where
  runner := by rw [put_runners, h.runner]
  crew := by
    intro i
    rw [crew_put]
    by_cases hi : i = id
    · rw [if_pos hi, hl, hi, hw]
    · rw [if_neg hi, h.crew]

/-- A deed that starts none of a runner's crew, and cancels or removes none of it, given the world
in which a step begins. -/
def SparesCrew (name : String) (w : World) : Deed → Prop
  | .spawn t => t.crew? name = none
  | .cancel i => w.crew name i = none
  | .remove i => w.crew name i = none
  | _ => True

/-- A deed that spares a crew leaves it as it is. -/
theorem crew_does {d : Deed} (hu : ∀ i, u.crew name i = w.crew name i) (hf : u.Fresh)
    (hd : w.SparesCrew name d) (i : TaskId) : (u.does d).crew name i = u.crew name i := by
  cases d with
  | spawn t =>
      refine (u.crew_spawn t name i).trans ?_
      by_cases hi : i = u.nextTask
      · rw [if_pos hi, crew_of_none (hf i (Nat.le_of_eq hi.symm))]
        exact hd
      · rw [if_neg hi]
  | cancel id =>
      refine (u.crew_cancel id name i).trans ?_
      by_cases hi : i = id
      · subst hi
        have hn : u.crew name i = none := (hu i).trans hd
        rw [if_pos rfl, hn]
        rfl
      · rw [if_neg hi]
  | remove id =>
      refine (u.crew_endTask id name i).trans ?_
      by_cases hi : i = id
      · subst hi
        rw [if_pos rfl]
        exact ((hu i).trans hd).symm
      · rw [if_neg hi]
  | call c => exact crew_of_tasks (u.perform_tasks c.2)
  | _ => exact crew_of_tasks rfl

/-- Deeds that spare a crew leave it alone. -/
theorem Via.crew {D : Deed → Prop} (hv : w.Via D v) (hf : w.Fresh)
    (hD : ∀ d, D d → w.SparesCrew name d) (i : TaskId) : v.crew name i = w.crew name i := by
  have hall : v.Fresh ∧ ∀ i, v.crew name i = w.crew name i := by
    refine hv.keeps (P := fun u => u.Fresh ∧ ∀ i, u.crew name i = w.crew name i) ?_
      ⟨hf, fun _ => rfl⟩
    rintro u d hd ⟨hfu, hu⟩
    exact ⟨hfu.does d, fun j => (crew_does hu hfu (hD d hd) j).trans (hu j)⟩
  exact hall.2 i

end World

/-- A deed that changes no runner but others than this one. -/
def Deed.Misses (name : String) : Deed → Prop
  | .runner n _ => n ≠ name
  | _ => True

namespace World

variable {w v : World} {name : String}

/-- Deeds that miss a runner leave it as it is. -/
theorem Via.runner_eq {D : Deed → Prop} (hv : w.Via D v) (hD : ∀ d, D d → d.Misses name) :
    v.runners.find? name = w.runners.find? name := by
  refine hv.keeps (P := fun u => u.runners.find? name = w.runners.find? name) ?_ rfl
  intro u d hd hu
  have hm := hD d hd
  cases d with
  | runner n f =>
      have hn : name ≠ n := fun he => hm he.symm
      simp [does, modifyRunner, Table.find?_modify, hn, hu]
  | call c => simp [does, hu]
  | _ => exact hu

/-- Deeds that spare a crew and change other runners at most leave a runner and its crew alone. -/
theorem Via.apart {D : Deed → Prop} (hv : w.Via D v) (hf : w.Fresh)
    (hD : ∀ d, D d → w.SparesCrew name d ∧ d.Misses name) : w.Apart name v where
  runner := hv.runner_eq fun d hd => (hD d hd).2
  crew := hv.crew hf fun d hd => (hD d hd).1

end World

/-- What is done aside spares every crew and misses every runner. -/
theorem Deed.Aside.spares_misses {w : World} {name : String} {d : Deed} (h : d.Aside) :
    w.SparesCrew name d ∧ d.Misses name := by
  cases d with
  | runner n f => exact h.elim
  | spawn t => exact h.elim
  | cancel id => exact h.elim
  | remove id => exact h.elim
  | _ => exact ⟨trivial, trivial⟩

end JobFleet
