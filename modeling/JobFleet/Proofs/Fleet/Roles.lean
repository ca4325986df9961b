import JobFleet.Proofs.Fleet.Frame
import JobFleet.Proofs.Fleet.Seats

/-!
# Roles around a scheduler's lock

Three kinds of tasks matter to a scheduler's lock: main loops, which run while it is held,
extenders, which renew it, and stops, which give it back. A step of any other task, and every move
that is no step, leaves these roles and the sessions of schedulers alone, but for stops that are
asked for and main loops that end.
-/

namespace JobFleet

/-- What a task is to a scheduler's lock. -/
inductive Role
  | leads (scheduler : String) (cancelled : Bool)
  | renews (x : Schedule.Extender)
  | stops (scheduler : String) (p : Schedule.StopPhase)

/-- The role of a task, if it has one. -/
def Task.role? : Task → Option Role
  | .mainLoop m => some (.leads m.scheduler m.cancelled)
  | .extender x => some (.renews x)
  | .operation (.stopScheduler name p) => some (.stops name p)
  | .operation (.shutdownApp name (.scheduler p)) => some (.stops name p)
  | _ => none

/-- The role of a task that has been cancelled; a stop takes no notice. -/
def Role.cancel : Role → Role
  | .leads scheduler _ => .leads scheduler true
  | .renews x => .renews { x with cancelled := true }
  | .stops scheduler p => .stops scheduler p

namespace World

/-- The role of the task with a number. -/
def role (w : World) (i : TaskId) : Option Role := (w.tasks.find? i).bind Task.role?

/-- The lock of a scheduler. -/
def lock? (w : World) (name : String) : Option Lock := (w.schedulers.find? name).map Scheduler.lock

/-- The session of a scheduler. -/
def session? (w : World) (name : String) : Option Schedule.Session :=
  (w.schedulers.find? name).bind Scheduler.session

variable {w v : World} {i : TaskId}

/-- The role of a number is that of its task. -/
theorem role_of_find? {t : Task} (h : w.tasks.find? i = some t) : w.role i = t.role? := by
  rw [role, h]
  rfl

/-- Who is not there has no role. -/
theorem role_of_none (h : w.tasks.find? i = none) : w.role i = none := by
  rw [role, h]
  rfl

/-- Roles are read off the tasks. -/
theorem role_of_tasks (h : v.tasks = w.tasks) : v.role i = w.role i := by
  rw [role, h, role]

/-- A call leaves the roles alone. -/
@[simp] theorem role_perform {a : Answer} (w : World) (c : Call a) (i : TaskId) :
    (w.perform c).2.role i = w.role i := role_of_tasks (w.perform_tasks c)

/-- A new task comes with its role. -/
theorem role_spawn (w : World) (t : Task) (i : TaskId) :
    (w.spawn t).2.role i = if i = w.nextTask then t.role? else w.role i := by
  have hf : (w.spawn t).2.tasks.find? i = if i = w.nextTask then some t else w.tasks.find? i :=
    Table.find?_insert _ _ _ _
  rw [role, hf]
  split <;> rfl

/-- A task that is removed has no role. -/
theorem role_endTask (w : World) (id i : TaskId) :
    (w.endTask id).role i = if i = id then none else w.role i := by
  have hf : (w.endTask id).tasks.find? i = if i = id then none else w.tasks.find? i :=
    Table.find?_erase _ _ _
  rw [role, hf]
  split <;> rfl

/-- Filing what is left of a task changes its own role alone. -/
theorem role_put (w : World) (id : TaskId) (left : Option Task) (i : TaskId) :
    (w.put id left).role i = if i = id then left.bind Task.role? else w.role i := by
  rw [role, put_find?]
  split <;> rfl

/-- Cancelling changes the role of one task. -/
theorem role_cancel (w : World) (id i : TaskId) :
    (w.cancel id).role i = if i = id then (w.role i).map Role.cancel else w.role i := by
  unfold role cancel
  rw [Table.find?_modify]
  split
  · rename_i hi
    subst hi
    cases w.tasks.find? i with
    | none => rfl
    | some t =>
        cases t with
        | operation o =>
            cases o with
            | shutdownApp name p => cases p <;> rfl
            | _ => rfl
        | _ => rfl
  · rfl

/-- Tasks of a sort that has no part in locks have no role. -/
theorem Kind.role_worker (h : w.Kind i .worker) : w.role i = none := by
  cases ht : w.tasks.find? i with
  | none => exact role_of_none ht
  | some t =>
      rw [role_of_find? ht]
      cases t with
      | worker k => rfl
      | _ => cases h.unique ht

/-- A handler's call has no role. -/
theorem Kind.role_handler (h : w.Kind i .handler) : w.role i = none := by
  cases ht : w.tasks.find? i with
  | none => exact role_of_none ht
  | some t =>
      rw [role_of_find? ht]
      cases t with
      | handler c => rfl
      | _ => cases h.unique ht

/-- The role of a main loop is to lead. -/
theorem Kind.role_mainLoop (h : w.Kind i .mainLoop) {r : Role}
    (hr : w.role i = some r) : ∃ name c, r = .leads name c := by
  obtain ⟨t, ht, hrole⟩ := Option.bind_eq_some_iff.mp hr
  cases t with
  | mainLoop m => exact ⟨m.scheduler, m.cancelled, (Option.some.inj hrole).symm⟩
  | _ => cases h.unique ht

/-- The role of an extender is to renew. -/
theorem Kind.role_extender (h : w.Kind i .extender) {r : Role}
    (hr : w.role i = some r) : ∃ x, r = .renews x := by
  obtain ⟨t, ht, hrole⟩ := Option.bind_eq_some_iff.mp hr
  cases t with
  | extender x => exact ⟨x, (Option.some.inj hrole).symm⟩
  | _ => cases h.unique ht

/-- A main loop that has been cancelled stays so. -/
theorem not_leads_cancel (w : World) (j : TaskId) (name : String) :
    (w.cancel j).role j ≠ some (.leads name false) := by
  rw [role_cancel, if_pos rfl]
  cases w.role j with
  | none => nofun
  | some r => cases r <;> nofun

/-- A call leaves the schedulers' locks alone. -/
@[simp] theorem lock?_perform {a : Answer} (w : World) (c : Call a) (name : String) :
    (w.perform c).2.lock? name = w.lock? name := by
  rw [lock?, perform_schedulers, lock?]

/-- A call leaves the sessions alone. -/
@[simp] theorem session?_perform {a : Answer} (w : World) (c : Call a) (name : String) :
    (w.perform c).2.session? name = w.session? name := by
  rw [session?, perform_schedulers, session?]

/-- A change that keeps a scheduler's lock keeps all of them. -/
theorem lock?_modifyScheduler {f : Scheduler → Scheduler} (hf : ∀ s, (f s).lock = s.lock)
    (w : World) (n name : String) : (w.modifyScheduler n f).lock? name = w.lock? name := by
  unfold lock? modifyScheduler
  rw [Table.find?_modify]
  split
  · rename_i hn
    subst hn
    rw [Option.map_map]
    congr 1
    exact funext hf
  · rfl

/-- Deeds that give no scheduler another lock. -/
theorem Via.lock? {D : Deed → Prop} (h : w.Via D v) (hD : ∀ d, D d → d.KeepsLock)
    (name : String) : v.lock? name = w.lock? name := by
  refine h.keeps (P := fun u => u.lock? name = w.lock? name) ?_ rfl
  intro u d hd hu
  refine Eq.trans ?_ hu
  have hk := hD d hd
  cases d with
  | scheduler n f => exact lock?_modifyScheduler hk u n name
  | call c => exact u.lock?_perform c.2 name
  | _ => rfl

/-- Filing what is left of a task leaves the schedulers' locks alone. -/
@[simp] theorem lock?_put (w : World) (id : TaskId) (left : Option Task) (name : String) :
    (w.put id left).lock? name = w.lock? name := by
  cases left <;> rfl

/-- Filing what is left of a task leaves the sessions alone. -/
@[simp] theorem session?_put (w : World) (id : TaskId) (left : Option Task) (name : String) :
    (w.put id left).session? name = w.session? name := by
  cases left <;> rfl

/-- Filing what is left of a task takes no time. -/
@[simp] theorem put_now (w : World) (id : TaskId) (left : Option Task) :
    (w.put id left).now = w.now := by
  cases left <;> rfl

/-- A change of one scheduler changes its session alone. -/
theorem session?_modifyScheduler {f : Scheduler → Scheduler} (w : World) (n name : String) :
    (w.modifyScheduler n f).session? name =
      if name = n then ((w.schedulers.find? n).map f).bind Scheduler.session
      else w.session? name := by
  unfold session? modifyScheduler
  rw [Table.find?_modify]
  split <;> rfl

/-- A change that keeps a scheduler's session keeps all of them. -/
theorem session?_modifyScheduler_of_eq {f : Scheduler → Scheduler}
    (hf : ∀ s, (f s).session = s.session) (w : World) (n name : String) :
    (w.modifyScheduler n f).session? name = w.session? name := by
  rw [session?_modifyScheduler]
  split
  · rename_i hn
    subst hn
    unfold session?
    cases w.schedulers.find? name with
    | none => rfl
    | some s => exact hf s
  · rfl

/-! ## What leaves roles alone -/

/-- A deed that changes no role and no session, given the world in which a step begins. -/
def Blind (w : World) : Deed → Prop
  | .spawn t => t.role? = none
  | .cancel i => w.Kind i .worker
  | .remove i => w.Kind i .handler
  | .scheduler _ f => ∀ s : Scheduler, (f s).lock = s.lock ∧ (f s).session = s.session
  | _ => True

/-- Two worlds with the same roles, locks and sessions at the same instant. -/
structure Alike (w v : World) : Prop where
  now : v.now = w.now
  role : ∀ i, v.role i = w.role i
  lock : ∀ name, v.lock? name = w.lock? name
  session : ∀ name, v.session? name = w.session? name

/-- A world is like itself. -/
theorem Alike.refl (w : World) : w.Alike w := ⟨rfl, fun _ => rfl, fun _ => rfl, fun _ => rfl⟩

/-- Worlds that are like one another have the same roles, sessions and locks. -/
theorem Alike.trans {u : World} (h : w.Alike u) (h' : u.Alike v) : w.Alike v where
  now := h'.now.trans h.now
  role := fun i => (h'.role i).trans (h.role i)
  lock := fun name => (h'.lock name).trans (h.lock name)
  session := fun name => (h'.session name).trans (h.session name)

/-- A call changes no role, session or lock. -/
theorem alike_perform {a : Answer} (w : World) (c : Call a) : w.Alike (w.perform c).2 where
  now := w.perform_now c
  role := w.role_perform c
  lock := w.lock?_perform c
  session := w.session?_perform c

/-- What a call leaves is like the world that it was made in. -/
theorem alike_of_perform {a : Answer} {c : Call a} {r : Except StoreError a.Value} {u : World}
    (h : w.perform c = (r, u)) : w.Alike u := by
  have ha := w.alike_perform c
  rw [h] at ha
  exact ha

/-- A change of a scheduler that keeps its lock and its session. -/
theorem alike_modifyScheduler {f : Scheduler → Scheduler}
    (hf : ∀ s, (f s).lock = s.lock ∧ (f s).session = s.session) (w : World) (name : String) :
    w.Alike (w.modifyScheduler name f) where
  now := rfl
  role := fun _ => rfl
  lock := w.lock?_modifyScheduler (fun s => (hf s).1) name
  session := w.session?_modifyScheduler_of_eq (fun s => (hf s).2) name

/-- An event that is logged changes no role, session or lock. -/
theorem Alike.log {u : World} (h : w.Alike u) (e : Event) : w.Alike (u.log e) :=
  ⟨h.now, h.role, h.lock, h.session⟩

/-- Cancelling a main loop changes no other role. -/
theorem Alike.role_cancel {u : World} (h : w.Alike u) {j : TaskId} (hk : w.Kind j .mainLoop)
    (i : TaskId) : (u.cancel j).role i = w.role i ∨
      ∃ name c, w.role i = some (.leads name c) ∧
        (u.cancel j).role i = some (.leads name true) := by
  rw [World.role_cancel, h.role]
  split
  · rename_i hi
    subst hi
    cases hr : w.role i with
    | none => exact .inl rfl
    | some r =>
        obtain ⟨name, c, rfl⟩ := hk.role_mainLoop hr
        exact .inr ⟨name, c, rfl, rfl⟩
  · exact .inl rfl

/-- A blind deed changes no role, session or lock. -/
theorem alike_does {u : World} {d : Deed} (hu : w.Via (fun _ => True) u) (hf : u.Fresh)
    (hd : w.Blind d) : u.Alike (u.does d) := by
  cases d with
  | spawn t =>
      refine ⟨rfl, ?_, fun _ => rfl, fun _ => rfl⟩
      intro i
      have hr := u.role_spawn t i
      split at hr
      · rename_i hi
        subst hi
        exact hr.trans (hd.trans (role_of_none (hf _ (Nat.le_refl _))).symm)
      · exact hr
  | cancel id =>
      refine ⟨rfl, ?_, fun _ => rfl, fun _ => rfl⟩
      intro i
      have hr := u.role_cancel id i
      split at hr
      · rename_i hi
        subst hi
        have hn : u.role i = none := (hu.kind hd).role_worker
        rw [hn] at hr ⊢
        exact hr
      · exact hr
  | remove id =>
      refine ⟨rfl, ?_, fun _ => rfl, fun _ => rfl⟩
      intro i
      have hr := u.role_endTask id i
      split at hr
      · rename_i hi
        subst hi
        exact hr.trans (hu.kind hd).role_handler.symm
      · exact hr
  | call c => exact u.alike_perform c.2
  | scheduler name f => exact alike_modifyScheduler hd u name
  | _ => exact ⟨rfl, fun _ => rfl, fun _ => rfl, fun _ => rfl⟩

/-- A deed leaves no task under a number that is still to be given. -/
theorem Fresh.does (h : w.Fresh) (d : Deed) : (w.does d).Fresh := by
  intro i hi
  have hle : w.nextTask ≤ i := Nat.le_trans (w.does_nextTask d) hi
  cases d with
  | spawn t =>
      have hlt : w.nextTask < i := hi
      refine (Table.find?_insert_of_ne _ t ?_).trans (h i hle)
      exact Nat.ne_of_gt hlt
  | cancel id =>
      refine (Table.find?_modify _ _ _ _).trans ?_
      split
      · rename_i hid
        rw [← hid, h i hle]
        rfl
      · exact h i hle
  | remove id =>
      refine (Table.find?_erase _ _ _).trans ?_
      rw [h i hle, ite_self]
  | call c =>
      rw [World.does, perform_tasks]
      exact h i hle
  | _ => exact h i hle

/-- Deeds that are blind to roles leave them alone. -/
theorem Via.alike {D : Deed → Prop} (hv : w.Via D v) (hf : w.Fresh) (hD : ∀ d, D d → w.Blind d) :
    w.Alike v := by
  have hall : w.Via (fun _ => True) v ∧ v.Fresh ∧ w.Alike v := by
    refine hv.keeps (P := fun u => w.Via (fun _ => True) u ∧ u.Fresh ∧ w.Alike u) ?_
      ⟨.same, hf, .refl w⟩
    rintro u d hd ⟨hu, hfu, ha⟩
    exact ⟨.next hu d trivial, hfu.does d, ha.trans (alike_does hu hfu (hD d hd))⟩
  exact hall.2.2

end World

/-- What a task may do that controls no scheduler is blind to roles. -/
theorem Task.MayDo.blind {w : World} {t : Task} {d : Deed} {id : TaskId} (h : Task.MayDo w t d)
    (ht : w.tasks.find? id = some t) (hc : t.controls = false) (hs : w.Sound) (hw : w.Seated) :
    w.Blind d := by
  have haside : ∀ d : Deed, d.Aside → w.Blind d := by
    intro d hd
    cases d with
    | spawn t => exact hd.elim
    | cancel i => exact hd.elim
    | remove i => exact hd.elim
    | scheduler name f => exact fun s => ⟨(hd s).1, (hd s).2.1⟩
    | _ => trivial
  cases h with
  | aside h => exact haside d h
  | handIn _ h =>
      cases h with
      | spawn _ => exact rfl
      | _ => trivial
  | worker hk h =>
      subst hk
      cases h with
      | spawn _ => exact rfl
      | remove hp =>
          obtain ⟨c, hcall⟩ := hs.called id _ _ ht (by rw [Task.awaits?, hp]; rfl)
          exact World.Kind.of_find? hs.fresh hcall
      | _ => trivial
  | stopWorker _ hr hslot => exact hw _ _ _ hr hslot
  | control h _ =>
      rw [hc] at h
      cases h
  | _ => trivial

/-- A main loop that goes on is of the same scheduler, and as cancelled as it was. -/
theorem Schedule.MainLoop.step_kept {self : TaskId} {w : World} {m m' : Schedule.MainLoop}
    (h : (m.step self w).1 = .on m') :
    m'.scheduler = m.scheduler ∧ m'.cancelled = m.cancelled := by
  obtain ⟨scheduler, cancelled, phase⟩ := m
  cases cancelled with
  | true => cases phase <;> cases h
  | false =>
      cases phase with
      | sleeping wake =>
          cases h
          exact ⟨rfl, rfl⟩
      | cycling c =>
          simp only [step, Bool.false_eq_true, if_false] at h
          split at h
          · cases h
            exact ⟨rfl, rfl⟩
          · unfold afterCycle at h
            split at h <;> cases h <;> exact ⟨rfl, rfl⟩

/-- An operation that controls no scheduler has no role. -/
theorem Operation.role_of_quiet {o : Operation} (hc : (Task.operation o).controls = false) :
    (Task.operation o).role? = none := by
  cases o with
  | startScheduler name p => cases hc
  | stopScheduler name p => cases hc
  | startApp name p =>
      cases p with
      | scheduler p => cases hc
      | pinging => rfl
  | shutdownApp name p =>
      cases p with
      | scheduler p => cases hc
      | _ => rfl
  | _ => rfl

/-- An operation that controls no scheduler gets no role by a step. -/
theorem Operation.step_role {self : TaskId} {w : World} {o o' : Operation}
    (hc : (Task.operation o).controls = false) (hs : (o.step self w).1 = .on o') :
    (Task.operation o').role? = none := by
  cases o with
  | startScheduler name p => cases hc
  | stopScheduler name p => cases hc
  | shutdownApp name p =>
      obtain ⟨p', hp, rfl⟩ := Progress.map_on hs
      cases p with
      | scheduler p => cases hc
      | draining p =>
          simp only at hp
          split at hp <;> cases hp <;> rfl
      | stopping p =>
          simp only at hp
          split at hp
          · cases hp
            rfl
          · cases hp
  | drain runner deadline p =>
      simp only [Operation.step, Operation.stepDrain] at hs
      split at hs
      · split at hs
        · cases hs
        · cases hs
          rfl
      · cases hs
  | _ =>
      obtain ⟨p', -, rfl⟩ := Progress.map_on hs
      rfl

/-- What a step makes of the role of a task that controls no scheduler: a main loop keeps it, or
ends. -/
theorem Task.act_role {t : Task} (self : TaskId) (w : World) (hc : t.controls = false) :
    (t.act self w).1.bind Task.role? = t.role? ∨
      (∃ name c, t.role? = some (.leads name c)) ∧ (t.act self w).1 = none := by
  cases t with
  | worker k =>
      left
      cases hl : (Task.act self w (.worker k)).1 with
      | none => rfl
      | some t' =>
          obtain ⟨k', -, rfl⟩ := Progress.kept_none hl
          rfl
  | handler c => exact .inl rfl
  | ended r => exact .inl rfl
  | extender x => cases hc
  | mainLoop m =>
      cases hl : (Task.act self w (.mainLoop m)).1 with
      | none => exact .inr ⟨⟨m.scheduler, m.cancelled, rfl⟩, rfl⟩
      | some t' =>
          left
          obtain ⟨m', hm, rfl⟩ := Progress.kept_none hl
          obtain ⟨hscheduler, hcancelled⟩ := Schedule.MainLoop.step_kept hm
          rw [Option.bind_some, Task.role?, hscheduler, hcancelled]
          rfl
  | operation o =>
      left
      rw [Operation.role_of_quiet hc]
      simp only [act]
      cases hs : (o.step self w).1 with
      | ended r => rfl
      | on o' => exact Operation.step_role hc hs

/-! ## Quiet moves -/

namespace World

/-- Between two worlds nothing has happened that concerns a lock: at most a main loop has ended, a
stop that had not begun has ended, or another one has been asked for. -/
structure Quiet (lockName : String) (w v : World) : Prop where
  now : v.now = w.now
  entry : v.entry (lockKey lockName) = w.entry (lockKey lockName)
  role : ∀ i r, v.role i = some r →
    w.role i = some r ∨ w.role i = none ∧ ∃ name, r = .stops name .entering
  kept : ∀ i r, w.role i = some r →
    v.role i = some r ∨ (∃ name c, r = .leads name c) ∨ ∃ name, r = .stops name .entering
  lock : ∀ name l, w.lock? name = some l → v.lock? name = some l
  session : ∀ name, v.session? name = w.session? name

variable {w v u : World} {lockName : String}

/-- A step that leaves roles alone but may end its own. -/
theorem Quiet.of_put (h : w.Alike u)
    (he : u.entry (lockKey lockName) = w.entry (lockKey lockName)) {id : TaskId}
    {left : Option Task} (hleft : left.bind Task.role? = w.role id ∨
      left.bind Task.role? = none ∧ ((∃ name c, w.role id = some (.leads name c)) ∨
        ∃ name, w.role id = some (.stops name .entering))) :
    Quiet lockName w (u.put id left) where
  now := by
    cases left <;> exact h.now
  entry := (put_entry u id left _).trans he
  role := by
    intro i r hr
    rw [role_put] at hr
    split at hr
    · rename_i hi
      subst hi
      rcases hleft with hsame | ⟨hnone, -⟩
      · exact .inl (hsame.symm.trans hr)
      · rw [hnone] at hr
        cases hr
    · exact .inl ((h.role i).symm.trans hr)
  kept := by
    intro i r hr
    rw [role_put]
    split
    · rename_i hi
      subst hi
      rcases hleft with hsame | ⟨-, ⟨name, c, hl⟩ | ⟨name, hs⟩⟩
      · exact .inl (hsame.trans hr)
      · rw [hr] at hl
        exact .inr (.inl ⟨name, c, Option.some.inj hl⟩)
      · rw [hr] at hs
        exact .inr (.inr ⟨name, Option.some.inj hs⟩)
    · exact .inl ((h.role i).trans hr)
  lock := by
    intro name l hl
    rw [← hl, ← h.lock name]
    cases left <;> rfl
  session := by
    intro name
    rw [← h.session name]
    cases left <;> rfl

/-- A lock's entry changes only where a task that controls a scheduler takes a step, where somebody
intrudes, or where it lapses. -/
theorem lock_kept (hsp : w.Spared (lockKey lockName)) {m : Move} (hm : w.Admits m)
    (hi : ¬ w.Intrudes (lockKey lockName) m) (hl : ¬ w.Lapses (lockKey lockName) m)
    (hc : ∀ id t, m = .step id → w.tasks.find? id = some t → t.controls = false) :
    (w.move m).entry (lockKey lockName) = w.entry (lockKey lockName) := by
  refine entry_kept hsp hm hi hl ?_
  rintro id t rfl ht hwr
  generalize hk : lockKey lockName = k at hwr hi
  cases hwr with
  | claim _ _ => exact lockKey_ne_statusKey _ _ hk
  | counter _ => exact lockKey_ne_jobCounterKey _ hk
  | status _ _ => exact lockKey_ne_statusKey _ _ hk
  | scribble hscr =>
      refine hi ?_
      rw [Intrudes, ht]
      exact hscr
  | attempts => exact counterKey_ne_lockKey _ _ hk.symm
  | lock h =>
      rw [hc id t rfl ht] at h
      cases h

/-- A step of a task that controls no scheduler is quiet, unless it intrudes. -/
theorem Sound.quiet_step (hs : w.Sound) (hw : w.Seated) (hsp : w.Spared (lockKey lockName))
    {id : TaskId} {t : Task} (ht : w.tasks.find? id = some t) (hc : t.controls = false)
    (hm : w.Admits (.step id)) (hi : ¬ w.Intrudes (lockKey lockName) (.step id)) :
    Quiet lockName w (w.move (.step id)) := by
  obtain ⟨t', ht', -, he⟩ := move_step hm
  cases ht.symm.trans ht'
  have hentry := lock_kept hsp hm hi nofun fun i u hi' hu => by
    cases hi'
    cases ht.symm.trans hu
    exact hc
  rw [he, put_entry] at hentry
  have hvia := t.act_via id w
  rw [he]
  refine .of_put (hvia.alike hs.fresh fun _ hd => hd.blind ht hc hs hw)
    hentry ?_
  rw [role_of_find? ht]
  rcases Task.act_role id w hc with hsame | ⟨hlead, hnone⟩
  · exact .inl hsame
  · rw [hnone]
    exact .inr ⟨rfl, .inl hlead⟩

/-- An operation that is asked for has no role, or is a stop that has not begun. -/
theorem role_of_fresh {o : Operation} (ho : o.fresh = true) :
    (Task.operation o).role? = none ∨
      ∃ name, (Task.operation o).role? = some (.stops name .entering) := by
  cases o with
  | stopScheduler name p =>
      have hp : p = .entering := of_decide_eq_true ho
      exact .inr ⟨name, by rw [hp]; rfl⟩
  | shutdownApp name p =>
      cases p with
      | scheduler p =>
          cases p with
          | entering => exact .inr ⟨name, rfl⟩
          | _ => cases ho
      | _ => cases ho
  | _ => exact .inl rfl

/-- Between two worlds roles, locks and sessions have stayed, but for stops that have been asked
for. -/
structure Still (w v : World) : Prop where
  role : ∀ i r, v.role i = some r →
    w.role i = some r ∨ w.role i = none ∧ ∃ name, r = .stops name .entering
  kept : ∀ i r, w.role i = some r → v.role i = some r
  lock : ∀ name l, w.lock? name = some l → v.lock? name = some l
  session : ∀ name, v.session? name = w.session? name

/-- Where no role, session or lock changes, nothing happens to them. -/
theorem Still.of_alike (h : w.Alike v) : w.Still v where
  role := fun i _ hr => .inl ((h.role i).symm.trans hr)
  kept := fun i _ hr => (h.role i).trans hr
  lock := fun name _ hl => (h.lock name).trans hl
  session := h.session

/-- What is set up leaves the schedulers that there are their locks and sessions. -/
theorem SetUp.still (hu : w.SetUp v) : w.Still v := by
  have hfind : ∀ name, v.schedulers.find? name = w.schedulers.find? name ∨
      w.schedulers.find? name = none ∧ (∃ lock source service,
        v.schedulers.find? name = some (.new lock source service)) ∨
      ∃ f, (∀ s : Scheduler, (f s).lock = s.lock ∧ (f s).session = s.session) ∧
        v.schedulers.find? name = (w.schedulers.find? name).map f := by
    intro name
    rcases hu.schedulers with he | ⟨n, lock, source, service, hn, he⟩ | ⟨n, f, hf, he⟩
    · rw [he]
      exact .inl rfl
    · rw [he, Table.find?_insert]
      split
      · rename_i hname
        exact .inr (.inl ⟨hname ▸ hn, lock, source, service, rfl⟩)
      · exact .inl rfl
    · rw [he, Table.find?_modify]
      split
      · rename_i hname
        exact .inr (.inr ⟨f, fun s => ⟨(hf s).1, (hf s).2.1⟩, by rw [hname]⟩)
      · exact .inl rfl
  constructor
  case role => exact fun i r hr => .inl ((role_of_tasks hu.tasks).symm.trans hr)
  case kept => exact fun i r hr => (role_of_tasks hu.tasks).trans hr
  case lock =>
    intro name l hl
    rcases hfind name with he | ⟨hn, -⟩ | ⟨f, hf, he⟩
    · rw [lock?, he]
      exact hl
    · rw [lock?, hn] at hl
      cases hl
    · rw [lock?, he, Option.map_map, ← hl, lock?]
      congr 1
      exact funext fun s => (hf s).1
  case session =>
    intro name
    rcases hfind name with he | ⟨hn, lock, source, service, he⟩ | ⟨f, hf, he⟩
    · rw [session?, he, session?]
    · rw [session?, he, session?, hn]
      rfl
    · rw [session?, he, session?]
      cases w.schedulers.find? name with
      | none => rfl
      | some s => exact (hf s).2

/-- A move that is no step leaves roles, locks and sessions alone, but for a stop that it asks
for. -/
theorem Fresh.still (hs : w.Fresh) {m : Move} (hm : w.Admits m) (hstep : ∀ id, m ≠ .step id) :
    w.Still (w.move m) := by
  cases hset : m.setsUp with
  | true => exact (move_setUp hset hm).still
  | false =>
      cases m with
      | step id => exact absurd rfl (hstep id)
      | launch o =>
          have hrole : ∀ i, (w.move (.launch o)).role i =
              if i = w.nextTask then (Task.operation o).role? else w.role i :=
            w.role_spawn (.operation o)
          refine ⟨?_, ?_, fun _ _ hl => hl, fun _ => rfl⟩
          · intro i r hr
            rw [hrole] at hr
            split at hr
            · rename_i hnew
              refine .inr ⟨role_of_none (hs i (Nat.le_of_eq hnew.symm)), ?_⟩
              rcases role_of_fresh hm with hn | ⟨name, hn⟩
              · rw [hn] at hr
                cases hr
              · rw [hn] at hr
                exact ⟨name, (Option.some.inj hr).symm⟩
            · exact .inl hr
          · intro i r hr
            rw [hrole, if_neg]
            · exact hr
            · rintro rfl
              rw [role_of_none (hs _ (Nat.le_refl _))] at hr
              cases hr
      | collect id =>
          obtain ⟨r, hr⟩ := hm
          refine .of_alike ⟨rfl, ?_, fun _ => rfl, fun _ => rfl⟩
          intro i
          have he := w.role_endTask id i
          split at he
          · rename_i hi
            subst hi
            exact he.trans (role_of_find? hr).symm
          · exact he
      | call c => exact .of_alike (w.alike_perform c.2)
      | pass t => exact ⟨fun _ _ hr => .inl hr, fun _ _ hr => hr, fun _ _ hl => hl, fun _ => rfl⟩
      | disturb f => exact .of_alike ⟨rfl, fun _ => rfl, fun _ => rfl, fun _ => rfl⟩
      | reach value => exact .of_alike ⟨rfl, fun _ => rfl, fun _ => rfl, fun _ => rfl⟩
      | _ => cases hset

/-- A move that is no step and lets no time pass does so at one instant. -/
theorem move_now {m : Move} (hm : w.Admits m) (hstep : ∀ id, m ≠ .step id)
    (hpass : ∀ t, m ≠ .pass t) : (w.move m).now = w.now := by
  cases hset : m.setsUp with
  | true => exact (move_setUp hset hm).now
  | false =>
      cases m with
      | step id => exact absurd rfl (hstep id)
      | pass t => exact absurd rfl (hpass t)
      | call c => exact w.perform_now c.2
      | launch o => rfl
      | collect id => rfl
      | disturb f => rfl
      | reach value => rfl
      | _ => cases hset

/-- A step takes no time. -/
theorem step_now {id : TaskId} (hm : w.Admits (.step id)) : (w.move (.step id)).now = w.now := by
  obtain ⟨t, -, -, he⟩ := move_step hm
  rw [he, put_now]
  exact (t.act_via id w).now

/-- Time passes only in a move that lets it pass. -/
theorem now_kept {m : Move} (hm : w.Admits m) (hpass : ∀ t, m ≠ .pass t) :
    (w.move m).now = w.now := by
  cases m with
  | step id => exact step_now hm
  | pass t => exact absurd rfl (hpass t)
  | _ => exact move_now hm nofun nofun

/-- Time never goes back. -/
theorem now_le_move {m : Move} (hm : w.Admits m) : w.now ≤ (w.move m).now := by
  cases m with
  | pass t => exact hm
  | _ => exact Nat.le_of_eq (now_kept hm nofun).symm

/-- Time does not go back. -/
theorem History.now_le {rule : World → Move → Prop} {v : World} {ms : List Move}
    (h : History rule v ms w) : v.now ≤ w.now :=
  h.keeps (P := fun u => v.now ≤ u.now) (Nat.le_refl _)
    fun _ _ hm _ hu => Nat.le_trans hu (now_le_move hm)

/-- A move that is no step and lets no time pass is quiet, unless it intrudes. -/
theorem Sound.quiet_move (hs : w.Sound) (hsp : w.Spared (lockKey lockName)) {m : Move}
    (hm : w.Admits m) (hi : ¬ w.Intrudes (lockKey lockName) m) (hstep : ∀ id, m ≠ .step id)
    (hpass : ∀ t, m ≠ .pass t) : Quiet lockName w (w.move m) where
  now := move_now hm hstep hpass
  entry := by
    refine lock_kept hsp hm hi ?_ fun id t he => absurd he (hstep id)
    intro hl
    cases m with
    | pass t => exact hpass t rfl
    | _ => exact hl
  role := (hs.fresh.still hm hstep).role
  kept := fun i r hr => .inl ((hs.fresh.still hm hstep).kept i r hr)
  lock := (hs.fresh.still hm hstep).lock
  session := (hs.fresh.still hm hstep).session

end World

end JobFleet
