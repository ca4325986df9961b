import JobFleet.Proofs.Fleet.Moves

/-!
# Who waits for whom

In every world that a history from an empty one leads to, tasks have the numbers below the next
one, a handler's call is there as long as a worker waits for it, exactly one worker waits for
each call, and each worker works for a runner that is there.
-/

namespace JobFleet

/-- A task without the mark that it has been cancelled. -/
def Task.core : Task → Task
  | .worker k => .worker { k with cancelled := false }
  | .mainLoop m => .mainLoop { m with cancelled := false }
  | .extender x => .extender { x with cancelled := false }
  | t => t

/-- The handler's call that a worker waits for. -/
def Worker.Phase.awaits? : Worker.Phase → Option TaskId
  | .awaiting _ id => some id
  | _ => none

/-- The handler's call that a task waits for. -/
def Task.awaits? : Task → Option TaskId
  | .worker k => k.phase.awaits?
  | _ => none

/-- The runner that a worker works for. -/
def Task.employer? : Task → Option String
  | .worker k => some k.runner
  | _ => none

/-- Cancelling does not change what a task waits for. -/
@[simp] theorem Task.core_awaits? (t : Task) : t.core.awaits? = t.awaits? := by cases t <;> rfl

/-- Cancelling does not change whom a task works for. -/
@[simp] theorem Task.core_employer? (t : Task) : t.core.employer? = t.employer? := by
  cases t <;> rfl

/-- Cancelling does not change the sort of a task. -/
@[simp] theorem Task.core_sort (t : Task) : t.core.sort = t.sort := by cases t <;> rfl

/-- A handler's call is not changed by cancelling. -/
theorem Task.core_eq_handler {t : Task} {h : HandlerCall} (ht : t.core = .handler h) :
    t = .handler h := by
  cases t with
  | handler _ => exact ht
  | _ => cases ht

/-- A task that is a worker but for who has cancelled it is one in the same phase. -/
theorem Task.core_eq_worker {t : Task} {k : Worker} (h : t.core = (Task.worker k).core) :
    ∃ k', t = .worker k' ∧ k'.phase = k.phase ∧ k'.runner = k.runner := by
  cases t with
  | worker k' =>
      injection h with hk
      injection hk with hr _ _ hp
      exact ⟨k', rfl, hp, hr⟩
  | _ => cases h

/-- The only tasks of a handler's sort are handlers' calls. -/
theorem Task.sort_eq_handler {t : Task} (h : t.sort = .handler) : ∃ c, t = .handler c := by
  cases t with
  | handler c => exact ⟨c, rfl⟩
  | _ => cases h

/-- A task as it is when a step starts it or somebody asks for it. Calls of handlers are not
among these: a worker starts them, and waits for them from then on. -/
inductive Task.Begins (w : World) : Task → Prop
  | worker {k : Worker} (hp : k.phase = .starting)
      (hr : ∃ r, w.runners.find? k.runner = some r) : Begins w (.worker k)
  | mainLoop {m : Schedule.MainLoop} (hp : m.phase = .cycling (.start m.scheduler false)) :
      Begins w (.mainLoop m)
  | extender {x : Schedule.Extender} {wake : Nat} (hp : x.phase = .resting wake) :
      Begins w (.extender x)
  | operation {o : Operation} (ho : o.fresh = true) : Begins w (.operation o)

/-- A task that is launched is no handler's call. -/
theorem Task.Begins.sort_ne {w : World} {t : Task} (h : t.Begins w) : t.sort ≠ .handler := by
  cases h <;> exact nofun

/-- A task at its beginning waits for no call. -/
theorem Task.Begins.idle {w : World} {t : Task} (h : t.Begins w) : t.awaits? = none := by
  cases h with
  | worker hp hr =>
      rw [Task.awaits?, hp]
      rfl
  | _ => rfl

/-- A worker starts for a runner that is there. -/
theorem Task.Begins.employed {w : World} {t : Task} {name : String} (h : t.Begins w)
    (hname : t.employer? = some name) : ∃ r, w.runners.find? name = some r := by
  cases h with
  | worker hp hr =>
      cases hname
      exact hr
  | _ => cases hname

/-- That a task has been cancelled makes no difference to how it begins. -/
theorem Task.Begins.of_core {w : World} {t t' : Task} (h : t.Begins w) (hc : t.core = t'.core) :
    t'.Begins w := by
  cases h with
  | worker hp hr =>
      obtain ⟨k', rfl, hp', hr'⟩ := Task.core_eq_worker hc.symm
      exact .worker (hp'.trans hp) (hr' ▸ hr)
  | mainLoop hp =>
      cases t' with
      | mainLoop m' =>
          injection hc with hm
          injection hm with hs _ hp'
          exact .mainLoop (by rw [← hp', hp, hs])
      | _ => cases hc
  | extender hp =>
      cases t' with
      | extender x' =>
          injection hc with hx
          injection hx with _ _ _ hp'
          exact .extender (hp' ▸ hp)
      | _ => cases hc
  | operation ho =>
      cases t' with
      | operation o' =>
          cases hc
          exact .operation ho
      | _ => cases hc

namespace World

/-- Nothing is filed under a number that is still to be given. -/
def Fresh (w : World) : Prop := ∀ i, w.nextTask ≤ i → w.tasks.find? i = none

/-- Numbers that are taken are below the next one. -/
theorem Fresh.lt {w : World} (h : w.Fresh) {i : TaskId} {t : Task}
    (ht : w.tasks.find? i = some t) : i < w.nextTask := by
  by_cases hi : i < w.nextTask
  · exact hi
  · rw [h i (Nat.le_of_not_lt hi)] at ht
    cases ht

/-- Cancelling changes tasks only in whether they are cancelled. -/
theorem cancel_find? (w : World) (id i : TaskId) :
    ((w.cancel id).tasks.find? i).map Task.core = (w.tasks.find? i).map Task.core := by
  unfold cancel
  rw [Table.find?_modify]
  split
  · rename_i hi
    rw [hi, Option.map_map]
    congr 1
    funext t
    cases t <;> rfl
  · rfl

/-- A deed that removes no task and starts none but at its beginning. -/
def Grows (w : World) : Deed → Prop
  | .spawn t => t.Begins w
  | .remove _ => False
  | _ => True

/-- A world in which the tasks of another one are still there, but for marks that they have been
cancelled, and in which new ones are at their beginning. -/
structure Extends (w v : World) : Prop where
  nextTask : w.nextTask ≤ v.nextTask
  old : ∀ i, i < w.nextTask → (v.tasks.find? i).map Task.core = (w.tasks.find? i).map Task.core
  new : ∀ i t, w.nextTask ≤ i → v.tasks.find? i = some t → i < v.nextTask ∧ t.Begins w
  runners : ∀ name r, w.runners.find? name = some r → ∃ r', v.runners.find? name = some r'

variable {w v : World}

/-- Where the tasks are the same and no runner is gone, a world is extended. -/
theorem Fresh.extends_of_eq (h : w.Fresh) (ht : v.tasks = w.tasks)
    (hn : v.nextTask = w.nextTask)
    (hr : ∀ name r, w.runners.find? name = some r → ∃ r', v.runners.find? name = some r') :
    w.Extends v where
  nextTask := Nat.le_of_eq hn.symm
  old := by
    intro i _
    rw [ht]
  new := by
    intro i t hi hf
    rw [ht, h i hi] at hf
    cases hf
  runners := hr

/-- No deed takes a runner away. -/
theorem does_runner {d : Deed} {name : String} {r : Runner} (h : w.runners.find? name = some r) :
    ∃ r', (w.does d).runners.find? name = some r' := by
  cases d with
  | runner n f =>
      refine ⟨if name = n then f r else r, ?_⟩
      unfold does modifyRunner
      rw [Table.find?_modify]
      split
      · rename_i hn
        rw [← hn, h, Option.map_some]
      · exact h
  | call c => exact ⟨r, by rw [does, perform_runners, h]⟩
  | _ => exact ⟨r, h⟩

/-- A deed of the growing kind extends a world further. -/
theorem Extends.does {u : World} {d : Deed} (h : w.Extends u) (hd : w.Grows d) :
    w.Extends (u.does d) where
  nextTask := by
    cases d with
    | spawn t => exact Nat.le_succ_of_le h.nextTask
    | call c => simpa [World.does] using h.nextTask
    | remove id => exact hd.elim
    | _ => exact h.nextTask
  old := by
    intro i hi
    cases d with
    | spawn t =>
        have hne : i ≠ u.nextTask := Nat.ne_of_lt (Nat.lt_of_lt_of_le hi h.nextTask)
        rw [← h.old i hi]
        exact congrArg _ (Table.find?_insert_of_ne _ t hne)
    | cancel id => exact (u.cancel_find? id i).trans (h.old i hi)
    | call c => simpa [World.does] using h.old i hi
    | remove id => exact hd.elim
    | _ => exact h.old i hi
  new := by
    intro i t hi ht
    cases d with
    | spawn s =>
        by_cases hs : i = u.nextTask
        · subst hs
          have he : (u.tasks.insert u.nextTask s).find? u.nextTask = some t := ht
          rw [Table.find?_insert_self] at he
          cases he
          exact ⟨Nat.lt_succ_self _, hd⟩
        · have he : (u.tasks.insert u.nextTask s).find? i = some t := ht
          rw [Table.find?_insert_of_ne _ s hs] at he
          have hn := h.new i t hi he
          exact ⟨Nat.lt_succ_of_lt hn.1, hn.2⟩
    | cancel id =>
        have hc := u.cancel_find? id i
        have he : (u.cancel id).tasks.find? i = some t := ht
        rw [he, Option.map_some] at hc
        obtain ⟨t', ht', hcore⟩ := Option.map_eq_some_iff.mp hc.symm
        have hn := h.new i t' hi ht'
        exact ⟨hn.1, hn.2.of_core hcore⟩
    | call c =>
        rw [World.does, perform_tasks] at ht
        simpa [World.does] using h.new i t hi ht
    | remove id => exact hd.elim
    | _ => exact h.new i t hi ht
  runners := by
    intro name r hr
    obtain ⟨r', hr'⟩ := h.runners name r hr
    exact does_runner hr'

/-- Deeds that only add tasks extend a world. -/
theorem Via.grows {D : Deed → Prop} (h : w.Via D v) (hw : w.Fresh)
    (hD : ∀ d, D d → w.Grows d) : w.Extends v :=
  h.keeps (fun _ d hd hu => hu.does (hD d hd))
    (hw.extends_of_eq rfl rfl fun _ r hr => ⟨r, hr⟩)

/-- A task is still there in a world that extends its own. -/
theorem Extends.find? (h : w.Extends v) {i : TaskId} {t : Task} (hi : i < w.nextTask)
    (ht : w.tasks.find? i = some t) : ∃ t', v.tasks.find? i = some t' ∧ t'.core = t.core := by
  have ho := h.old i hi
  rw [ht, Option.map_some] at ho
  exact Option.map_eq_some_iff.mp ho

/-- A world that is extended leaves the numbers to come free. -/
theorem Extends.fresh (h : w.Extends v) : v.Fresh := by
  intro i hi
  cases hf : v.tasks.find? i with
  | none => rfl
  | some t =>
      have hn := h.new i t (Nat.le_trans h.nextTask hi) hf
      exact absurd hn.1 (Nat.not_lt_of_le hi)

/-- A task in a world that extends another one was there, or is at its beginning. -/
theorem Extends.was (h : w.Extends v) {i : TaskId} {t' : Task} (ht : v.tasks.find? i = some t') :
    (∃ t, w.tasks.find? i = some t ∧ t'.core = t.core) ∨ w.nextTask ≤ i ∧ t'.Begins w := by
  by_cases hi : i < w.nextTask
  · have ho := h.old i hi
    rw [ht, Option.map_some] at ho
    obtain ⟨t, ht', hcore⟩ := Option.map_eq_some_iff.mp ho.symm
    exact .inl ⟨t, ht', hcore.symm⟩
  · exact .inr ⟨Nat.le_of_not_lt hi, (h.new i t' (Nat.le_of_not_lt hi) ht).2⟩

/-- Tasks in order: who waits for whom, and who works for whom. -/
structure Sound (w : World) : Prop where
  fresh : w.Fresh
  called : ∀ i t h, w.tasks.find? i = some t → t.awaits? = some h →
    ∃ c, w.tasks.find? h = some (.handler c)
  sole : ∀ i j t u h, w.tasks.find? i = some t → w.tasks.find? j = some u →
    t.awaits? = some h → u.awaits? = some h → i = j
  served : ∀ h c, w.tasks.find? h = some (.handler c) →
    ∃ i t, w.tasks.find? i = some t ∧ t.awaits? = some h
  employed : ∀ i t name, w.tasks.find? i = some t → t.employer? = some name →
    ∃ r, w.runners.find? name = some r

namespace Sound

/-- A world without tasks. -/
theorem of_none (h : ∀ i, w.tasks.find? i = none) : w.Sound where
  fresh := fun i _ => h i
  called := by
    intro i t c ht
    rw [h i] at ht
    cases ht
  sole := by
    intro i j t u c ht
    rw [h i] at ht
    cases ht
  served := by
    intro c hc ht
    rw [h c] at ht
    cases ht
  employed := by
    intro i t name ht
    rw [h i] at ht
    cases ht

/-- What becomes of a sound world whose tasks another one extends. -/
theorem grows (h : w.Sound) (hx : w.Extends v) : v.Sound := by
  have hback : ∀ i t c, v.tasks.find? i = some t → t.awaits? = some c →
      ∃ t', w.tasks.find? i = some t' ∧ t'.awaits? = some c := by
    intro i t c ht hc
    obtain ⟨t', ht', hcore⟩ | ⟨-, hbegins⟩ := hx.was ht
    · exact ⟨t', ht', by rw [← t'.core_awaits?, ← hcore, t.core_awaits?, hc]⟩
    · rw [hbegins.idle] at hc
      cases hc
  constructor
  case fresh => exact hx.fresh
  case called =>
    intro i t c ht hc
    obtain ⟨t', ht', hc'⟩ := hback i t c ht hc
    obtain ⟨hcall, hh⟩ := h.called i t' c ht' hc'
    obtain ⟨u, hu, hcore⟩ := hx.find? (h.fresh.lt hh) hh
    exact ⟨hcall, by rw [hu, Task.core_eq_handler hcore]⟩
  case sole =>
    intro i j t u c ht hu hct hcu
    obtain ⟨t', ht', hct'⟩ := hback i t c ht hct
    obtain ⟨u', hu', hcu'⟩ := hback j u c hu hcu
    exact h.sole i j t' u' c ht' hu' hct' hcu'
  case served =>
    intro c hcall hh
    obtain ⟨t', ht', hcore⟩ | ⟨-, hbegins⟩ := hx.was hh
    · rw [Task.core_eq_handler hcore.symm] at ht'
      obtain ⟨i, t, ht, hc⟩ := h.served c hcall ht'
      obtain ⟨u, hu, hcore'⟩ := hx.find? (h.fresh.lt ht) ht
      exact ⟨i, u, hu, by rw [← u.core_awaits?, hcore', t.core_awaits?, hc]⟩
    · exact absurd rfl hbegins.sort_ne
  case employed =>
    intro i t name ht hname
    have hr : ∃ r, w.runners.find? name = some r := by
      obtain ⟨t', ht', hcore⟩ | ⟨-, hbegins⟩ := hx.was ht
      · rw [← t.core_employer?, hcore, t'.core_employer?] at hname
        exact h.employed i t' name ht' hname
      · exact hbegins.employed hname
    obtain ⟨r, hr⟩ := hr
    exact hx.runners name r hr

/-- What becomes of a sound world when a task that waits for no call goes on to another state in
which it waits for none, or ends without having been a call. -/
theorem put (h : w.Sound) {id : TaskId} {t : Task} {left : Option Task}
    (ht : w.tasks.find? id = some t) (hidle : t.awaits? = none)
    (hleft : ∀ t', left = some t' → t'.awaits? = none ∧ t'.sort = t.sort ∧
      t'.employer? = t.employer?)
    (hstay : t.sort = .handler → ∃ t', left = some t') : (w.put id left).Sound := by
  have hother : ∀ i u c, (w.put id left).tasks.find? i = some u → u.awaits? = some c →
      w.tasks.find? i = some u := by
    intro i u c hu hc
    rw [put_find?] at hu
    split at hu
    · rw [(hleft u hu).1] at hc
      cases hc
    · exact hu
  constructor
  case fresh =>
    intro i hi
    rw [put_nextTask] at hi
    rw [put_find?, if_neg, h.fresh i hi]
    exact (Nat.ne_of_lt (Nat.lt_of_lt_of_le (h.fresh.lt ht) hi)).symm
  case called =>
    intro i u c hu hc
    obtain ⟨call, hh⟩ := h.called i u c (hother i u c hu hc) hc
    by_cases hi : c = id
    · subst hi
      cases ht.symm.trans hh
      obtain ⟨t', ht'⟩ := hstay rfl
      obtain ⟨call', rfl⟩ := Task.sort_eq_handler ((hleft t' ht').2.1)
      exact ⟨call', by rw [put_find?, if_pos rfl, ht']⟩
    · exact ⟨call, by rw [put_find?, if_neg hi, hh]⟩
  case sole =>
    intro i j u u' c hu hu' hc hc'
    exact h.sole i j u u' c (hother i u c hu hc) (hother j u' c hu' hc') hc hc'
  case served =>
    intro c call hh
    have hwas : ∃ call', w.tasks.find? c = some (.handler call') := by
      rw [put_find?] at hh
      split at hh
      · rename_i hc
        subst hc
        have hs := (hleft _ hh).2.1
        obtain ⟨call', rfl⟩ := Task.sort_eq_handler hs.symm
        exact ⟨call', ht⟩
      · exact ⟨call, hh⟩
    obtain ⟨call', hh'⟩ := hwas
    obtain ⟨i, u, hu, hc⟩ := h.served c call' hh'
    refine ⟨i, u, ?_, hc⟩
    rw [put_find?, if_neg, hu]
    rintro rfl
    cases ht.symm.trans hu
    rw [hidle] at hc
    cases hc
  case employed =>
    intro i u name hu hname
    rw [put_runners]
    rw [put_find?] at hu
    split at hu
    · rw [(hleft u hu).2.2] at hname
      exact h.employed id t name ht hname
    · exact h.employed i u name hu hname

/-- What becomes of a sound world when a worker starts a call and waits for it. -/
theorem calls (h : w.Sound) {id : TaskId} {k : Worker} {t : Taken}
    (ht : w.tasks.find? id = some (.worker k)) (hidle : k.phase.awaits? = none) (c : HandlerCall) :
    ((w.spawn (.handler c)).2.put id
      (some (.worker (k.inPhase (.awaiting t w.nextTask))))).Sound := by
  have hid : id ≠ w.nextTask := Nat.ne_of_lt (h.fresh.lt ht)
  have hfind : ∀ i, ((w.spawn (.handler c)).2.put id
      (some (.worker (k.inPhase (.awaiting t w.nextTask))))).tasks.find? i =
      if i = id then some (.worker (k.inPhase (.awaiting t w.nextTask)))
      else if i = w.nextTask then some (.handler c) else w.tasks.find? i := by
    intro i
    rw [put_find?]
    exact congrArg _ (Table.find?_insert w.tasks w.nextTask i (.handler c))
  have hwaits : ∀ i u d, ((w.spawn (.handler c)).2.put id
      (some (.worker (k.inPhase (.awaiting t w.nextTask))))).tasks.find? i = some u →
      u.awaits? = some d →
      i = id ∧ d = w.nextTask ∨ i ≠ id ∧ d ≠ w.nextTask ∧ w.tasks.find? i = some u := by
    intro i u d hu hd
    rw [hfind i] at hu
    split at hu
    · rename_i hi
      cases hu
      cases hd
      exact .inl ⟨hi, rfl⟩
    · rename_i hi
      split at hu
      · cases hu
        cases hd
      · obtain ⟨call, hh⟩ := h.called i u d hu hd
        exact .inr ⟨hi, Nat.ne_of_lt (h.fresh.lt hh), hu⟩
  constructor
  case fresh =>
    intro i hi
    have hlt : w.nextTask < i := hi
    rw [hfind i, if_neg, if_neg (Nat.ne_of_gt hlt), h.fresh i (Nat.le_of_lt hlt)]
    exact (Nat.ne_of_lt (Nat.lt_trans (h.fresh.lt ht) hlt)).symm
  case called =>
    intro i u d hu hd
    rcases hwaits i u d hu hd with ⟨-, rfl⟩ | ⟨hi, hne, hu'⟩
    · exact ⟨c, by rw [hfind, if_neg hid.symm, if_pos rfl]⟩
    · obtain ⟨call, hh⟩ := h.called i u d hu' hd
      refine ⟨call, ?_⟩
      rw [hfind, if_neg, if_neg hne, hh]
      rintro rfl
      cases ht.symm.trans hh
  case sole =>
    intro i j u u' d hu hu' hd hd'
    rcases hwaits i u d hu hd with ⟨rfl, hn⟩ | ⟨hi, hne, hw⟩
    · rcases hwaits j u' d hu' hd' with ⟨rfl, -⟩ | ⟨-, hne, -⟩
      · rfl
      · exact absurd hn hne
    · rcases hwaits j u' d hu' hd' with ⟨rfl, hn⟩ | ⟨-, -, hw'⟩
      · exact absurd hn hne
      · exact h.sole i j u u' d hw hw' hd hd'
  case served =>
    intro d call hh
    rw [hfind d] at hh
    split at hh
    · cases hh
    · split at hh
      · rename_i hd
        exact ⟨id, _, by rw [hfind, if_pos rfl], by rw [hd]; rfl⟩
      · obtain ⟨i, u, hu, hd⟩ := h.served d call hh
        have hi : i ≠ id := by
          rintro rfl
          cases ht.symm.trans hu
          have he : k.phase.awaits? = some d := hd
          rw [hidle] at he
          cases he
        exact ⟨i, u, by rw [hfind, if_neg hi, if_neg (Nat.ne_of_lt (h.fresh.lt hu)), hu], hd⟩
  case employed =>
    intro i u name hu hname
    rw [put_runners]
    rw [hfind i] at hu
    split at hu
    · cases hu
      exact h.employed id _ name ht hname
    · split at hu
      · cases hu
        cases hname
      · exact h.employed i u name hu hname

/-- What becomes of a sound world when a worker learns how the call that it waited for ended. -/
theorem joins (h : w.Sound) {id task : TaskId} {k k' : Worker}
    (ht : w.tasks.find? id = some (.worker k)) (hwaits : k.phase.awaits? = some task)
    (hidle : k'.phase.awaits? = none) (hrunner : k'.runner = k.runner) :
    ((w.endTask task).put id (some (.worker k'))).Sound := by
  obtain ⟨call, hcall⟩ := h.called id _ task ht hwaits
  have hid : id ≠ task := by
    rintro rfl
    cases ht.symm.trans hcall
  have hfind : ∀ i, ((w.endTask task).put id (some (.worker k'))).tasks.find? i =
      if i = id then some (.worker k') else if i = task then none else w.tasks.find? i := by
    intro i
    rw [put_find?]
    exact congrArg _ (Table.find?_erase w.tasks task i)
  have hother : ∀ i u d, ((w.endTask task).put id (some (.worker k'))).tasks.find? i = some u →
      u.awaits? = some d → d ≠ task ∧ d ≠ id ∧ w.tasks.find? i = some u := by
    intro i u d hu hd
    rw [hfind i] at hu
    split at hu
    · cases hu
      have he : k'.phase.awaits? = some d := hd
      rw [hidle] at he
      cases he
    · rename_i hi
      split at hu
      · cases hu
      · refine ⟨?_, ?_, hu⟩
        · rintro rfl
          exact hi (h.sole i id u _ d hu ht hd hwaits)
        · rintro rfl
          obtain ⟨c, hc⟩ := h.called i u d hu hd
          cases ht.symm.trans hc
  constructor
  case fresh =>
    intro i hi
    have hle : w.nextTask ≤ i := hi
    rw [hfind i, if_neg, h.fresh i hle, ite_self]
    exact (Nat.ne_of_lt (Nat.lt_of_lt_of_le (h.fresh.lt ht) hle)).symm
  case called =>
    intro i u d hu hd
    obtain ⟨hne, hne', hw⟩ := hother i u d hu hd
    obtain ⟨c, hc⟩ := h.called i u d hw hd
    exact ⟨c, by rw [hfind, if_neg hne', if_neg hne, hc]⟩
  case sole =>
    intro i j u u' d hu hu' hd hd'
    exact h.sole i j u u' d (hother i u d hu hd).2.2 (hother j u' d hu' hd').2.2 hd hd'
  case served =>
    intro d c hc
    rw [hfind d] at hc
    split at hc
    · cases hc
    · split at hc
      · cases hc
      · rename_i hd
        obtain ⟨i, u, hu, ha⟩ := h.served d c hc
        refine ⟨i, u, ?_, ha⟩
        have hi : i ≠ id := by
          rintro rfl
          cases ht.symm.trans hu
          exact hd (Option.some.inj (ha.symm.trans hwaits))
        have hi' : i ≠ task := by
          rintro rfl
          cases hcall.symm.trans hu
          cases ha
        rw [hfind, if_neg hi, if_neg hi', hu]
  case employed =>
    intro i u name hu hname
    rw [put_runners]
    rw [hfind i] at hu
    split at hu
    · cases hu
      refine h.employed id _ name ht ?_
      rw [← hname]
      exact congrArg some hrunner.symm
    · split at hu
      · cases hu
      · exact h.employed i u name hu hname

/-! ## Every move -/

/-- What is entered in the books keeps a world sound. -/
theorem of_booked (h : w.Sound) (hb : w.Booked v) : v.Sound := by
  refine h.grows (h.fresh.extends_of_eq hb.tasks hb.nextTask ?_)
  intro name r hr
  have hn := hb.runner name
  rw [hr, Option.map_some] at hn
  obtain ⟨r', hr', -⟩ := Option.map_eq_some_iff.mp hn
  exact ⟨r', hr'⟩

end Sound

end World

/-- Nobody but a worker waits for a call or works for a runner. -/
theorem Task.idle_of_sort {t : Task} (h : t.sort ≠ .worker) :
    t.awaits? = none ∧ t.employer? = none := by
  cases t with
  | worker k => exact absurd rfl h
  | _ => exact ⟨rfl, rfl⟩

/-- What tasks other than workers may do makes tasks grow. -/
theorem Task.MayDo.grows {w : World} {t : Task} {d : Deed} (h : Task.MayDo w t d)
    (ht : t.sort ≠ .worker) : w.Grows d := by
  have haside : ∀ d : Deed, d.Aside → w.Grows d := by
    intro d hd
    cases d with
    | spawn _ => exact hd.elim
    | remove _ => exact hd.elim
    | _ => trivial
  cases h with
  | aside h => exact haside d h
  | handIn _ h =>
      cases h with
      | spawn hr => exact .worker rfl ⟨_, hr⟩
      | _ => trivial
  | worker hk _ =>
      subst hk
      exact absurd rfl ht
  | control _ h =>
      cases h with
      | aside h => exact haside d h
      | mainLoop => exact .mainLoop rfl
      | extender => exact .extender rfl
      | _ => trivial
  | _ => trivial

namespace Worker

/-- Who has asked for a slot waits for no call. -/
theorem verdict_awaits? (job : Job) (a : Except StoreError Bool) :
    (verdict job a).awaits? = none := by
  cases a with
  | ok b => cases b <;> rfl
  | error cause => rfl

/-- After a job its worker waits for no call. -/
theorem afterJob_awaits? (t : Taken) : (afterJob t).awaits? = none := by
  unfold afterJob
  split <;> rfl

/-- After a call its worker waits for none. -/
theorem Follows.awaits? {t : Taken} {p : Phase} (h : Follows t p) : p.awaits? = none := by
  cases h <;> rfl

/-- A turn of a worker starts a call, or ends one, or has nothing to do with calls. -/
theorem Turn.split {k : Worker} {w v : World} {left : Option Worker} (h : k.Turn w left v) :
    (∃ t, k.phase = .calling t ∧ left = some (k.inPhase (.awaiting t w.nextTask)) ∧
      v = (w.spawn (.handler (.start t.job.handler))).2) ∨
    (∃ t task goal, k.phase = .awaiting t task ∧ Follows t goal ∧ left = some (k.inPhase goal) ∧
      (w.endTask task).Booked v) ∨
    (∀ t, k.phase ≠ .calling t) ∧ k.phase.awaits? = none := by
  cases h with
  | calls hp => exact .inl ⟨_, hp, rfl, rfl⟩
  | joins hp hgoal hv => exact .inr (.inl ⟨_, _, _, hp, hgoal, rfl, hv.booked fun _ hd => hd.keeps⟩)
  | ends he ha hv =>
      refine .inr (.inr ?_)
      cases hp : k.phase <;> rw [hp] at he <;> cases he <;> exact ⟨nofun, rfl⟩
  | _ hp =>
      refine .inr (.inr ?_)
      rw [hp]
      exact ⟨nofun, rfl⟩

/-- A worker that neither waits for a call nor starts one does not wait for one afterwards. -/
theorem Turn.idle {k : Worker} {w v : World} {left : Option Worker} (h : k.Turn w left v)
    (hc : ∀ t, k.phase ≠ .calling t) {k' : Worker} (hk : left = some k') :
    k'.phase.awaits? = none ∧ k'.runner = k.runner := by
  cases h with
  | quits hp hq => cases hk
  | idles hp hq hn => cases hk
  | calls hp => exact absurd hp (hc _)
  | joins hp hgoal hv =>
      cases hk
      exact ⟨hgoal.awaits?, rfl⟩
  | asks hp hq ha =>
      cases hk
      exact ⟨verdict_awaits? _ _, rfl⟩
  | aborts hp ha ho hv =>
      cases hk
      exact ⟨afterJob_awaits? _, rfl⟩
  | ends hp ha hv =>
      cases hk
      exact ⟨afterJob_awaits? _, rfl⟩
  | _ =>
      cases hk
      exact ⟨rfl, rfl⟩

/-- What a worker may do that neither waits for a call nor starts one makes tasks grow. -/
theorem MayDo.grows {k : Worker} {w : World} {d : Deed} (h : k.MayDo w d)
    (hc : ∀ t, k.phase ≠ .calling t) (ha : k.phase.awaits? = none) : w.Grows d := by
  cases h with
  | spawn hp => exact absurd hp (hc _)
  | remove hp =>
      rw [hp] at ha
      cases ha
  | _ => trivial

end Worker

namespace World.Sound

variable {w v : World}

/-- What becomes of a sound world when a worker takes its turn. -/
theorem turn (h : w.Sound) {id : TaskId} {k : Worker} {left : Option Worker}
    (ht : w.tasks.find? id = some (.worker k)) (hk : k.Turn w left v) :
    (v.put id (left.map .worker)).Sound := by
  rcases hk.split with ⟨t, hp, rfl, rfl⟩ | ⟨t, task, goal, hp, hgoal, rfl, hb⟩ | ⟨hc, ha⟩
  · exact h.calls ht (by rw [hp]; rfl) _
  · have hj : ((w.endTask task).put id (some (.worker (k.inPhase goal)))).Sound :=
      h.joins ht (by rw [hp]; rfl) hgoal.awaits? rfl
    exact hj.of_booked (hb.put id _)
  · have hx := hk.via.grows h.fresh fun d hd => hd.grows hc ha
    obtain ⟨t', ht', hcore⟩ := hx.find? (h.fresh.lt ht) ht
    refine (h.grows hx).put ht' ?_ ?_ ?_
    · rw [← t'.core_awaits?, hcore]
      exact ha
    · intro u hu
      obtain ⟨k', hk', rfl⟩ := Option.map_eq_some_iff.mp hu
      have hidle := hk.idle hc hk'
      rw [← t'.core_sort, ← t'.core_employer?, hcore]
      exact ⟨hidle.1, rfl, congrArg some hidle.2⟩
    · intro hs
      rw [← t'.core_sort, hcore] at hs
      cases hs

/-- What becomes of a sound world when a task that is no worker takes a step. -/
theorem act (h : w.Sound) {id : TaskId} {t : Task} (ht : w.tasks.find? id = some t)
    (hs : t.sort ≠ .worker) : ((t.act id w).2.put id (t.act id w).1).Sound := by
  have hx := (t.act_via id w).grows h.fresh fun d hd => hd.grows hs
  obtain ⟨t', ht', hcore⟩ := hx.find? (h.fresh.lt ht) ht
  have hs' : t'.sort = t.sort := by rw [← t'.core_sort, hcore, t.core_sort]
  have hidle := Task.idle_of_sort (hs' ▸ hs)
  refine (h.grows hx).put ht' hidle.1 ?_ ?_
  · intro u hu
    have hu' := Task.act_sort hu
    have hui := Task.idle_of_sort (hu' ▸ hs)
    exact ⟨hui.1, hu'.trans hs'.symm, hui.2.trans hidle.2.symm⟩
  · intro hh
    obtain ⟨c, rfl⟩ := Task.sort_eq_handler (hs'.symm.trans hh)
    exact ⟨_, rfl⟩

/-- Every move that can be made keeps tasks in order. -/
theorem move (h : w.Sound) {m : Move} (hm : w.Admits m) : (w.move m).Sound := by
  have hsame : ∀ u : World, u.tasks = w.tasks → u.nextTask = w.nextTask →
      u.runners = w.runners → u.Sound := by
    intro u ht hn hr
    refine h.grows (h.fresh.extends_of_eq ht hn ?_)
    intro name r hf
    exact ⟨r, by rw [hr, hf]⟩
  cases hset : m.setsUp with
  | true =>
      have hu := move_setUp hset hm
      refine h.grows (h.fresh.extends_of_eq hu.tasks hu.nextTask ?_)
      intro name r hr
      rcases hu.runners with he | ⟨n, config, worker, hn, -, he⟩
      · exact ⟨r, by rw [he, hr]⟩
      · refine ⟨r, ?_⟩
        rw [he, Table.find?_insert_of_ne, hr]
        rintro rfl
        cases hn.symm.trans hr
  | false =>
      cases m with
      | step id =>
          obtain ⟨t, ht, -, he⟩ := move_step hm
          rw [he]
          by_cases hs : t.sort = .worker
          · cases t with
            | worker k =>
                have hk := h.turn ht (k.step_turn w)
                rwa [← Progress.kept_eq] at hk
            | _ => cases hs
          · exact h.act ht hs
      | pass t => exact hsame _ rfl rfl rfl
      | launch o =>
          have hx : w.Extends (w.does (.spawn (.operation o))) :=
            (h.fresh.extends_of_eq rfl rfl fun _ r hr => ⟨r, hr⟩).does (.operation hm)
          exact h.grows hx
      | collect id =>
          obtain ⟨r, hr⟩ := hm
          have hp : (w.put id none).Sound := by
            refine h.put hr rfl ?_ ?_
            · intro t' ht'
              cases ht'
            · intro hs
              cases hs
          exact hp
      | disturb f => exact hsame _ rfl rfl rfl
      | reach value => exact hsame _ rfl rfl rfl
      | call c =>
          exact hsame _ (w.perform_tasks c.2) (w.perform_nextTask c.2) (w.perform_runners c.2)
      | _ => cases hset

/-- How a task that is there after what a step does came to be so: it was there before, or has
been started. -/
theorem act_was (h : w.Sound) {id i : TaskId} {t t' : Task}
    (ht : w.tasks.find? id = some t) (hf : (t.act id w).2.tasks.find? i = some t') :
    (∃ u, w.tasks.find? i = some u ∧ t'.core = u.core) ∨
      w.nextTask ≤ i ∧ (t'.Begins w ∨ ∃ c, t' = .handler (.start c)) := by
  have hgrows : ∀ v : World, w.Extends v → v.tasks.find? i = some t' →
      (∃ u, w.tasks.find? i = some u ∧ t'.core = u.core) ∨
        w.nextTask ≤ i ∧ (t'.Begins w ∨ ∃ c, t' = .handler (.start c)) := by
    intro v hx hv
    exact (hx.was hv).imp_right fun hn => ⟨hn.1, .inl hn.2⟩
  by_cases hs : t.sort = .worker
  · cases t with
    | worker k =>
        rcases (k.step_turn w).split with ⟨t, hp, -, hv⟩ | ⟨t, task, goal, hp, hgoal, -, hb⟩ |
          ⟨hc, ha⟩
        · have hv' : (Task.act id w (.worker k)).2 = _ := hv
          rw [hv'] at hf
          have hin : (w.tasks.insert w.nextTask
              (.handler (.start t.job.handler))).find? i = some t' := hf
          rw [Table.find?_insert] at hin
          split at hin
          · rename_i hi
            exact .inr ⟨Nat.le_of_eq hi.symm, .inr ⟨_, (Option.some.inj hin).symm⟩⟩
          · exact .inl ⟨t', hin, rfl⟩
        · have hin : (w.tasks.erase task).find? i = some t' :=
            (congrArg (fun s => s.find? i) hb.tasks).symm.trans hf
          rw [Table.find?_erase] at hin
          split at hin
          · cases hin
          · exact .inl ⟨t', hin, rfl⟩
        · exact hgrows _ ((k.step_via w).grows h.fresh fun d hd => hd.grows hc ha) hf
    | _ => cases hs
  · exact hgrows _ ((t.act_via id w).grows h.fresh fun d hd => hd.grows hs) hf

/-- How a task that is there after a move came to be so: it was there before, or has been
started, or has taken a step. -/
theorem move_was (h : w.Sound) {m : Move} (hm : w.Admits m) {i : TaskId} {t' : Task}
    (hf : (w.move m).tasks.find? i = some t') :
    (∃ t, w.tasks.find? i = some t ∧ t'.core = t.core) ∨
      (w.nextTask ≤ i ∧ (t'.Begins w ∨ ∃ c, t' = .handler (.start c))) ∨
      ∃ t, m = .step i ∧ w.tasks.find? i = some t ∧ (t.act i w).1 = some t' := by
  have hsame : (w.move m).tasks = w.tasks →
      ∃ t, w.tasks.find? i = some t ∧ t'.core = t.core := by
    intro ht
    rw [ht] at hf
    exact ⟨t', hf, rfl⟩
  cases hset : m.setsUp with
  | true => exact .inl (hsame (move_setUp hset hm).tasks)
  | false =>
      cases m with
      | step id =>
          obtain ⟨t, ht, -, he⟩ := move_step hm
          rw [he, put_find?] at hf
          split at hf
          · rename_i hi
            subst hi
            exact .inr (.inr ⟨t, rfl, ht, hf⟩)
          · exact (h.act_was ht hf).imp_right .inl
      | launch o =>
          have hin : (w.tasks.insert w.nextTask (.operation o)).find? i = some t' := hf
          rw [Table.find?_insert] at hin
          split at hin
          · rename_i hi
            cases hin
            exact .inr (.inl ⟨Nat.le_of_eq hi.symm, .inl (.operation hm)⟩)
          · exact .inl ⟨t', hin, rfl⟩
      | collect id =>
          have hin : (w.tasks.erase id).find? i = some t' := hf
          rw [Table.find?_erase] at hin
          split at hin
          · cases hin
          · exact .inl ⟨t', hin, rfl⟩
      | call c => exact .inl (hsame (w.perform_tasks c.2))
      | pass t => exact .inl (hsame rfl)
      | disturb f => exact .inl (hsame rfl)
      | reach value => exact .inl (hsame rfl)
      | _ => cases hset

/-- A task stays there, but for a mark that it has been cancelled, unless it takes a step itself, is
a call of a handler, or is collected. -/
theorem move_kept (h : w.Sound) {m : Move} (hm : w.Admits m) {i : TaskId} {t : Task}
    (ht : w.tasks.find? i = some t) (hs : t.sort ≠ .handler) (hstep : m ≠ .step i)
    (hcollect : m ≠ .collect i) :
    ∃ t', (w.move m).tasks.find? i = some t' ∧ t'.core = t.core := by
  have hi : i < w.nextTask := h.fresh.lt ht
  have hsame : (w.move m).tasks = w.tasks → ∃ t', (w.move m).tasks.find? i = some t' ∧
      t'.core = t.core := by
    intro he
    rw [he]
    exact ⟨t, ht, rfl⟩
  cases hset : m.setsUp with
  | true => exact hsame (move_setUp hset hm).tasks
  | false =>
      cases m with
      | step id =>
          obtain ⟨u, hu, -, he⟩ := move_step hm
          have hne : i ≠ id := fun hi => hstep (congrArg Move.step hi.symm)
          rw [he, put_find?, if_neg hne]
          by_cases hw : u.sort = .worker
          · cases u with
            | worker k =>
                rcases (k.step_turn w).split with ⟨taken, -, -, hv⟩ |
                  ⟨taken, task, goal, hp, -, -, hb⟩ | ⟨hc, ha⟩
                · have hact : (Task.act id w (.worker k)).2 = _ := hv
                  rw [hact]
                  exact ⟨t, (Table.find?_insert_of_ne _ _ (Nat.ne_of_lt hi)).trans ht, rfl⟩
                · obtain ⟨c, hcall⟩ := h.called id _ task hu (by rw [Task.awaits?, hp]; rfl)
                  have hact : (Task.act id w (.worker k)).2.tasks = w.tasks.erase task := hb.tasks
                  rw [hact, Table.find?_erase, if_neg]
                  · exact ⟨t, ht, rfl⟩
                  · rintro rfl
                    cases ht.symm.trans hcall
                    exact hs rfl
                · exact ((k.step_via w).grows h.fresh fun d hd => hd.grows hc ha).find? hi ht
            | _ => cases hw
          · exact ((u.act_via id w).grows h.fresh fun d hd => hd.grows hw).find? hi ht
      | launch o => exact ⟨t, (Table.find?_insert_of_ne _ _ (Nat.ne_of_lt hi)).trans ht, rfl⟩
      | collect id =>
          refine ⟨t, (Table.find?_erase _ _ _).trans ?_, rfl⟩
          rw [if_neg fun hi => hcollect (congrArg Move.collect hi.symm)]
          exact ht
      | call c => exact hsame (w.perform_tasks c.2)
      | pass t => exact hsame rfl
      | disturb f => exact hsame rfl
      | reach value => exact hsame rfl
      | _ => cases hset

/-- An operation stays as it is until its own next step. -/
theorem move_operation (h : w.Sound) {m : Move} (hm : w.Admits m) {i : TaskId} {o : Operation}
    (ho : w.tasks.find? i = some (.operation o)) (hstep : m ≠ .step i) :
    (w.move m).tasks.find? i = some (.operation o) := by
  have hcollect : m ≠ .collect i := by
    rintro rfl
    obtain ⟨r, hr⟩ := hm
    cases ho.symm.trans hr
  obtain ⟨t', ht', hcore⟩ := h.move_kept hm ho nofun hstep hcollect
  cases t' with
  | operation o' =>
      cases hcore
      exact ht'
  | _ => cases hcore

/-- A task that has ended is not there any more, and never again. -/
theorem move_running (h : w.Sound) {m : Move} (hm : w.Admits m) {i : TaskId}
    (hi : i < w.nextTask) (hr : w.running i = false) : (w.move m).running i = false := by
  have hnone : w.tasks.find? i = none := by simpa [running, Table.contains] using hr
  cases ht : (w.move m).tasks.find? i with
  | none => simp [running, Table.contains, ht]
  | some t' =>
      rcases h.move_was hm ht with ⟨t, hw, -⟩ | ⟨hle, -⟩ | ⟨t, -, hw, -⟩
      · cases hnone.symm.trans hw
      · exact absurd hi (Nat.not_lt_of_le hle)
      · cases hnone.symm.trans hw

end World.Sound

end JobFleet
