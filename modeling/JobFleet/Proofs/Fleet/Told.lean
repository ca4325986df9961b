import JobFleet.Proofs.Fleet.Roles
import JobFleet.Proofs.Store.Grammar

/-!
# What members are told

Runners, limiters and schedulers are told times to live as they join, and are told nothing else
later. A limiter or a lock of a scheduler, once there, stays there.
-/

namespace JobFleet

/-- The times to live that a runner gives the statuses of jobs. -/
def Runner.Config.ttls (c : Runner.Config) : List Duration :=
  [c.queuedTtl, c.runningTtl, c.terminalTtl]

/-- The TTL of a status is one of the configuration's. -/
theorem Runner.Config.ttl_mem (c : Runner.Config) (s : JobStatus) : c.ttl s ∈ c.ttls := by
  cases s <;> simp [Config.ttl, ttls]

/-- The times to live that a member which joins by a move is told for the keys of a kind. -/
def Move.ttls : Move → KeyKind → List Duration
  | .runner _ config, .status => config.ttls
  | .limiter _ l, .attempts => [l.window]
  | .scheduler _ _ ttl _ _, .lock => [ttl]
  | .app _ s, .status => s.runnerConfig.ttls
  | .app _ s, .attempts => [s.limitWindow]
  | .app _ s, .lock => [s.schedulerLockTtl]
  | _, _ => []

namespace World

/-- A lock is that of a scheduler. -/
def Owned (w : World) (l : Lock) : Prop := ∃ name, w.lock? name = some l

/-- The grammar of the fleet's store, given what members are told: locks belong to schedulers. -/
def grammar (w : World) (told : KeyKind → Duration → Prop) : Grammar where
  owned := w.Owned
  told := told

/-- Members work under ceilings that the counter can reach and give keys no other times to live
than these. -/
structure Told (told : KeyKind → Duration → Prop) (w : World) : Prop where
  runners : ∀ name r, w.runners.find? name = some r →
    Fits r.config.maxRunning ∧ ∀ s, told .status (r.config.ttl s)
  limiters : ∀ name l, w.limiters.find? name = some l → told .attempts l.window
  locks : ∀ l, w.Owned l → told .lock l.ttl

namespace Told

variable {told : KeyKind → Duration → Prop} {w v : World}

/-- What the world tells is read off its runners, limiters and locks. -/
theorem of_eq (h : w.Told told) (hr : v.runners = w.runners) (hl : v.limiters = w.limiters)
    (hs : ∀ name, v.lock? name = w.lock? name) : v.Told told where
  runners := hr ▸ h.runners
  limiters := hl ▸ h.limiters
  locks := by
    rintro l ⟨name, hn⟩
    exact h.locks l ⟨name, hs name ▸ hn⟩

/-- A new runner tells TTLs that are allowed. -/
theorem addRunner (h : w.Told told) (name : String) {config : Runner.Config}
    (hf : Fits config.maxRunning) (ht : ∀ d ∈ config.ttls, told .status d) :
    (w.addRunner name config).Told told where
  runners := by
    intro n r hr
    have hin : (w.runners.insert name (.new config w.identify.1)).find? n = some r := hr
    rw [Table.find?_insert] at hin
    split at hin
    · cases hin
      exact ⟨hf, fun s => ht _ (config.ttl_mem s)⟩
    · exact h.runners n r hin
  limiters := h.limiters
  locks := h.locks

/-- A new scheduler tells a TTL that is allowed. -/
theorem addScheduler (h : w.Told told) (name lockName : String) {ttl : Duration}
    (source : SettingsSource) (service : Schedule.Service) (ht : told .lock ttl) :
    (w.addScheduler name lockName ttl source service).Told told where
  runners := h.runners
  limiters := h.limiters
  locks := by
    rintro l ⟨n, hn⟩
    have hin : ((w.schedulers.insert name (.new (w.newLock lockName ttl).1 source service)).find?
        n).map Scheduler.lock = some l := hn
    rw [Table.find?_insert] at hin
    split at hin
    · cases hin
      exact ht
    · exact h.locks l ⟨n, hin⟩

/-- A new limiter tells a TTL that is allowed. -/
theorem addLimiter (h : w.Told told) (name : String) {l : Limiter}
    (ht : told .attempts l.window) : (w.addLimiter name l).Told told where
  runners := h.runners
  limiters := by
    intro n l' hl
    have hin : (w.limiters.insert name l).find? n = some l' := hl
    rw [Table.find?_insert] at hin
    split at hin
    · cases hin
      exact ht
    · exact h.limiters n l' hin
  locks := h.locks

end Told

variable {told : KeyKind → Duration → Prop} {w v : World}

@[simp] theorem perform_limiters {a : Answer} (w : World) (c : Call a) :
    (w.perform c).2.limiters = w.limiters := by
  obtain ⟨s, fs, -, h⟩ := w.perform_eq c
  rw [h]

/-- No deed touches limiters. -/
theorem Via.limiters {D : Deed → Prop} (h : w.Via D v) : v.limiters = w.limiters := by
  refine h.keeps (P := fun u => u.limiters = w.limiters) ?_ rfl
  intro u d _ hu
  refine Eq.trans ?_ hu
  cases d with
  | call c => exact u.perform_limiters c.2
  | _ => rfl

@[simp] theorem put_limiters (w : World) (id : TaskId) (left : Option Task) :
    (w.put id left).limiters = w.limiters := by
  cases left <;> rfl

/-- Where nothing is set up, limiters and the locks of schedulers stay as they are. -/
theorem move_still {m : Move} (hm : w.Admits m) (hset : m.setsUp = false) :
    (w.move m).limiters = w.limiters ∧ ∀ name, (w.move m).lock? name = w.lock? name := by
  cases m with
  | step id =>
      obtain ⟨t, -, -, he⟩ := move_step hm
      rw [he, put_limiters]
      refine ⟨(t.act_via id w).limiters, fun name => ?_⟩
      rw [lock?_put]
      exact (t.act_via id w).lock? (fun _ hd => hd.keepsLock) name
  | call c => exact ⟨w.perform_limiters c.2, w.lock?_perform c.2⟩
  | pass t => exact ⟨rfl, fun _ => rfl⟩
  | launch o => exact ⟨rfl, fun _ => rfl⟩
  | collect id => exact ⟨rfl, fun _ => rfl⟩
  | disturb f => exact ⟨rfl, fun _ => rfl⟩
  | reach value => exact ⟨rfl, fun _ => rfl⟩
  | _ => cases hset

/-- A limiter, once there, is never without one under its name. -/
theorem limiter_move {m : Move} (hm : w.Admits m) {name : String} {l : Limiter}
    (hl : w.limiters.find? name = some l) : ∃ l', (w.move m).limiters.find? name = some l' := by
  have hadd : ∀ (u : World) n l', u.limiters = w.limiters →
      ∃ l'', (u.addLimiter n l').limiters.find? name = some l'' := by
    intro u n l' hu
    have hin : (u.addLimiter n l').limiters = u.limiters.insert n l' := rfl
    rw [hin, hu, Table.find?_insert]
    split
    · exact ⟨_, rfl⟩
    · exact ⟨l, hl⟩
  cases m with
  | limiter n l' => exact hadd w n l' rfl
  | app n s => exact hadd _ n _ rfl
  | step id => exact ⟨l, (move_still hm rfl).1 ▸ hl⟩
  | call c => exact ⟨l, (move_still hm rfl).1 ▸ hl⟩
  | _ => exact ⟨l, hl⟩

/-- A scheduler keeps its lock. -/
theorem lock?_move {m : Move} (hm : w.Admits m) {name : String} {l : Lock}
    (hn : w.lock? name = some l) : (w.move m).lock? name = some l := by
  cases hset : m.setsUp with
  | false => exact ((move_still hm hset).2 name).trans hn
  | true =>
      rcases (move_setUp hset hm).schedulers with he | ⟨n, lock, source, service, hnone, he⟩ |
        ⟨n, f, hf, he⟩
      · rw [lock?, he]
        exact hn
      · rw [lock?, he, Table.find?_insert_of_ne, ← lock?, hn]
        rintro rfl
        rw [lock?, hnone] at hn
        cases hn
      · have hl := lock?_modifyScheduler (fun s => (hf s).1) w n name
        rw [lock?, he]
        exact hl.trans hn

/-- A lock that is a scheduler's stays so. -/
theorem Owned.move {m : Move} (hm : w.Admits m) {l : Lock} (h : w.Owned l) :
    (w.move m).Owned l := by
  obtain ⟨name, hn⟩ := h
  exact ⟨name, lock?_move hm hn⟩

/-- Every extender renews the lock of a scheduler. -/
def Lent (w : World) : Prop := ∀ i x, w.tasks.find? i = some (.extender x) → w.Owned x.lock

theorem lent_around (utc : Int) (s : Store) : (around utc s).Lent := nofun

/-- The extenders after the deeds of a step renew locks of schedulers. -/
theorem Lent.act (h : w.Lent) {id : TaskId} {t : Task} (ht : w.tasks.find? id = some t)
    {i : TaskId} {x : Schedule.Extender}
    (hx : (t.act id w).2.tasks.find? i = some (.extender x)) : w.Owned x.lock := by
  have hminds : ∀ l, t.Minds w l → w.Owned l := by
    intro l hl
    cases hl with
    | extender x => exact h id x ht
    | scheduler hl =>
        obtain ⟨s, hs, hlock⟩ := hl
        exact ⟨_, by rw [lock?, hs, Option.map_some, hlock]⟩
  have hkept := (t.act_via id w).keeps
    (P := fun u => ∀ i x, u.tasks.find? i = some (.extender x) → w.Owned x.lock) ?_ h
  · exact hkept i x hx
  · intro u d hd hu i x hx
    cases d with
    | spawn t' =>
        have hin : (u.tasks.insert u.nextTask t').find? i = some (.extender x) := hx
        rw [Table.find?_insert] at hin
        split at hin
        · cases hin
          cases hd with
          | aside h => exact h.elim
          | handIn _ h => cases h
          | worker _ h => cases h
          | control _ h =>
              cases h with
              | aside h => exact h.elim
              | extender hl => exact hminds _ hl
        · exact hu i x hin
    | cancel j =>
        have hc := u.cancel_find? j i
        have hin : (u.cancel j).tasks.find? i = some (.extender x) := hx
        rw [hin, Option.map_some] at hc
        obtain ⟨t', ht', hcore⟩ := Option.map_eq_some_iff.mp hc.symm
        cases t' with
        | extender x' =>
            injection hcore with hcore
            injection hcore with hlock
            rw [← hlock]
            exact hu i x' ht'
        | _ => cases hcore
    | remove j =>
        have hin : (u.tasks.erase j).find? i = some (.extender x) := hx
        rw [Table.find?_erase] at hin
        split at hin
        · cases hin
        · exact hu i x hin
    | call c =>
        rw [does, perform_tasks] at hx
        exact hu i x hx
    | _ => exact hu i x hx

/-- The extenders after a move renew locks of schedulers. -/
theorem Lent.move (h : w.Lent) {m : Move} (hm : w.Admits m) : (w.move m).Lent := by
  intro i x hx
  refine Owned.move hm ?_
  have hsame : (w.move m).tasks = w.tasks → w.Owned x.lock := fun ht => h i x (ht ▸ hx)
  cases hset : m.setsUp with
  | true => exact hsame (move_setUp hset hm).tasks
  | false =>
      cases m with
      | step id =>
          obtain ⟨t, ht, -, he⟩ := move_step hm
          rw [he, put_find?] at hx
          split at hx
          · have hsort := Task.act_sort hx
            cases t with
            | extender y =>
                obtain ⟨y', hon, hy⟩ := Progress.kept_none hx
                cases hy
                have hturn := y.step_turn w
                rw [hon] at hturn
                generalize (y.step w).2 = v at hturn
                have hlock : x.lock = y.lock := by cases hturn <;> rfl
                exact hlock ▸ h id y ht
            | _ => cases hsort
          · exact h.act ht hx
      | launch o =>
          have hin : (w.tasks.insert w.nextTask (.operation o)).find? i = some (.extender x) := hx
          rw [Table.find?_insert] at hin
          split at hin
          · cases hin
          · exact h i x hin
      | collect id =>
          have hin : (w.tasks.erase id).find? i = some (.extender x) := hx
          rw [Table.find?_erase] at hin
          split at hin
          · cases hin
          · exact h i x hin
      | call c => exact hsame (w.perform_tasks c.2)
      | pass t => exact hsame rfl
      | disturb f => exact hsame rfl
      | reach value => exact hsame rfl
      | _ => cases hset

/-- What members are told after a move, they were told before or as they joined by it. -/
theorem Told.move (h : w.Told told) {m : Move} (hm : w.Admits m)
    (hnew : ∀ κ, ∀ d ∈ m.ttls κ, told κ d) : (w.move m).Told told := by
  cases hset : m.setsUp with
  | false =>
      obtain ⟨hl, hs⟩ := move_still hm hset
      refine ⟨?_, hl ▸ h.limiters, ?_⟩
      · intro name r hr
        have hc := move_config hm hset name
        rw [hr, Option.map_some] at hc
        obtain ⟨r', hr', he⟩ := Option.map_eq_some_iff.mp hc.symm
        rw [← he]
        exact h.runners name r' hr'
      · rintro l ⟨name, hn⟩
        exact h.locks l ⟨name, hs name ▸ hn⟩
  | true =>
      cases m with
      | runner name config => exact h.addRunner name hm.2 (hnew .status)
      | scheduler name lockName ttl source service =>
          exact h.addScheduler name lockName source service (hnew .lock ttl List.mem_cons_self)
      | limiter name l => exact h.addLimiter name (hnew .attempts _ List.mem_cons_self)
      | app name s =>
          have hr := h.addRunner name hm.2.2 (hnew .status)
          have hh : ((w.addRunner name s.runnerConfig).addHandler .announceTick).2.Told told :=
            hr.of_eq rfl rfl fun _ => rfl
          have hs := hh.addScheduler name schedulerLockName (.held s.parser)
            (.runner name s.jobDefaults .important w.nextHandler)
            (hnew .lock _ List.mem_cons_self)
          have hl := hs.addLimiter name (l := ⟨s.limitAttempts, s.limitWindow, s.limitPolicy⟩)
            (hnew .attempts _ List.mem_cons_self)
          exact hl.of_eq rfl rfl fun _ => rfl
      | turn utc => exact h.of_eq rfl rfl fun _ => rfl
      | favour timers => exact h.of_eq rfl rfl fun _ => rfl
      | openGate name permits => exact h.of_eq rfl rfl fun _ => rfl
      | handler c => exact h.of_eq rfl rfl fun _ => rfl
      | lock name lockName ttl => exact h.of_eq rfl rfl fun _ => rfl
      | update name settings =>
          refine h.of_eq rfl rfl (w.lock?_modifyScheduler ?_ name)
          intro s
          cases s.source <;> rfl
      | _ => cases hset

end World

end JobFleet
