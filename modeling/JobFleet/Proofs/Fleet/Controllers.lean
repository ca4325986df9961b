import JobFleet.Proofs.Fleet.Roles

/-!
# Steps of those who control a scheduler

A start is part of two operations, and so is a stop; either makes the same turns in both. What
they and the extenders ask of the store concerns the entry of one lock, and what is not granted
leaves it alone, unless a reply was lost.
-/

namespace JobFleet

/-- The scheduler that a task starts, and how far it has come. -/
def Task.starts? : Task → Option (String × Schedule.StartPhase)
  | .operation (.startScheduler name p) => some (name, p)
  | .operation (.startApp name (.scheduler p)) => some (name, p)
  | _ => none

namespace Task

variable {t : Task} {name : String} (id : TaskId) (w : World)

/-- Who controls a scheduler: extenders, starts and stops. -/
theorem controls_cases (h : t.controls = true) :
    (∃ x, t = .extender x) ∨ (∃ name p, t.starts? = some (name, p)) ∨
      ∃ name p, t.role? = some (.stops name p) := by
  cases t with
  | extender x => exact .inl ⟨x, rfl⟩
  | operation o =>
      cases o with
      | startScheduler name p => exact .inr (.inl ⟨name, p, rfl⟩)
      | stopScheduler name p => exact .inr (.inr ⟨name, p, rfl⟩)
      | startApp name p =>
          cases p with
          | pinging => cases h
          | scheduler p => exact .inr (.inl ⟨name, p, rfl⟩)
      | shutdownApp name p =>
          cases p with
          | scheduler p => exact .inr (.inr ⟨name, p, rfl⟩)
          | _ => cases h
      | _ => cases h
  | _ => cases h

/-- A task that starts a scheduler has no role, takes a turn of the start and gets none. -/
theorem act_starts {p : Schedule.StartPhase} (h : t.starts? = some (name, p)) :
    t.role? = none ∧ (t.act id w).1.bind role? = none ∧
      ∃ next, p.Turn id name w next (t.act id w).2 := by
  have hturn := p.step_turn id name w
  cases t with
  | operation o =>
      cases o with
      | startScheduler name p =>
          cases h
          refine ⟨rfl, ?_, _, hturn⟩
          simp only [act, Operation.step]
          cases (p.step id name w).1 <;> rfl
      | startApp name p =>
          cases p with
          | pinging => cases h
          | scheduler p =>
              cases h
              refine ⟨rfl, ?_, _, hturn⟩
              simp only [act, Operation.step, AppStart.step]
              cases (p.step id name w).1 <;> rfl
      | _ => cases h
  | _ => cases h

/-- A task that stops a scheduler takes a turn of the stop, and keeps its role until it ends. -/
theorem act_stops {p : Schedule.StopPhase} (h : t.role? = some (.stops name p)) :
    ∃ next, p.Turn name w next (t.act id w).2 ∧
      (t.act id w).1.bind role? = next.state?.map (.stops name) := by
  have hturn := p.step_turn name w
  cases t with
  | operation o =>
      cases o with
      | stopScheduler name p =>
          cases h
          refine ⟨_, hturn, ?_⟩
          simp only [act, Operation.step]
          cases (p.step name w).1 <;> rfl
      | shutdownApp name p =>
          cases p with
          | scheduler p =>
              cases h
              have hstep : ((Task.operation (.shutdownApp name (.scheduler p))).act id w).2 =
                  (p.step name w).2 := by
                simp only [act, Operation.step, AppShutdown.step]
                split <;> rename_i hp <;> rw [hp]
              rw [hstep]
              refine ⟨_, hturn, ?_⟩
              simp only [act, Operation.step, AppShutdown.step]
              split <;> rename_i hp <;> rw [hp] <;> rfl
          | _ => cases h
      | _ => cases h
  | _ => cases h

/-- A stop can go on when its phase can. -/
theorem ready_stops {p : Schedule.StopPhase} (h : t.role? = some (.stops name p)) :
    t.ready w id = p.ready name w := by
  cases t with
  | operation o =>
      cases o with
      | stopScheduler name p =>
          cases h
          rfl
      | shutdownApp name p =>
          cases p with
          | scheduler p =>
              cases h
              rfl
          | _ => cases h
      | _ => cases h
  | _ => cases h

end Task

/-! ## A session begins -/

namespace Schedule.StartPhase

variable (name : String) (l : Lock) (w : World)

/-- A launch gives roles to the two tasks it spawns. -/
theorem launch_role (i : TaskId) : (launch name l w).role i =
    if i = w.nextTask + 1 then
      some (.renews ⟨l, w.nextTask, false, .resting (Clock.alarm w.now l.renewInterval)⟩)
    else if i = w.nextTask then some (.leads name false) else w.role i := by
  have hmain := (w.log (.schedule (.lockAcquired l.name))).role_spawn (.mainLoop (.start name)) i
  have hext := ((w.log (.schedule (.lockAcquired l.name))).spawn
    (.mainLoop (.start name))).2.role_spawn (.extender (.start l w.nextTask w)) i
  rw [hmain] at hext
  exact hext

/-- A launch opens a session of the two tasks it spawns. -/
theorem launch_session {s : Scheduler} (hs : w.schedulers.find? name = some s) (n : String) :
    (launch name l w).session? n =
      if n = name then some ⟨w.nextTask, w.nextTask + 1⟩ else w.session? n := by
  have hfind : (launch name l w).session? n =
      if n = name then ((w.schedulers.find? name).map fun s =>
        { s with gate := none, session := some ⟨w.nextTask, w.nextTask + 1⟩ }).bind
          Scheduler.session
      else w.session? n := World.session?_modifyScheduler _ name n
  rw [hfind, hs]
  rfl

/-- The first task of a launch is a main loop. -/
theorem launch_main : (launch name l w).Kind w.nextTask .mainLoop := by
  refine ⟨Nat.lt_succ_of_lt (Nat.lt_succ_self _), ?_⟩
  intro t ht
  have hin : ((w.tasks.insert w.nextTask (.mainLoop (.start name))).insert (w.nextTask + 1)
      (.extender (.start l w.nextTask w))).find? w.nextTask = some t := ht
  rw [Table.find?_insert_of_ne _ _ (Nat.ne_of_lt (Nat.lt_succ_self _)),
    Table.find?_insert_self] at hin
  cases hin
  rfl

/-- The second task of a launch is an extender. -/
theorem launch_extender : (launch name l w).Kind (w.nextTask + 1) .extender := by
  refine ⟨Nat.lt_succ_self _, ?_⟩
  intro t ht
  have hin : ((w.tasks.insert w.nextTask (.mainLoop (.start name))).insert (w.nextTask + 1)
      (.extender (.start l w.nextTask w))).find? (w.nextTask + 1) = some t := ht
  rw [Table.find?_insert_self] at hin
  cases hin
  rfl

end Schedule.StartPhase

/-! ## What they ask of the store -/

namespace Lock.Asks

variable {l : Lock} {c : Call .flag}

/-- What is not granted has no effect. -/
theorem effect_false (h : l.Asks c) {now : Nat} {held after : Option Entry}
    (he : c.effect now held = .ok (false, after)) : after = held := by
  cases h with
  | acquire =>
      simp only [Lock.acquire, Call.effect] at he
      split at he <;> cases he
      rfl
  | extend =>
      simp only [Lock.extend, Call.effect] at he
      split at he <;> cases he
      rfl
  | release =>
      simp only [Lock.release, Call.effect] at he
      split at he <;> cases he
      rfl

/-- What is asked about one lock does not concern another one. -/
theorem entry_of_ne {w u : World} {a : Except StoreError (Answer.Value .flag)}
    {lockName : String} (h : l.Asks c) (hs : w.Spared (lockKey lockName))
    (ha : w.perform c = (a, u)) (hn : l.name ≠ lockName) :
    u.entry (lockKey lockName) = w.entry (lockKey lockName) := by
  have he := w.perform_entry_of_ne c (k := lockKey lockName) ?_ hs
  · rw [ha] at he
    exact he
  · rw [h.target]
    exact fun he => hn (lockKey_inj (Option.some.inj he))

/-- A lock's entry is left alone by what is not granted, unless a reply was lost. -/
theorem entry_of_refused {w u : World} {a : Except StoreError (Answer.Value .flag)}
    {lockName : String} (h : l.Asks c) (hp : w.Prompt) (hs : w.Spared (lockKey lockName))
    (ha : w.perform c = (a, u)) (hne : a ≠ .ok true) :
    u.entry (lockKey lockName) = w.entry (lockKey lockName) := by
  by_cases hn : l.name = lockName
  case neg => exact h.entry_of_ne hs ha hn
  subst hn
  have hends := w.perform_ends c h.key hs
  rw [ha] at hends
  cases hends with
  | @answered granted after _ effect entry =>
      cases granted with
      | true => exact absurd rfl hne
      | false => exact entry.trans (h.effect_false effect)
  | refused entry => exact entry
  | lost lossy entry => exact absurd hp lossy

end Lock.Asks

namespace World

variable {w u : World} {l : Lock}

/-- A lock is taken where nobody holds it, and is held then for its time to live. -/
theorem acquire_granted (hs : w.Spared (lockKey l.name))
    (ha : w.perform l.acquire = (.ok true, u)) :
    w.entry (lockKey l.name) = none ∧
      u.entry (lockKey l.name) = some ⟨l.token, some (Clock.expiry w.now l.ttl)⟩ := by
  have hends := w.perform_ends l.acquire rfl hs
  rw [ha] at hends
  cases hends with
  | answered effect entry =>
      rw [entry]
      simp only [Lock.acquire, Call.effect] at effect
      split at effect
      · cases effect
      · rename_i hnone
        cases effect
        exact ⟨Option.not_isSome_iff_eq_none.mp hnone, rfl⟩

/-- A lock that is extended is held anew for its time to live. -/
theorem extend_granted (hs : w.Spared (lockKey l.name))
    (ha : w.perform l.extend = (.ok true, u)) :
    u.entry (lockKey l.name) = some ⟨l.token, some (Clock.expiry w.now l.ttl)⟩ := by
  have hends := w.perform_ends l.extend rfl hs
  rw [ha] at hends
  cases hends with
  | answered effect entry =>
      rw [entry]
      simp only [Lock.extend, Call.effect] at effect
      split at effect <;> cases effect
      rfl

/-- A lock is given back by its owner only. -/
theorem release_granted (hs : w.Spared (lockKey l.name))
    (ha : w.perform l.release = (.ok true, u)) :
    (w.entry (lockKey l.name)).map Entry.value = some l.token := by
  have hends := w.perform_ends l.release rfl hs
  rw [ha] at hends
  cases hends with
  | answered effect entry =>
      simp only [Lock.release, Call.effect] at effect
      split at effect
      · assumption
      · cases effect

end World

/-- A timer that is set for half of a time to live of at least a second rings before what was
written with it is gone. -/
theorem Clock.alarm_half_lt_expiry (now : Nat) {ttl : Duration} (h : Duration.ofSecs 1 ≤ ttl) :
    Clock.alarm now ttl.half < Clock.expiry now ttl := by
  have hlt := Clock.alarm_lt now ttl.half
  have hle := ttl.nanos_le_ttlSecs
  have hsec : 1000000000 ≤ ttl.nanos := h
  rw [Duration.nanos_half] at hlt
  unfold Clock.expiry
  omega

end JobFleet
