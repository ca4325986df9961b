import JobFleet.Proofs.Fleet.WorldDeeds

/-!
# The turns of those who control a scheduler

Every step of an extender, of a start and of a stop is one of a few turns. A turn says which phase
it starts in, what must hold for it, how it goes on, and what the world is afterwards. Of the
store they ask nothing but the three calls on a lock.
-/

namespace JobFleet

/-- The calls that an owner makes about a lock. -/
inductive Lock.Asks (l : Lock) : Call .flag → Prop
  | acquire : Asks l l.acquire
  | extend : Asks l l.extend
  | release : Asks l l.release

/-- A lock asks for its own key. -/
theorem Lock.Asks.key {l : Lock} {c : Call .flag} (h : l.Asks c) :
    c.key? = some (lockKey l.name) := by
  cases h <;> rfl

/-- A lock writes its own key. -/
theorem Lock.Asks.target {l : Lock} {c : Call .flag} (h : l.Asks c) :
    c.target = some (lockKey l.name) := by
  cases h <;> rfl

namespace Schedule

/-- A turn of an extender: how it goes on, and the world afterwards. -/
inductive Extender.Turn (x : Extender) (w : World) : Progress Extender Unit → World → Prop
  | quits {wake : Nat} (hp : x.phase = .resting wake) (hc : x.cancelled = true) :
      Turn x w (.ended ()) w
  | wakes {wake : Nat} (hp : x.phase = .resting wake) (hc : x.cancelled = false) :
      Turn x w (.on { x with phase := .extending }) w
  | renews {u : World} (hp : x.phase = .extending) (ha : w.perform x.lock.extend = (.ok true, u)) :
      Turn x w (.on { x with phase := .resting (Clock.alarm w.now x.lock.renewInterval) })
        (u.log (.schedule (.lockExtended x.lock.name)))
  | demotes {a : Except StoreError Bool} {cause : Option StoreError} {u : World}
      (hp : x.phase = .extending) (ha : w.perform x.lock.extend = (a, u)) (hne : a ≠ .ok true) :
      Turn x w (.ended ()) ((u.log (.schedule (.demoted x.lock.name cause))).cancel x.main)

/-- Every step of an extender is one of its turns. -/
theorem Extender.step_turn (x : Extender) (w : World) :
    x.Turn w (x.step w).1 (x.step w).2 := by
  unfold step
  split
  · rename_i wake hp
    split
    · rename_i hc
      exact .quits hp hc
    · rename_i hc
      exact .wakes hp (Bool.eq_false_iff.mpr hc)
  · rename_i hp
    have hnow := w.perform_now x.lock.extend
    split
    · rename_i u ha
      rw [ha] at hnow
      have ht := Turn.renews hp ha
      rw [← hnow] at ht
      exact ht
    · rename_i ha
      exact .demotes hp ha nofun
    · rename_i ha
      exact .demotes hp ha nofun

/-- A turn of a start, by the task that makes it: how it goes on, and the world afterwards. -/
inductive StartPhase.Turn (self : TaskId) (name : String) (p : StartPhase) (w : World) :
    Progress StartPhase Bool → World → Prop
  | misses (hs : w.schedulers.find? name = none) : Turn self name p w (.ended false) w
  | rests {s : Scheduler} (hs : w.schedulers.find? name = some s) (hp : p = .entering)
      (hr : isRunning w name = true) : Turn self name p w (.ended true) w
  | enters {s : Scheduler} (hs : w.schedulers.find? name = some s) (hp : p = .entering)
      (hr : isRunning w name = false) :
      Turn self name p w (.on .acquiring)
        (w.modifyScheduler name fun s => { s with gate := some self })
  | wins {s : Scheduler} {u : World} (hs : w.schedulers.find? name = some s) (hp : p = .acquiring)
      (ha : w.perform s.lock.acquire = (.ok true, u)) :
      Turn self name p w (.ended true) (launch name s.lock u)
  | loses {s : Scheduler} {a : Except StoreError Bool} {e : Event} {u : World}
      (hs : w.schedulers.find? name = some s) (hp : p = .acquiring)
      (ha : w.perform s.lock.acquire = (a, u)) (hne : a ≠ .ok true) :
      Turn self name p w (.ended false) (leave name none (u.log (.schedule e)))

/-- Every step of a start is one of its turns. -/
theorem StartPhase.step_turn (self : TaskId) (name : String) (p : StartPhase) (w : World) :
    p.Turn self name w (p.step self name w).1 (p.step self name w).2 := by
  unfold step
  split
  · rename_i hs
    exact .misses hs
  · rename_i s hs
    split
    · split
      · rename_i hr
        exact .rests hs rfl hr
      · rename_i hr
        exact .enters hs rfl (Bool.eq_false_iff.mpr hr)
    · split
      · rename_i ha
        exact .wins hs rfl ha
      · rename_i ha
        exact .loses hs rfl ha nofun
      · rename_i ha
        exact .loses hs rfl ha nofun

/-- A turn of a stop: how it goes on, and the world afterwards. -/
inductive StopPhase.Turn (name : String) (p : StopPhase) (w : World) :
    Progress StopPhase Unit → World → Prop
  | misses (hs : w.schedulers.find? name = none) : Turn name p w (.ended ()) w
  | rests {s : Scheduler} (hs : w.schedulers.find? name = some s) (hp : p = .entering)
      (hn : s.session = none) : Turn name p w (.ended ()) w
  | takes {s : Scheduler} {session : Session} (hs : w.schedulers.find? name = some s)
      (hp : p = .entering) (hn : s.session = some session) :
      Turn name p w (.on (.awaitingExtender session))
        ((w.modifyScheduler name fun s => { s with session := none }).cancel session.extender)
  | cancels {s : Scheduler} {session : Session} (hs : w.schedulers.find? name = some s)
      (hp : p = .awaitingExtender session) :
      Turn name p w (.on (.awaitingMain session.main)) (w.cancel session.main)
  | waits {s : Scheduler} {main : TaskId} (hs : w.schedulers.find? name = some s)
      (hp : p = .awaitingMain main) : Turn name p w (.on .releasing) w
  | releases {s : Scheduler} {a : Except StoreError Bool} {u : World}
      (hs : w.schedulers.find? name = some s) (hp : p = .releasing)
      (ha : w.perform s.lock.release = (a, u)) :
      Turn name p w (.ended ()) (u.log (.schedule (releaseEvent s.lock a)))

/-- Every step of a stop is one of its turns. -/
theorem StopPhase.step_turn (name : String) (p : StopPhase) (w : World) :
    p.Turn name w (p.step name w).1 (p.step name w).2 := by
  unfold step
  split
  · rename_i hs
    exact .misses hs
  · rename_i s hs
    split
    · split
      · rename_i hn
        exact .rests hs rfl hn
      · rename_i session hn
        exact .takes hs rfl hn
    · exact .cancels hs rfl
    · exact .waits hs rfl
    · exact .releases hs rfl rfl

end Schedule

end JobFleet
