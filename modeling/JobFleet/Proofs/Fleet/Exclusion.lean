import JobFleet.Proofs.Fleet.Tenure

/-!
# One main loop under a lock

As long as a lock is kept by its schedulers alone, its timers ring in time and no scheduler is
started and stopped at once, every step of an extender, a start or a stop keeps the lease. So at
most one main loop runs under the lock that has not been cancelled, and its scheduler holds the
lock until an instant that is still to come.
-/

namespace JobFleet

/-- The scheduler that a start has begun to start. -/
def Task.starting? (t : Task) : Option String :=
  match t.starts? with
  | some (name, .acquiring) => some name
  | _ => none

/-- The scheduler that a stop has begun to stop. -/
def Task.stopping? (t : Task) : Option String :=
  match t.role? with
  | some (.stops name p) => if p = .entering then none else some name
  | _ => none

/-- A start that acquires has the controller's guard. -/
theorem Task.starting?_of_acquiring {t : Task} {name : String}
    (h : t.starts? = some (name, .acquiring)) : t.starting? = some name := by
  rw [starting?, h]

/-- A stop beyond the guard has it. -/
theorem Task.stopping?_of_stops {t : Task} {name : String} {p : Schedule.StopPhase}
    (h : t.role? = some (.stops name p)) (hp : p ≠ .entering) : t.stopping? = some name := by
  rw [stopping?, h]
  exact if_neg hp

namespace World

variable {lockName : String} {w : World} {id : TaskId}

/-- What is expected of the schedulers of a lock: times to live of a second or more, tokens of
their own, and no start of one that is being stopped. -/
structure Orderly (lockName : String) (w : World) : Prop where
  long : ∀ e ∈ w.schedulers.entries, e.2.lock.name = lockName → Duration.ofSecs 1 ≤ e.2.lock.ttl
  distinct : ∀ e ∈ w.schedulers.entries, ∀ e' ∈ w.schedulers.entries,
    e.2.lock.name = lockName → e'.2.lock.name = lockName →
      e.2.lock.token = e'.2.lock.token → e.1 = e'.1
  apart : ∀ e ∈ w.tasks.entries, ∀ e' ∈ w.tasks.entries, ∀ name ∈ e.2.starting?,
    e'.2.stopping? = some name → ∀ l ∈ w.lock? name, l.name ≠ lockName

instance (lockName : String) (w : World) : Decidable (w.Orderly lockName) :=
  decidable_of_iff
    ((∀ e ∈ w.schedulers.entries, e.2.lock.name = lockName →
        Duration.ofSecs 1 ≤ e.2.lock.ttl) ∧
      (∀ e ∈ w.schedulers.entries, ∀ e' ∈ w.schedulers.entries,
        e.2.lock.name = lockName → e'.2.lock.name = lockName →
          e.2.lock.token = e'.2.lock.token → e.1 = e'.1) ∧
      ∀ e ∈ w.tasks.entries, ∀ e' ∈ w.tasks.entries, ∀ name ∈ e.2.starting?,
        e'.2.stopping? = some name → ∀ l ∈ w.lock? name, l.name ≠ lockName)
    ⟨fun h => ⟨h.1, h.2.1, h.2.2⟩, fun h => ⟨h.long, h.distinct, h.apart⟩⟩

/-- What a scheduler's lock is filed under. -/
theorem mem_of_lock? {name : String} {l : Lock} (h : w.lock? name = some l) :
    ∃ s, (name, s) ∈ w.schedulers.entries ∧ s.lock = l := by
  obtain ⟨s, hs, he⟩ := Option.map_eq_some_iff.mp h
  exact ⟨s, Table.mem_of_find? hs, he⟩

/-- The locks of an orderly world live for a second at the least. -/
theorem Orderly.ttl (h : w.Orderly lockName) {name : String} {l : Lock}
    (hl : w.lock? name = some l) (hn : l.name = lockName) : Duration.ofSecs 1 ≤ l.ttl := by
  obtain ⟨s, hs, rfl⟩ := mem_of_lock? hl
  exact h.long _ hs hn

/-- The locks of an orderly world have tokens of their own. -/
theorem Orderly.tokens (h : w.Orderly lockName) : w.Distinct lockName := by
  intro name name' l l' hl hl' hn hn' ht
  obtain ⟨s, hs, rfl⟩ := mem_of_lock? hl
  obtain ⟨s', hs', rfl⟩ := mem_of_lock? hl'
  exact h.distinct _ hs _ hs' hn hn' ht

/-- While a start acquires, nobody releases its lock. -/
theorem Orderly.no_stop (h : w.Orderly lockName) {t : Task} (ht : w.tasks.find? id = some t)
    {name : String} {l : Lock} (hstart : t.starts? = some (name, .acquiring))
    (hl : w.lock? name = some l) {q : TaskId} {p : Schedule.StopPhase}
    (hq : w.role q = some (.stops name p)) (hp : p ≠ .entering) : l.name ≠ lockName := by
  obtain ⟨u, hu, hrole⟩ := Option.bind_eq_some_iff.mp hq
  exact h.apart _ (Table.mem_of_find? ht) _ (Table.mem_of_find? hu) name
    (Task.starting?_of_acquiring hstart) (Task.stopping?_of_stops hrole hp) l hl

/-- Time passes no further than the tasks that a lease depends on allow. -/
def InTime (lockName : String) (w : World) : Move → Prop
  | .pass t => w.Punctual lockName t
  | _ => True

instance (lockName : String) (w : World) (m : Move) : Decidable (w.InTime lockName m) :=
  match m with
  | .pass t => inferInstanceAs (Decidable (w.Punctual lockName t))
  | .step _ | .turn _ | .favour _ | .launch _ | .collect _ | .disturb _ | .reach _ | .call _
  | .openGate .. | .handler _ | .runner .. | .scheduler .. | .limiter .. | .lock .. | .app ..
  | .update .. => .isTrue trivial

/-- A lock is written by its schedulers alone, a call that fails has had no effect, the
schedulers are in order, and timers ring in time. -/
def LockKept (lockName : String) (w : World) (m : Move) : Prop :=
  ¬ w.Intrudes (lockKey lockName) m ∧ m.Prompt ∧ (w.move m).Orderly lockName ∧
    w.InTime lockName m

instance (lockName : String) (w : World) (m : Move) : Decidable (LockKept lockName w m) :=
  inferInstanceAs (Decidable (¬ w.Intrudes (lockKey lockName) m ∧ m.Prompt ∧
    (w.move m).Orderly lockName ∧ w.InTime lockName m))

/-- A world in which a lock is kept, with all that this takes. -/
structure Tended (lockName : String) (w : World) : Prop where
  sound : w.Sound
  seated : w.Seated
  spared : w.Spared (lockKey lockName)
  prompt : w.Prompt
  orderly : w.Orderly lockName
  lease : w.Lease lockName

theorem tended_around (lockName : String) (utc : Int) (s : Store) :
    (around utc s).Tended lockName where
  sound := .of_none fun _ => rfl
  seated := by
    intro name r s hr
    cases hr
  spared := spared_around utc s _
  prompt := prompt_around utc s
  orderly := by
    constructor
    case long =>
      intro e he
      cases he
    case distinct =>
      intro e he
      cases he
    case apart =>
      intro e he
      cases he
  lease := .of_none (fun _ => rfl) fun _ => rfl

namespace Tended

variable (h : w.Tended lockName)

include h

/-! ## Extenders -/

/-- An extender that has renewed its lock keeps the lease. -/
theorem extender_renews {x : Schedule.Extender} (hx : w.role id = some (.renews x)) {u : World}
    (ha : w.perform x.lock.extend = (.ok true, u)) {e : Event} {left : Option Task}
    (hleft : left.bind Task.role? = some (.renews
      { x with phase := .resting (Clock.alarm w.now x.lock.renewInterval) }))
    (hs : w.Steady ((u.log e).put id left)) : ((u.log e).put id left).Lease lockName := by
  have halike := alike_of_perform ha
  refine h.lease.goesOn (p := .resting (Clock.alarm w.now x.lock.renewInterval))
    h.orderly.tokens ⟨hs, hx, ?_, ?_⟩ ?_ ?_
  · intro i
    rw [role_put]
    split
    · exact hleft
    · exact halike.role i
  · intro n
    rw [session?_put]
    exact halike.session n
  · rintro rfl
    obtain ⟨n, hl, -⟩ := h.lease.owned id x hx rfl
    refine ⟨Clock.expiry w.now x.lock.ttl, ⟨?_, ?_⟩, ?_⟩
    · rw [put_entry, ← extend_granted h.spared ha]
      rfl
    · rw [hs.now]
      exact Clock.lt_expiry _ _
    · intro wake he
      cases he
      exact Clock.alarm_half_lt_expiry w.now (h.orderly.ttl hl rfl)
  · intro hn
    rw [put_entry, ← Lock.Asks.extend.entry_of_ne h.spared ha hn]
    rfl

/-- An extender that has lost its lock, and cancels its main loop, keeps the lease. -/
theorem extender_demotes {x : Schedule.Extender} (hx : w.role id = some (.renews x))
    {a : Except StoreError Bool} {u : World} (ha : w.perform x.lock.extend = (a, u))
    (hne : a ≠ .ok true) {e : Event} {left : Option Task} (hleft : left.bind Task.role? = none)
    (hs : w.Steady (((u.log e).cancel x.main).put id left)) :
    (((u.log e).cancel x.main).put id left).Lease lockName := by
  have halike := (alike_of_perform ha).log e
  have hentry : (u.log e).entry (lockKey lockName) = w.entry (lockKey lockName) :=
    Lock.Asks.extend.entry_of_refused (u := u) h.prompt h.spared ha hne
  have hkind := h.lease.mains id x hx
  have hmain : x.main ≠ id := by
    intro he
    obtain ⟨n, c, hr⟩ := hkind.role_mainLoop (he ▸ hx)
    cases hr
  have hown : (((u.log e).cancel x.main).put id left).role id =
      (none : Option Schedule.Extender).map .renews := by
    rw [role_put, if_pos rfl, hleft]
    rfl
  refine h.lease.eases h.orderly.tokens (hs.eases (.inl ?_) ?_ hx hown (.quits (.inr ?_)) ?_)
  · rw [put_entry]
    exact hentry
  · intro n
    rw [session?_put]
    exact halike.session n
  · intro n
    rw [role_put, if_neg hmain]
    exact not_leads_cancel _ x.main n
  · intro i hi
    rw [role_put, if_neg hi]
    exact halike.role_cancel hkind i

/-- A turn of an extender keeps the lease. -/
theorem extender {x : Schedule.Extender} (hx : w.role id = some (.renews x))
    {next : Progress Schedule.Extender Unit} {u : World} (hturn : x.Turn w next u)
    (hs : w.Steady (u.put id (next.kept .extender fun _ => none))) :
    (u.put id (next.kept .extender fun _ => none)).Lease lockName := by
  have hd := h.orderly.tokens
  cases hturn with
  | quits hp hc =>
      refine h.lease.eases hd (hs.eases (.inl (by rw [put_entry])) (fun n => w.session?_put id _ n)
        hx (w.role_put id _ id) ?_ ?_)
      · rw [if_pos rfl]
        exact .quits (.inl hc)
      · intro i hi
        rw [role_put, if_neg hi]
        exact .inl rfl
  | wakes hp hc =>
      refine h.lease.goesOn (p := .extending) hd
        ⟨hs, hx, w.role_put id _, fun n => w.session?_put id _ n⟩ ?_ ?_
      · intro hn
        obtain ⟨expiry, hheld, -⟩ := h.lease.leased id x hx hn
        exact ⟨expiry, hs.heldUntil hheld hn (by rw [put_entry]), nofun⟩
      · intro _
        rw [put_entry]
  | renews hp ha => exact h.extender_renews hx ha rfl hs
  | demotes hp ha hne => exact h.extender_demotes hx ha hne rfl hs

/-! ## Starts -/

/-- A start that has been granted its lock, and spawns the two loops, keeps the lease. -/
theorem start_wins {t : Task} (ht : w.tasks.find? id = some t) {name : String}
    (hp : t.starts? = some (name, .acquiring)) {s : Scheduler}
    (hsched : w.schedulers.find? name = some s) {u : World}
    (ha : w.perform s.lock.acquire = (.ok true, u)) {left : Option Task}
    (hleft : left.bind Task.role? = none)
    (hs : w.Steady ((Schedule.StartPhase.launch name s.lock u).put id left)) :
    ((Schedule.StartPhase.launch name s.lock u).put id left).Lease lockName := by
  have hid : w.role id = none := (role_of_find? ht).trans (Task.act_starts id w hp).1
  have halike := alike_of_perform ha
  have hl : w.lock? name = some s.lock := by
    rw [lock?, hsched]
    rfl
  have hnext : u.nextTask = w.nextTask := by
    have hn := w.perform_nextTask s.lock.acquire
    rw [ha] at hn
    exact hn
  have hafter : u.schedulers.find? name = some s := by
    have hn := w.perform_schedulers s.lock.acquire
    rw [ha] at hn
    rw [hn]
    exact hsched
  have hlt : id < w.nextTask := h.sound.fresh.lt ht
  have hrole : ∀ i, ((Schedule.StartPhase.launch name s.lock u).put id left).role i =
      if i = w.nextTask + 1 then some (.renews ⟨s.lock, w.nextTask, false,
        .resting (Clock.alarm w.now s.lock.renewInterval)⟩)
      else if i = w.nextTask then some (.leads name false) else w.role i := by
    intro i
    rw [role_put]
    split
    · rename_i hi
      subst hi
      rw [if_neg (Nat.ne_of_lt (Nat.lt_succ_of_lt hlt)), if_neg (Nat.ne_of_lt hlt), hid, hleft]
    · rw [Schedule.StartPhase.launch_role, hnext, halike.now, halike.role]
  have hmain := Schedule.StartPhase.launch_main name s.lock u
  have hext := Schedule.StartPhase.launch_extender name s.lock u
  rw [hnext] at hmain hext
  have ho : w.Opens ((Schedule.StartPhase.launch name s.lock u).put id left) name s.lock
      (Clock.alarm w.now s.lock.renewInterval) := by
    refine ⟨hs, h.sound.fresh, hl, hrole, ?_, hmain.put id left ?_, hext.put id left ?_⟩
    · intro n
      rw [session?_put, Schedule.StartPhase.launch_session name s.lock u hafter, hnext,
        halike.session]
    · exact fun he => absurd he (Nat.ne_of_gt hlt)
    · exact fun he => absurd he (Nat.ne_of_gt (Nat.lt_succ_of_lt hlt))
  refine h.lease.opens ho ?_ ?_ ?_
  · rintro rfl
    obtain ⟨hnone, hheld⟩ := acquire_granted h.spared ha
    refine ⟨h.lease.idle_of_none hnone, Clock.expiry w.now s.lock.ttl, ⟨?_, ?_⟩, ?_⟩
    · rw [put_entry, ← hheld]
      rfl
    · rw [hs.now]
      exact Clock.lt_expiry _ _
    · exact Clock.alarm_half_lt_expiry w.now (h.orderly.ttl hl rfl)
  · intro hn
    rw [put_entry, ← Lock.Asks.acquire.entry_of_ne h.spared ha hn]
    rfl
  · intro q p hq hne
    exact h.orderly.no_stop ht hp hl hq hne

/-- A turn of a start keeps the lease. -/
theorem starts {t : Task} (ht : w.tasks.find? id = some t) {name : String}
    {p : Schedule.StartPhase} (hp : t.starts? = some (name, p)) {next : Progress _ Bool} {u : World}
    (hturn : p.Turn id name w next u) {left : Option Task} (hleft : left.bind Task.role? = none)
    (hs : w.Steady (u.put id left)) : (u.put id left).Lease lockName := by
  have hid : w.role id = none := (role_of_find? ht).trans (Task.act_starts id w hp).1
  have hquiet : w.Alike u → u.entry (lockKey lockName) = w.entry (lockKey lockName) →
      (u.put id left).Lease lockName := fun halike hentry =>
    h.lease.eases h.orderly.tokens
      ((Quiet.of_put halike hentry (.inl (hleft.trans hid.symm))).eases hs.kind)
  cases hturn with
  | misses hs' => exact hquiet (.refl w) rfl
  | rests hs' hp' hr => exact hquiet (.refl w) rfl
  | enters hs' hp' hr =>
      refine hquiet (alike_modifyScheduler ?_ w name) rfl
      exact fun s => ⟨rfl, rfl⟩
  | @loses s a e u hs' hp' ha hne =>
      have halike := (alike_of_perform ha).log (.schedule e)
      refine hquiet (halike.trans (alike_modifyScheduler ?_ _ name)) ?_
      · exact fun s => ⟨rfl, rfl⟩
      · exact Lock.Asks.acquire.entry_of_refused (u := u) h.prompt h.spared ha hne
  | wins hs' hp' ha =>
      subst hp'
      exact h.start_wins ht hp hs' ha hleft hs

/-! ## Stops -/

/-- A stop that takes a session away keeps the lease. -/
theorem stop_takes {name : String} {s : Scheduler} {session : Schedule.Session}
    (hid : w.role id = some (.stops name .entering)) (hs : w.schedulers.find? name = some s)
    (hn : s.session = some session) {left : Option Task}
    (hleft : left.bind Task.role? = some (.stops name (.awaitingExtender session)))
    (hsteady : w.Steady (((w.modifyScheduler name fun s => { s with session := none }).cancel
      session.extender).put id left)) :
    (((w.modifyScheduler name fun s => { s with session := none }).cancel
      session.extender).put id left).Lease lockName := by
  have hl : w.lock? name = some s.lock := by
    rw [lock?, hs]
    rfl
  have hsess : w.session? name = some session := by
    rw [session?, hs]
    exact hn
  have hext := (h.lease.sessions name session (.inl hsess)).2.1
  refine h.lease.takesOver h.orderly.tokens ⟨hsteady, hid, hsess, hext, ?_, ?_⟩ ⟨_, hl⟩
    (by rw [put_entry]; rfl)
  · intro i
    rw [role_put]
    split
    · exact hleft
    · exact role_cancel _ _ i
  · intro n
    rw [session?_put]
    refine (session?_modifyScheduler w name n).trans ?_
    rw [hs]
    rfl

/-- A stop that has seen a session's extender end, and cancels its main loop, keeps the lease. -/
theorem stop_cancels {name : String} {session : Schedule.Session}
    (hid : w.role id = some (.stops name (.awaitingExtender session)))
    (hgone : w.role session.extender = none) {left : Option Task}
    (hleft : left.bind Task.role? = some (.stops name (.awaitingMain session.main)))
    (hsteady : w.Steady ((w.cancel session.main).put id left)) :
    ((w.cancel session.main).put id left).Lease lockName := by
  obtain ⟨hmain, hext, -⟩ := h.lease.sessions name session (.inr ⟨id, hid⟩)
  have hown : ((w.cancel session.main).put id left).role id =
      some (.stops name (.awaitingMain session.main)) := by
    rw [role_put, if_pos rfl, hleft]
  have hne : session.main ≠ id := by
    intro he
    obtain ⟨n, c, hr⟩ := hmain.role_mainLoop (he ▸ hid)
    cases hr
  refine h.lease.eases h.orderly.tokens (hsteady.eases (.inl (put_entry _ id left _))
    (fun n => session?_put _ id left n) hid hown (.goesOn ?_ ?_ ?_) ?_)
  · rintro ⟨⟩
  · rintro s' ⟨⟩
  · intro s' he
    cases he
    refine ⟨hgone, ?_⟩
    intro n
    rw [role_put, if_neg hne]
    exact not_leads_cancel w session.main n
  · intro i hi
    rw [role_put, if_neg hi]
    exact (Alike.refl w).role_cancel hmain i

/-- A stop that releases its scheduler's lock keeps the lease. -/
theorem stop_releases {name : String} {s : Scheduler} {a : Except StoreError Bool} {u : World}
    (hid : w.role id = some (.stops name .releasing)) (hs : w.schedulers.find? name = some s)
    (ha : w.perform s.lock.release = (a, u)) {left : Option Task}
    (hleft : left.bind Task.role? = none)
    {e : Event} (hsteady : w.Steady ((u.log e).put id left)) :
    ((u.log e).put id left).Lease lockName := by
  have hd := h.orderly.tokens
  have halike := alike_of_perform ha
  have hl : w.lock? name = some s.lock := by
    rw [lock?, hs]
    rfl
  have hown : ((u.log e).put id left).role id =
      (none : Option Schedule.StopPhase).map (.stops name) := by
    rw [role_put, if_pos rfl, hleft]
    rfl
  refine h.lease.eases hd (hsteady.eases ?_ ?_ hid hown (.leaves ?_) ?_)
  · rw [put_entry]
    by_cases hn : s.lock.name = lockName
    · by_cases hok : a = .ok true
      · subst hn hok
        exact .inr (h.lease.idle_of_releasing hd hid hl rfl (release_granted h.spared ha))
      · exact .inl (Lock.Asks.release.entry_of_refused (u := u) h.prompt h.spared ha hok)
    · exact .inl (Lock.Asks.release.entry_of_ne (u := u) h.spared ha hn)
  · intro n
    rw [session?_put]
    exact halike.session n
  · rintro s' ⟨⟩
  · intro i hi
    rw [role_put, if_neg hi]
    exact .inl (halike.role i)

/-- A turn of a stop keeps the lease. -/
theorem stops {name : String} {p : Schedule.StopPhase} (hid : w.role id = some (.stops name p))
    (hready : p.ready name w = true) {next : Progress Schedule.StopPhase Unit} {u : World}
    (hturn : p.Turn name w next u) {left : Option Task}
    (hleft : left.bind Task.role? = next.state?.map (.stops name)) (hs : w.Steady (u.put id left)) :
    (u.put id left).Lease lockName := by
  have hd := h.orderly.tokens
  have hown : (u.put id left).role id = next.state?.map (.stops name) := by
    rw [role_put, if_pos rfl, hleft]
  have hends : u = w → next = .ended () → p = .entering → (u.put id left).Lease lockName := by
    rintro rfl rfl rfl
    exact h.lease.eases hd
      ((Quiet.of_put (.refl u) rfl (.inr ⟨hleft, .inr ⟨name, hid⟩⟩)).eases hs.kind)
  cases hturn with
  | misses hs' =>
      refine hends rfl rfl (Classical.byContradiction fun hp => ?_)
      obtain ⟨l, hl⟩ := h.lease.stoppers id name p hid hp
      rw [lock?, hs'] at hl
      cases hl
  | rests hs' hp hn => exact hends rfl rfl hp
  | takes hs' hp hn =>
      subst hp
      exact h.stop_takes hid hs' hn hleft hs
  | @cancels s session hs' hp =>
      subst hp
      have hgone : w.role session.extender = none := by
        refine role_of_none ?_
        simpa [Schedule.StopPhase.ready, running, Table.contains] using hready
      exact h.stop_cancels hid hgone hleft hs
  | @waits s main hs' hp =>
      subst hp
      refine h.lease.eases hd (hs.eases (.inl (put_entry _ id left _))
        (fun n => session?_put _ id left n) hid hown (.goesOn ?_ ?_ ?_) ?_)
      · rintro ⟨⟩
      · rintro s' ⟨⟩
      · rintro s' ⟨⟩
      · intro i hi
        rw [role_put, if_neg hi]
        exact .inl rfl
  | releases hs' hp ha =>
      subst hp
      exact h.stop_releases hid hs' ha hleft hs

/-! ## Moves -/

/-- A step of a task keeps the lease. -/
theorem step (hm : w.Admits (.step id)) (hi : ¬ w.Intrudes (lockKey lockName) (.step id)) :
    (w.move (.step id)).Lease lockName := by
  have hs := w.steady_step hm
  obtain ⟨t, ht, hready, he⟩ := move_step hm
  cases hc : t.controls with
  | false =>
      exact h.lease.eases h.orderly.tokens
        ((h.sound.quiet_step h.seated h.spared ht hc hm hi).eases hs.kind)
  | true =>
      rcases Task.controls_cases hc with ⟨x, rfl⟩ | ⟨name, p, hp⟩ | ⟨name, p, hp⟩
      · rw [he] at hs ⊢
        exact h.extender (role_of_find? ht) (x.step_turn w) hs
      · rw [he] at hs ⊢
        obtain ⟨-, hleft, next, hturn⟩ := Task.act_starts id w hp
        exact h.starts ht hp hturn hleft hs
      · rw [he] at hs ⊢
        rw [Task.ready_stops id w hp] at hready
        obtain ⟨next, hturn, hleft⟩ := Task.act_stops id w hp
        exact h.stops ((role_of_find? ht).trans hp) hready hturn hleft hs

/-- A move that keeps to the rule keeps the lock tended. -/
theorem move {m : Move} (hm : w.Admits m) (hr : LockKept lockName w m) :
    (w.move m).Tended lockName := by
  obtain ⟨hi, hprompt, horderly, htime⟩ := hr
  have hlease : (w.move m).Lease lockName := by
    have hquiet : (∀ id, m ≠ .step id) → (∀ t, m ≠ .pass t) → (w.move m).Lease lockName :=
      fun hstep hpass => h.lease.eases h.orderly.tokens
        ((h.sound.quiet_move h.spared hm hi hstep hpass).eases fun _ _ hk => hk.move hm)
    cases m with
    | step id => exact h.step hm hi
    | pass t => exact h.lease.passes hm htime
    | _ => exact hquiet nofun nofun
  exact ⟨h.sound.move hm, h.seated.move h.sound hm, h.spared.move hm hi, h.prompt.move hm hprompt,
    horderly, hlease⟩

end Tended

/-- A history that keeps to the rule leads to a world in which the lock is tended. -/
theorem History.tended {utc : Int} {s : Store} {ms : List Move}
    (h : History (LockKept lockName) (around utc s) ms w) : w.Tended lockName :=
  h.keeps (tended_around lockName utc s) fun _ _ hm hr hv => hv.move hm hr

/-- A main loop that runs for a scheduler and has not been cancelled. -/
def Leads (w : World) (name : String) (j : TaskId) : Prop :=
  ∃ m, w.tasks.find? j = some (.mainLoop m) ∧ m.scheduler = name ∧ m.cancelled = false

/-- A leader is a main loop nobody has cancelled. -/
theorem Leads.role {name : String} {j : TaskId} (h : w.Leads name j) :
    w.role j = some (.leads name false) := by
  obtain ⟨m, hm, rfl, hc⟩ := h
  rw [role_of_find? hm, Task.role?, hc]

/-- If a lock is kept, then a scheduler of the lock whose main loop runs and has not been cancelled
holds the lock until an instant that is still to come, and no other main loop runs under the lock
that has not been cancelled. -/
theorem one_leader {utc : Int} {s : Store} {ms : List Move}
    (h : History (LockKept lockName) (around utc s) ms w) {name : String} {j : TaskId} {l : Lock}
    (hj : w.Leads name j) (hl : w.lock? name = some l) (hn : l.name = lockName) :
    (∃ expiry, w.entry (lockKey lockName) = some ⟨l.token, some expiry⟩ ∧ w.now < expiry) ∧
      ∀ name' j' l', w.Leads name' j' → w.lock? name' = some l' → l'.name = lockName →
        name' = name ∧ j' = j := by
  have ht := h.tended
  refine ⟨?_, ?_⟩
  · subst hn
    exact ht.lease.leased_of_leads hj.role hl rfl
  · intro name' j' l' hj' hl' hn'
    exact ht.lease.sole_leader ht.orderly.tokens hj'.role hj.role hl' hl hn' hn

/-- A scheduler of one lock whose cycles do nothing. -/
def sweeper (name : String) : Move :=
  .scheduler name "sweep" (.ofSecs 2) (.held ⟨false, 60⟩) (.scripted 0 fun _ => ⟨none, .panicked⟩)

/-- Two schedulers of one lock. The first one starts, the second one is refused; the lock is
renewed after a second. Then the first one is stopped, and the second one starts. -/
def handover : List Move :=
  [sweeper "a", sweeper "b", .launch (.startScheduler "a" .entering), .step 0, .step 0,
    .launch (.startScheduler "b" .entering), .step 3, .step 3, .pass 1000000000, .step 2, .step 2,
    .launch (.stopScheduler "a" .entering), .step 4, .step 2, .step 4, .step 1, .step 4, .step 4,
    .launch (.startScheduler "b" .entering), .step 5, .step 5]

/-- The second scheduler's main loop runs then, under its own token, and no other one does. -/
theorem one_leader_handover :
    ((around 0 .empty).after handover).Leads "b" 6 ∧
      (∃ expiry, ((around 0 .empty).after handover).entry (lockKey "sweep") =
        some ⟨"00000000000000000000000000000002", some expiry⟩ ∧
          ((around 0 .empty).after handover).now < expiry) ∧
      ∀ name j l, ((around 0 .empty).after handover).Leads name j →
        ((around 0 .empty).after handover).lock? name = some l → l.name = "sweep" →
          name = "b" ∧ j = 6 := by
  have h : History (LockKept "sweep") (around 0 .empty) handover _ := .of_check (by decide +kernel)
  have hj : ((around 0 .empty).after handover).Leads "b" 6 := ⟨.start "b", by rfl, rfl, rfl⟩
  have hl : ((around 0 .empty).after handover).lock? "b" =
      some ⟨"sweep", "00000000000000000000000000000002", .ofSecs 2⟩ := by decide +kernel
  exact ⟨hj, one_leader h hj hl rfl⟩

end World

end JobFleet
