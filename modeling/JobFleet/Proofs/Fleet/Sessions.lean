import JobFleet.Proofs.Fleet.Staff

/-!
# What a move does to sessions

A move changes little about extenders, main loops, sessions and stops, whatever else goes on: an
extender is there already or begins with a session, a main loop that has not been cancelled runs
on unless one of three things ends it, a session begins only where a start wins the lock, and a
stop begins only by taking the session away. `World.Shift` says so for every move, so that
invariants of schedulers need not go through the turns again.
-/

namespace JobFleet

/-- Only a main loop leads. -/
theorem Task.mainLoop_of_leads {t : Task} {name : String} {c : Bool}
    (h : t.role? = some (.leads name c)) :
    ∃ m, t = .mainLoop m ∧ m.scheduler = name ∧ m.cancelled = c := by
  unfold role? at h
  split at h
  · rename_i m
    cases h
    exact ⟨m, rfl, rfl, rfl⟩
  all_goals cases h

/-- A main loop that ends without having been cancelled ends with a cycle that panics. -/
theorem Schedule.MainLoop.panics_of_ended {self : TaskId} {m : Schedule.MainLoop} {w : World}
    (h : (m.step self w).1 = .ended ()) (hc : m.cancelled = false) :
    ∃ c, m.phase = .cycling c ∧ (c.step self w).1 = .ended .panicked := by
  obtain ⟨scheduler, cancelled, phase⟩ := m
  cases hc
  cases phase with
  | sleeping wake => cases h
  | cycling c =>
      refine ⟨c, rfl, ?_⟩
      simp only [step, Bool.false_eq_true, if_false] at h
      split at h
      · cases h
      · rename_i ending u hstep
        rw [hstep]
        unfold afterCycle at h
        split at h
        · cases h
        · cases h
        · rfl

/-- A role is what it was, unless it has been cancelled. -/
def Role.Was (r r₀ : Role) : Prop := r = r₀ ∨ r = r₀.cancel

namespace Role.Was

variable {r₀ : Role}

/-- An extender was one of the same main loop. -/
theorem renews {y : Schedule.Extender} (h : (Role.renews y).Was r₀) :
    ∃ x, r₀ = .renews x ∧ y.main = x.main ∧ (x.cancelled = true → y.cancelled = true) := by
  rcases h with rfl | h
  · exact ⟨y, rfl, rfl, fun hc => hc⟩
  · cases r₀ with
    | renews x =>
        cases h
        exact ⟨x, rfl, rfl, fun _ => rfl⟩
    | _ => cases h

/-- A main loop was one of the same scheduler. -/
theorem leads {name : String} {c : Bool} (h : (Role.leads name c).Was r₀) :
    ∃ c', r₀ = .leads name c' := by
  rcases h with rfl | h
  · exact ⟨c, rfl⟩
  · cases r₀ with
    | leads n c' =>
        cases h
        exact ⟨c', rfl⟩
    | _ => cases h

/-- Stops are not cancelled. -/
theorem stops {name : String} {p : Schedule.StopPhase} (h : (Role.stops name p).Was r₀) :
    r₀ = .stops name p := by
  rcases h with rfl | h
  · rfl
  · cases r₀ with
    | stops n p' =>
        cases h
        rfl
    | _ => cases h

end Role.Was

namespace World

/-- A move by which a main loop that has not been cancelled ends: its cycle panics. -/
def BreaksOff (j : TaskId) (w : World) : Move → Prop
  | .step id => id = j ∧ ∃ m c, w.tasks.find? j = some (.mainLoop m) ∧ m.cancelled = false ∧
      m.phase = .cycling c ∧ (c.step j w).1 = .ended .panicked
  | _ => False

/-- A move by which a start of a scheduler takes the scheduler's lock. -/
def Wins (name : String) (w : World) : Move → Prop
  | .step id => ∃ t l, w.tasks.find? id = some t ∧ t.starts? = some (name, .acquiring) ∧
      w.lock? name = some l ∧ (w.perform l.acquire).1 = .ok true
  | _ => False

/-- What a move does to extenders, main loops, sessions and stops. -/
structure Shift (w : World) (m : Move) : Prop where
  /-- An extender was there, or it begins beside its main loop. -/
  renews : ∀ i y, (w.move m).role i = some (.renews y) →
    (∃ x, w.role i = some (.renews x) ∧ y.main = x.main ∧
        (x.cancelled = true → y.cancelled = true)) ∨
      y.main = w.nextTask ∧ i = w.nextTask + 1 ∧
        ∃ name, (w.move m).role w.nextTask = some (.leads name false)
  /-- A main loop runs on, breaks off, or is cancelled by its extender, which ends, or by a stop
  that has seen the extender end. -/
  leads : ∀ j name, w.role j = some (.leads name false) →
    (w.move m).role j = some (.leads name false) ∨ w.BreaksOff j m ∨
      (∃ i x, w.role i = some (.renews x) ∧ x.main = j ∧ (w.move m).role i = none) ∨
      ∃ q n s, w.role q = some (.stops n (.awaitingExtender s)) ∧ s.main = j ∧
        w.role s.extender = none
  /-- A main loop was there, or it begins with the session of its scheduler. -/
  led : ∀ j name c, (w.move m).role j = some (.leads name c) →
    (∃ c', w.role j = some (.leads name c')) ∨
      (w.move m).session? name = some ⟨j, j + 1⟩
  /-- A session was there, or it begins where a start takes the lock. -/
  sessions : ∀ name s, (w.move m).session? name = some s →
    w.session? name = some s ∨ w.Wins name m ∧ s = ⟨w.nextTask, w.nextTask + 1⟩
  /-- A stop that has begun had begun before, or it takes the session away. -/
  stops : ∀ q name p, (w.move m).role q = some (.stops name p) → p ≠ .entering →
    (∃ p', w.role q = some (.stops name p') ∧ p' ≠ .entering ∧
        ∀ s, p = .awaitingExtender s → p' = p) ∨
      (w.move m).session? name = none ∧
        ∃ s, p = .awaitingExtender s ∧ w.session? name = some s

variable {w u : World} {id : TaskId} {left : Option Task}

/-- Where nothing but stops has been asked for, roles and sessions are what they were. -/
theorem Still.shift {m : Move} (h : w.Still (w.move m)) : w.Shift m where
  renews := by
    intro i y hi
    rcases h.role i _ hi with hw | ⟨-, name, he⟩
    · exact .inl ⟨y, hw, rfl, id⟩
    · cases he
  leads := fun j name hj => .inl (h.kept j _ hj)
  led := by
    intro j name c hj
    rcases h.role j _ hj with hw | ⟨-, n, he⟩
    · exact .inl ⟨c, hw⟩
    · cases he
  sessions := fun name s hs => .inl ((h.session name).symm.trans hs)
  stops := by
    intro q name p hq hp
    rcases h.role q _ hq with hw | ⟨-, n, he⟩
    · exact .inl ⟨p, hw, hp, fun _ _ => rfl⟩
    · cases he
      exact absurd rfl hp

/-- What a step does to the roles of the tasks that do not take it: nothing, or it cancels them; a
main loop only if the mover is its extender and ends, or a stop has seen its extender end. -/
def Minds (w u : World) (id : TaskId) (left : Option Task) : Prop :=
  ∀ i, i ≠ id → u.role i = w.role i ∨ u.role i = (w.role i).map Role.cancel ∧
    ∀ name, w.role i = some (.leads name false) →
      (∃ x, w.role id = some (.renews x) ∧ x.main = i ∧ left.bind Task.role? = none) ∨
      ∃ q n s, w.role q = some (.stops n (.awaitingExtender s)) ∧ s.main = i ∧
        w.role s.extender = none

/-- What a role was that another task has after a step. -/
theorem Minds.role (h : w.Minds u id left) {i : TaskId} {r : Role} (hi : i ≠ id)
    (hr : u.role i = some r) : ∃ r₀, w.role i = some r₀ ∧ r.Was r₀ := by
  rcases h i hi with hsame | ⟨hcancel, -⟩
  · exact ⟨r, hsame.symm.trans hr, .inl rfl⟩
  · obtain ⟨r₀, hr₀, hc⟩ := Option.map_eq_some_iff.mp (hcancel.symm.trans hr)
    exact ⟨r₀, hr₀, .inr hc.symm⟩

/-- A main loop of another task runs on, or is cancelled by its extender or by a stop. -/
theorem Minds.leads (h : w.Minds u id left) {j : TaskId} {name : String} (hj : j ≠ id)
    (hr : w.role j = some (.leads name false)) :
    u.role j = some (.leads name false) ∨
      (∃ x, w.role id = some (.renews x) ∧ x.main = j ∧ left.bind Task.role? = none) ∨
      ∃ q n s, w.role q = some (.stops n (.awaitingExtender s)) ∧ s.main = j ∧
        w.role s.extender = none := by
  rcases h j hj with hsame | ⟨-, hwhy⟩
  · exact .inl (hsame.trans hr)
  · exact .inr (hwhy name hr)

/-- A step that begins no session: what becomes of the mover's own role, and whom it cancels. -/
theorem Shift.of_put (he : w.move (.step id) = u.put id left) (others : w.Minds u id left)
    (renews : ∀ y, left.bind Task.role? = some (.renews y) →
      ∃ x, w.role id = some (.renews x) ∧ y.main = x.main ∧
        (x.cancelled = true → y.cancelled = true))
    (leads : ∀ name, w.role id = some (.leads name false) →
      left.bind Task.role? = some (.leads name false) ∨ w.BreaksOff id (.step id))
    (led : ∀ name c, left.bind Task.role? = some (.leads name c) →
      ∃ c', w.role id = some (.leads name c'))
    (sessions : ∀ name s, u.session? name = some s → w.session? name = some s)
    (stops : ∀ name p, left.bind Task.role? = some (.stops name p) → p ≠ .entering →
      (∃ p', w.role id = some (.stops name p') ∧ p' ≠ .entering ∧
          ∀ s, p = .awaitingExtender s → p' = p) ∨
        u.session? name = none ∧ ∃ s, p = .awaitingExtender s ∧ w.session? name = some s) :
    w.Shift (.step id) := by
  have hown : (w.move (.step id)).role id = left.bind Task.role? := by
    rw [he, role_put, if_pos rfl]
  have hother : ∀ i, i ≠ id → (w.move (.step id)).role i = u.role i := by
    intro i hi
    rw [he, role_put, if_neg hi]
  constructor
  case renews =>
    intro i y hi
    left
    by_cases hid : i = id
    · subst hid
      exact renews y (hown.symm.trans hi)
    · obtain ⟨r₀, hr₀, hwas⟩ := others.role hid ((hother i hid).symm.trans hi)
      obtain ⟨x, rfl, hkept⟩ := hwas.renews
      exact ⟨x, hr₀, hkept⟩
  case leads =>
    intro j name hj
    by_cases hid : j = id
    · subst hid
      rw [hown]
      exact (leads name hj).imp_right .inl
    · rw [hother j hid]
      rcases others.leads hid hj with hsame | ⟨x, hx, hm, hnone⟩ | hstop
      · exact .inl hsame
      · exact .inr (.inr (.inl ⟨id, x, hx, hm, hown.trans hnone⟩))
      · exact .inr (.inr (.inr hstop))
  case led =>
    intro j name c hj
    left
    by_cases hid : j = id
    · subst hid
      exact led name c (hown.symm.trans hj)
    · obtain ⟨r₀, hr₀, hwas⟩ := others.role hid ((hother j hid).symm.trans hj)
      obtain ⟨c', rfl⟩ := hwas.leads
      exact ⟨c', hr₀⟩
  case sessions =>
    intro name s hs
    rw [he, session?_put] at hs
    exact .inl (sessions name s hs)
  case stops =>
    intro q name p hq hp
    rw [he, session?_put]
    by_cases hid : q = id
    · subst hid
      exact stops name p (hown.symm.trans hq) hp
    · obtain ⟨r₀, hr₀, hwas⟩ := others.role hid ((hother q hid).symm.trans hq)
      cases hwas.stops
      exact .inl ⟨p, hr₀, hp, fun _ _ => rfl⟩

/-- A step by which no role of another task and no session changes. -/
theorem Shift.of_alike (he : w.move (.step id) = u.put id left) (ha : w.Alike u)
    (renews : ∀ y, left.bind Task.role? = some (.renews y) →
      ∃ x, w.role id = some (.renews x) ∧ y.main = x.main ∧
        (x.cancelled = true → y.cancelled = true))
    (leads : ∀ name, w.role id = some (.leads name false) →
      left.bind Task.role? = some (.leads name false) ∨ w.BreaksOff id (.step id))
    (led : ∀ name c, left.bind Task.role? = some (.leads name c) →
      ∃ c', w.role id = some (.leads name c'))
    (stops : ∀ name p, left.bind Task.role? = some (.stops name p) → p ≠ .entering →
      ∃ p', w.role id = some (.stops name p') ∧ p' ≠ .entering ∧
        ∀ s, p = .awaitingExtender s → p' = p) : w.Shift (.step id) :=
  .of_put he (fun i _ => .inl (ha.role i)) renews leads led
    (fun name _ hs => (ha.session name).symm.trans hs)
    fun name p hp hne => .inl (stops name p hp hne)

/-- A step of a task that controls no scheduler. -/
theorem Sound.shift_quiet (hs : w.Sound) (hw : w.Seated) {t : Task}
    (ht : w.tasks.find? id = some t) (hc : t.controls = false) (hm : w.Admits (.step id)) :
    w.Shift (.step id) := by
  obtain ⟨t', ht', -, he⟩ := move_step hm
  cases ht.symm.trans ht'
  have halike := (t.act_via id w).alike hs.fresh fun _ hd => hd.blind ht hc hs hw
  have hrole : w.role id = t.role? := role_of_find? ht
  rcases Task.act_role id w hc with hsame | ⟨-, hnone⟩
  · rw [← hrole] at hsame
    refine .of_alike he halike ?_ ?_ ?_ ?_
    · intro y hy
      exact ⟨y, hsame.symm.trans hy, rfl, fun h => h⟩
    · exact fun name hj => .inl (hsame.trans hj)
    · exact fun name c hj => ⟨c, hsame.symm.trans hj⟩
    · intro name p hp hne
      exact ⟨p, hsame.symm.trans hp, hne, fun _ _ => rfl⟩
  · rw [hnone] at he
    refine .of_alike he halike nofun ?_ nofun nofun
    intro name' hj
    right
    obtain ⟨m, rfl, -, hcancelled⟩ := Task.mainLoop_of_leads (hrole.symm.trans hj)
    have hended : (m.step id w).1 = .ended () := by
      have hkept : (m.step id w).1.kept .mainLoop (fun _ => none) = none := hnone
      cases hstep : (m.step id w).1 with
      | ended r => rfl
      | on m' =>
          rw [hstep] at hkept
          cases hkept
    obtain ⟨cycle, hphase, hpanics⟩ := Schedule.MainLoop.panics_of_ended hended hcancelled
    exact ⟨rfl, m, cycle, ht, hcancelled, hphase, hpanics⟩

/-- A turn of an extender. -/
theorem shift_extender {x : Schedule.Extender} (hx : w.role id = some (.renews x))
    {next : Progress Schedule.Extender Unit} (hturn : x.Turn w next u)
    (he : w.move (.step id) = u.put id (next.kept .extender fun _ => none)) :
    w.Shift (.step id) := by
  have hlead : ∀ name, w.role id = some (.leads name false) → False := by
    intro name hj
    rw [hx] at hj
    cases hj
  have hsame : ∀ p : Schedule.Extender.Phase, next = .on { x with phase := p } → w.Alike u →
      w.Shift (.step id) := by
    rintro p rfl ha
    refine .of_alike he ha ?_ (fun name hj => (hlead name hj).elim) nofun nofun
    rintro y ⟨⟩
    exact ⟨x, hx, rfl, fun h => h⟩
  cases hturn with
  | quits hp hc =>
      exact .of_alike he (.refl w) nofun (fun name hj => (hlead name hj).elim) nofun nofun
  | wakes hp hc => exact hsame _ rfl (.refl w)
  | renews hp ha => exact hsame _ rfl ((alike_of_perform ha).log _)
  | @demotes a cause u hp ha hne =>
      have halike := (alike_of_perform ha).log (.schedule (.demoted x.lock.name cause))
      refine .of_put he ?_ nofun (fun name hj => (hlead name hj).elim) nofun
        (fun name s hs => (halike.session name).symm.trans hs) nofun
      intro i _
      have hc := (u.log (.schedule (.demoted x.lock.name cause))).role_cancel x.main i
      rw [halike.role] at hc
      split at hc
      · rename_i hi
        exact .inr ⟨hc, fun name _ => .inl ⟨x, hx, hi.symm, rfl⟩⟩
      · exact .inl hc

/-! ## Starts and stops -/

/-- A start that wins the lock begins a session with a new main loop and a new extender. -/
theorem shift_launch {name : String} {l : Lock} {s : Scheduler} (hfresh : w.Fresh)
    (hu : w.Alike u) (hn : u.nextTask = w.nextTask) (hs : u.schedulers.find? name = some s)
    (hid : id < w.nextTask) (hrole : w.role id = none) (hleft : left.bind Task.role? = none)
    (hwins : w.Wins name (.step id))
    (he : w.move (.step id) = (Schedule.StartPhase.launch name l u).put id left) :
    w.Shift (.step id) := by
  have hafter : ∀ i, (w.move (.step id)).role i = if i = w.nextTask + 1 then
      some (.renews ⟨l, w.nextTask, false, .resting (Clock.alarm u.now l.renewInterval)⟩)
      else if i = w.nextTask then some (.leads name false) else w.role i := by
    intro i
    rw [he, role_put]
    split
    · rename_i hi
      rw [hi, if_neg (Nat.ne_of_lt (Nat.lt_succ_of_lt hid)), if_neg (Nat.ne_of_lt hid), hrole,
        hleft]
    · rw [Schedule.StartPhase.launch_role, hn, hu.role]
  have hold : ∀ i r, (w.move (.step id)).role i = some r →
      (∃ x, r = .renews x ∧ i = w.nextTask + 1 ∧ x.main = w.nextTask) ∨ r = .leads name false ∨
        w.role i = some r := by
    intro i r hr
    rw [hafter] at hr
    split at hr
    · rename_i hi
      cases hr
      exact .inl ⟨_, rfl, hi, rfl⟩
    · split at hr
      · cases hr
        exact .inr (.inl rfl)
      · exact .inr (.inr hr)
  constructor
  case renews =>
    intro i y hi
    rcases hold i _ hi with ⟨x, hx, hnew, hm⟩ | hlead | hsame
    · cases hx
      refine .inr ⟨hm, hnew, name, ?_⟩
      rw [hafter, if_neg (Nat.ne_of_lt (Nat.lt_succ_self _)), if_pos rfl]
    · cases hlead
    · exact .inl ⟨y, hsame, rfl, fun h => h⟩
  case leads =>
    intro j n hj
    obtain ⟨t, ht, -⟩ := Option.bind_eq_some_iff.mp hj
    have hlt : j < w.nextTask := hfresh.lt ht
    left
    rw [hafter, if_neg (Nat.ne_of_lt (Nat.lt_succ_of_lt hlt)), if_neg (Nat.ne_of_lt hlt)]
    exact hj
  case led =>
    intro j n c hj
    have hn' := hafter j
    rw [hj] at hn'
    split at hn'
    · cases hn'
    · split at hn'
      · rename_i hnew
        cases hn'
        right
        rw [he, session?_put, Schedule.StartPhase.launch_session name l u hs, if_pos rfl, hn,
          hnew]
      · exact .inl ⟨c, hn'.symm⟩
  case sessions =>
    intro n s' hs'
    rw [he, session?_put, Schedule.StartPhase.launch_session name l u hs, hn] at hs'
    split at hs'
    · rename_i hname
      subst hname
      exact .inr ⟨hwins, (Option.some.inj hs').symm⟩
    · exact .inl ((hu.session n).symm.trans hs')
  case stops =>
    intro q n p hq hp
    rcases hold q _ hq with ⟨x, hx, -⟩ | hlead | hsame
    · cases hx
    · cases hlead
    · exact .inl ⟨p, hsame, hp, fun _ _ => rfl⟩

/-- A turn of a start. -/
theorem shift_starts {t : Task} {name : String} {p : Schedule.StartPhase} (hfresh : w.Fresh)
    (ht : w.tasks.find? id = some t) (hp : t.starts? = some (name, p))
    {next : Progress Schedule.StartPhase Bool} (hturn : p.Turn id name w next u)
    (hleft : left.bind Task.role? = none) (he : w.move (.step id) = u.put id left) :
    w.Shift (.step id) := by
  have hrole : w.role id = none := (role_of_find? ht).trans (Task.act_starts id w hp).1
  have hquiet : w.Alike u → w.Shift (.step id) := by
    intro ha
    refine .of_alike he ha ?_ ?_ ?_ ?_
    · rw [hleft]
      nofun
    · rw [hrole]
      nofun
    · rw [hleft]
      nofun
    · rw [hleft]
      nofun
  cases hturn with
  | misses hs => exact hquiet (.refl w)
  | rests hs hp' hr => exact hquiet (.refl w)
  | enters hs hp' hr =>
      refine hquiet (alike_modifyScheduler ?_ w name)
      exact fun s => ⟨rfl, rfl⟩
  | @loses s a e u hs hp' ha hne =>
      refine hquiet (((alike_of_perform ha).log (.schedule e)).trans
        (alike_modifyScheduler ?_ _ name))
      exact fun s => ⟨rfl, rfl⟩
  | @wins s u hs hp' ha =>
      have hnext := w.perform_nextTask s.lock.acquire
      have hscheds := w.perform_schedulers s.lock.acquire
      rw [ha] at hnext hscheds
      have hwins : w.Wins name (.step id) := by
        refine ⟨t, s.lock, ht, by rw [hp, hp'], ?_, by rw [ha]⟩
        rw [lock?, hs]
        rfl
      exact shift_launch hfresh (alike_of_perform ha) hnext (hscheds ▸ hs) (hfresh.lt ht) hrole
        hleft hwins he

/-- A step of a stop, by how it goes on. -/
theorem Shift.of_stop {name : String} {p : Schedule.StopPhase}
    (hid : w.role id = some (.stops name p)) {state : Option Schedule.StopPhase}
    (hleft : left.bind Task.role? = state.map (.stops name))
    (he : w.move (.step id) = u.put id left) (others : w.Minds u id left)
    (sessions : ∀ n s, u.session? n = some s → w.session? n = some s)
    (stops : ∀ p', state = some p' →
      (p ≠ .entering ∧ ∀ s, p' ≠ .awaitingExtender s) ∨
        u.session? name = none ∧ ∃ s, p' = .awaitingExtender s ∧ w.session? name = some s) :
    w.Shift (.step id) := by
  refine .of_put he others ?_ ?_ ?_ sessions ?_
  · intro y hy
    obtain ⟨p', -, hp'⟩ := Option.map_eq_some_iff.mp (hleft.symm.trans hy)
    cases hp'
  · intro n hn
    cases hid.symm.trans hn
  · intro n c hn
    obtain ⟨p', -, hp'⟩ := Option.map_eq_some_iff.mp (hleft.symm.trans hn)
    cases hp'
  · intro n p₁ hn _
    obtain ⟨p', hstate, hp'⟩ := Option.map_eq_some_iff.mp (hleft.symm.trans hn)
    cases hp'
    rcases stops p₁ hstate with ⟨hne, hnew⟩ | htaken
    · exact .inl ⟨p, hid, hne, fun s hs => absurd hs (hnew s)⟩
    · exact .inr htaken

/-- A stop that takes a session away cancels the session's extender alone, which does not lead. -/
theorem minds_takes (htied : w.Tied) {name : String} {session : Schedule.Session}
    (hs : w.session? name = some session) :
    w.Minds ((w.modifyScheduler name fun s => { s with session := none }).cancel session.extender)
      id left := by
  intro i _
  have hc := (w.modifyScheduler name fun s => { s with session := none }).role_cancel
    session.extender i
  split at hc
  · rename_i hi
    refine .inr ⟨hc, ?_⟩
    intro n hj
    obtain ⟨x, hx⟩ := (htied.sessions name session (.inl hs)).2.role_extender (hi ▸ hj)
    cases hx
  · exact .inl hc

/-- A stop that has seen a session's extender end cancels the session's main loop alone. -/
theorem minds_cancels {name : String} {session : Schedule.Session}
    (hid : w.role id = some (.stops name (.awaitingExtender session)))
    (hgone : w.role session.extender = none) : w.Minds (w.cancel session.main) id left := by
  intro i _
  have hc := w.role_cancel session.main i
  split at hc
  · rename_i hi
    exact .inr ⟨hc, fun _ _ => .inr ⟨id, name, session, hid, hi.symm, hgone⟩⟩
  · exact .inl hc

/-- A turn of a stop. -/
theorem shift_stops {name : String} {p : Schedule.StopPhase} (htied : w.Tied)
    (hid : w.role id = some (.stops name p)) (hready : p.ready name w = true)
    {next : Progress Schedule.StopPhase Unit} (hturn : p.Turn name w next u)
    (hleft : left.bind Task.role? = next.state?.map (.stops name))
    (he : w.move (.step id) = u.put id left) : w.Shift (.step id) := by
  have hends : w.Alike u → next = .ended () → w.Shift (.step id) := by
    rintro ha rfl
    refine .of_stop hid hleft he (fun i _ => .inl (ha.role i))
      (fun n _ hs => (ha.session n).symm.trans hs) ?_
    rintro p' ⟨⟩
  cases hturn with
  | misses hs => exact hends (.refl w) rfl
  | rests hs hp hn => exact hends (.refl w) rfl
  | releases hs hp ha => exact hends ((alike_of_perform ha).log _) rfl
  | @waits s main hs hp =>
      refine .of_stop hid hleft he (fun _ _ => .inl rfl) (fun _ _ hs => hs) ?_
      rintro p' ⟨⟩
      rw [hp]
      refine .inl ⟨?_, ?_⟩
      · rintro ⟨⟩
      · rintro s ⟨⟩
  | @cancels s session hs hp =>
      subst hp
      have hgone : w.role session.extender = none := by
        refine role_of_none ?_
        simpa [Schedule.StopPhase.ready, running, Table.contains] using hready
      refine .of_stop hid hleft he (minds_cancels hid hgone) (fun _ _ hs => hs) ?_
      rintro p' ⟨⟩
      refine .inl ⟨?_, ?_⟩
      · rintro ⟨⟩
      · rintro s ⟨⟩
  | @takes s session hs hp hn =>
      have hsession : w.session? name = some session := by
        rw [session?, hs]
        exact hn
      have htaken : ∀ n, ((w.modifyScheduler name fun s => { s with session := none }).cancel
          session.extender).session? n = if n = name then none else w.session? n := by
        intro n
        refine (session?_modifyScheduler w name n).trans ?_
        rw [hs]
        rfl
      refine .of_stop hid hleft he (minds_takes htied hsession) ?_ ?_
      · intro n s' hs'
        rw [htaken] at hs'
        split at hs'
        · cases hs'
        · exact hs'
      · rintro p' ⟨⟩
        exact .inr ⟨by rw [htaken, if_pos rfl], session, rfl, hsession⟩

/-- Every move changes extenders, main loops, sessions and stops as `World.Shift` says. -/
theorem Regular.shift (h : w.Regular) {m : Move} (hm : w.Admits m) : w.Shift m := by
  cases m with
  | step id =>
      obtain ⟨t, ht, hready, he⟩ := move_step hm
      cases hc : t.controls with
      | false => exact h.sound.shift_quiet h.seated ht hc hm
      | true =>
          rcases Task.controls_cases hc with ⟨x, rfl⟩ | ⟨name, p, hp⟩ | ⟨name, p, hp⟩
          · exact shift_extender (role_of_find? ht) (x.step_turn w) he
          · obtain ⟨-, hleft, next, hturn⟩ := Task.act_starts id w hp
            exact shift_starts h.sound.fresh ht hp hturn hleft he
          · rw [Task.ready_stops id w hp] at hready
            obtain ⟨next, hturn, hleft⟩ := Task.act_stops id w hp
            exact shift_stops h.tied ((role_of_find? ht).trans hp) hready hturn hleft he
  | _ => exact (h.sound.fresh.still hm nofun).shift

/-! ## Pairs -/

/-- An extender is filed right after its main loop, and so are those of a session. -/
structure Paired (w : World) : Prop where
  renews : ∀ i x, w.role i = some (.renews x) → i = x.main + 1
  sessions : ∀ name s, w.Holds name s → s.extender = s.main + 1

theorem paired_around (utc : Int) (s : Store) : (around utc s).Paired where
  renews := by
    intro i x hi
    cases hi
  sessions := by
    rintro name s (hs | ⟨q, hq⟩)
    · cases hs
    · cases hq

/-- A shift keeps the loops paired. -/
theorem Paired.move (h : w.Paired) {m : Move} (hshift : w.Shift m) : (w.move m).Paired where
  renews := by
    intro i y hi
    rcases hshift.renews i y hi with ⟨x, hx, hm, -⟩ | ⟨hm, hi', -⟩
    · rw [hm]
      exact h.renews i x hx
    · rw [hm]
      exact hi'
  sessions := by
    rintro name s (hs | ⟨q, hq⟩)
    · rcases hshift.sessions name s hs with hs' | ⟨-, rfl⟩
      · exact h.sessions name s (.inl hs')
      · rfl
    · rcases hshift.stops q name _ hq nofun with ⟨p', hq', -, hp'⟩ | ⟨-, s', he, hs'⟩
      · exact h.sessions name s (.inr ⟨q, hp' s rfl ▸ hq'⟩)
      · cases he
        exact h.sessions name s (.inl hs')

/-- In every history extenders come right after their main loops. -/
theorem History.paired {rule : World → Move → Prop} {utc : Int} {s : Store} {ms : List Move}
    (h : History rule (around utc s) ms w) : w.Paired := by
  have hall : w.Regular ∧ w.Paired := by
    refine h.keeps (P := fun v => v.Regular ∧ v.Paired)
      ⟨regular_around utc s, paired_around utc s⟩ ?_
    rintro v m hm - ⟨hr, hp⟩
    exact ⟨hr.move hm, hp.move (hr.shift hm)⟩
  exact hall.2

end World

end JobFleet
