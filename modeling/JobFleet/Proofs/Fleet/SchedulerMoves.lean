import JobFleet.Proofs.Fleet.Renewal

/-!
# What a move does to one scheduler

Starts and stops of a scheduler pass its gate one by one. A start holds the gate until it has an
answer about the lock, so the session that it found is still there then, and its main loop still
ended. `World.SchedulerMove` lists what a move does to the session and to the gate; everything else
passes a scheduler by. A scheduler that hands its ticks to a runner does so for good, and its main
loops never panic.
-/

namespace JobFleet

open Schedule (Session)

/-! ## The gate of a scheduler -/

/-- A deed that leaves the gates of schedulers alone. -/
def Deed.KeepsGate : Deed → Prop
  | .scheduler _ f => ∀ s, (f s).gate = s.gate
  | _ => True

/-- Who controls no scheduler leaves gates alone. -/
theorem Task.MayDo.keepsGate {w : World} {t : Task} {d : Deed} (h : Task.MayDo w t d)
    (hc : t.controls = false) : d.KeepsGate := by
  cases h with
  | @aside d h =>
      cases d with
      | scheduler name f => exact fun s => (h s).2.2.1
      | _ => trivial
  | handIn _ h => cases h <;> trivial
  | worker _ h => cases h <;> trivial
  | control h _ =>
      rw [hc] at h
      cases h
  | _ => trivial

namespace World

variable {w u v : World} {name : String} {m : Move}

/-- The start that holds a scheduler's gate. -/
def gate? (w : World) (name : String) : Option TaskId :=
  (w.schedulers.find? name).bind Scheduler.gate

/-- A change of one scheduler changes no other's gate. -/
theorem gate?_modifyScheduler {f : Scheduler → Scheduler} (w : World) (n name : String) :
    (w.modifyScheduler n f).gate? name =
      if name = n then ((w.schedulers.find? n).map f).bind Scheduler.gate else w.gate? name := by
  unfold gate? modifyScheduler
  rw [Table.find?_modify]
  split <;> rfl

@[simp] theorem gate?_put (w : World) (id : TaskId) (left : Option Task) (name : String) :
    (w.put id left).gate? name = w.gate? name := by
  cases left <;> rfl

/-- A gate is read off the schedulers. -/
theorem gate?_of_schedulers (h : v.schedulers = w.schedulers) : v.gate? name = w.gate? name := by
  rw [gate?, h, gate?]

/-- A session is read off the schedulers. -/
theorem session?_of_schedulers (h : v.schedulers = w.schedulers) :
    v.session? name = w.session? name := by
  rw [session?, h, session?]

/-- Deeds that leave gates alone. -/
theorem Via.gate? {D : Deed → Prop} (h : w.Via D v) (hD : ∀ d, D d → d.KeepsGate) :
    v.gate? name = w.gate? name := by
  refine h.keeps (P := fun u => u.gate? name = w.gate? name) ?_ rfl
  intro u d hd hu
  refine Eq.trans ?_ hu
  have hk := hD d hd
  cases d with
  | scheduler n f =>
      refine (u.gate?_modifyScheduler n name).trans ?_
      split
      · rename_i hn
        rw [World.gate?, hn]
        cases u.schedulers.find? n with
        | none => rfl
        | some s => exact hk s
      · rfl
  | call c => exact gate?_of_schedulers (u.perform_schedulers c.2)
  | _ => rfl

/-- An unlocked controller has an open gate. -/
theorem gate?_of_unlocked (h : Schedule.unlocked w name = true) : w.gate? name = none := by
  unfold Schedule.unlocked at h
  unfold gate?
  cases hs : w.schedulers.find? name with
  | none => rfl
  | some s => simpa [hs] using h

/-- What is set up is no scheduler that is there, and leaves its session and its gate alone. -/
theorem SetUp.session_gate (hu : w.SetUp v) (name : String) :
    v.session? name = w.session? name ∧ v.gate? name = w.gate? name := by
  refine ⟨hu.still.session name, ?_⟩
  unfold gate?
  rcases hu.schedulers with he | ⟨n, lock, source, service, hn, he⟩ | ⟨n, f, hf, he⟩
  · rw [he]
  · rw [he, Table.find?_insert]
    split
    · rename_i hname
      rw [hname, hn]
      rfl
    · rfl
  · rw [he, Table.find?_modify]
    split
    · rename_i hname
      rw [hname]
      cases w.schedulers.find? n with
      | none => rfl
      | some s => exact (hf s).2.2.1
    · rfl

end World

namespace Schedule.StartPhase

variable {w : World} {s : Scheduler} {n : String}

/-- A start that leaves frees the gate of its scheduler. -/
theorem leave_gate (hs : w.schedulers.find? n = some s) (session : Option Session)
    (name : String) :
    (leave n session w).gate? name = if name = n then none else w.gate? name := by
  have hgate : (leave n session w).gate? name = _ := w.gate?_modifyScheduler n name
  rw [hs] at hgate
  exact hgate

/-- A start that leaves without a session of its own leaves the scheduler the one that it has. -/
theorem leave_session (w : World) (n name : String) :
    (leave n none w).session? name = w.session? name := by
  refine World.session?_modifyScheduler_of_eq ?_ w n name
  exact fun _ => rfl

/-- A start that has taken the lock frees the gate as well. -/
theorem launch_gate (hs : w.schedulers.find? n = some s) (l : Lock) (name : String) :
    (launch n l w).gate? name = if name = n then none else w.gate? name := by
  refine leave_gate (s := s) ?_ (some ⟨w.nextTask, w.nextTask + 1⟩) name
  exact hs

end Schedule.StartPhase

namespace World

variable {w u v : World} {name : String} {m : Move}

/-! ## Moves -/

/-- What a move does to a scheduler's session and to its gate. -/
inductive SchedulerMove (name : String) (w : World) (m : Move) : Prop
  | passes (session : (w.move m).session? name = w.session? name)
      (gate : (w.move m).gate? name = w.gate? name)
  | enters {q : TaskId} {t : Task} (hm : m = .step q) (ht : w.tasks.find? q = some t)
      (hp : t.starts? = some (name, .entering)) (free : w.gate? name = none)
      (idle : Schedule.isRunning w name = false)
      (session : (w.move m).session? name = w.session? name)
      (gate : (w.move m).gate? name = some q)
  | loses {q : TaskId} {t : Task} (hm : m = .step q) (ht : w.tasks.find? q = some t)
      (hp : t.starts? = some (name, .acquiring))
      (session : (w.move m).session? name = w.session? name)
      (gate : (w.move m).gate? name = none)
  | wins {q : TaskId} {t : Task} (hm : m = .step q) (ht : w.tasks.find? q = some t)
      (hp : t.starts? = some (name, .acquiring))
      (session : (w.move m).session? name = some ⟨w.nextTask, w.nextTask + 1⟩)
      (leads : (w.move m).role w.nextTask = some (.leads name false))
      (gate : (w.move m).gate? name = none)
  | takes {q : TaskId} {s : Session} (hm : m = .step q)
      (hq : w.role q = some (.stops name .entering)) (free : w.gate? name = none)
      (was : w.session? name = some s) (session : (w.move m).session? name = none)
      (gate : (w.move m).gate? name = w.gate? name)
      (left : (w.move m).role q = some (.stops name (.awaitingExtender s)))

/-- An extender changes nothing about schedulers. -/
theorem schedulers_of_extender {x : Schedule.Extender} {next : Progress Schedule.Extender Unit}
    (hturn : x.Turn w next u) : u.schedulers = w.schedulers := by
  have hcall := w.perform_schedulers x.lock.extend
  cases hturn with
  | quits hp hc => rfl
  | wakes hp hc => rfl
  | renews hp ha =>
      rw [ha] at hcall
      exact hcall
  | demotes hp ha hne =>
      rw [ha] at hcall
      exact hcall

/-- A start that is ready to begin finds the gate free. -/
theorem free_of_start {t : Task} {id : TaskId} (hp : t.starts? = some (name, .entering))
    (hready : t.ready w id = true) : w.gate? name = none := by
  apply gate?_of_unlocked
  cases t with
  | operation o =>
      cases o with
      | startScheduler n p =>
          cases hp
          exact hready
      | startApp n p =>
          cases p with
          | pinging => cases hp
          | scheduler p =>
              cases hp
              exact hready
      | _ => cases hp
  | _ => cases hp

/-- A turn of a start, of this scheduler or of another one. -/
theorem schedulerMove_starts {id : TaskId} {t : Task} {n : String} {p : Schedule.StartPhase}
    (hm : w.Admits (.step id)) (hfresh : w.Fresh) (ht : w.tasks.find? id = some t)
    (hp : t.starts? = some (n, p)) {next : Progress Schedule.StartPhase Bool}
    (hturn : p.Turn id n w next u) {left : Option Task}
    (he : w.move (.step id) = u.put id left) : w.SchedulerMove name (.step id) := by
  have hquiet : u.session? name = w.session? name → u.gate? name = w.gate? name →
      w.SchedulerMove name (.step id) := by
    intro hsession hgate
    refine .passes ?_ ?_
    · rw [he, session?_put, hsession]
    · rw [he, gate?_put, hgate]
  cases hturn with
  | misses hs => exact hquiet rfl rfl
  | rests hs hp' hr => exact hquiet rfl rfl
  | @enters s hs hp' hr =>
      have hsession := session?_modifyScheduler_of_eq
        (f := fun s => { s with gate := some id }) (fun _ => rfl) w n name
      have hgate := w.gate?_modifyScheduler (f := fun s => { s with gate := some id }) n name
      by_cases hn : name = n
      · subst hn
        obtain ⟨t', ht', hready, -⟩ := move_step hm
        cases ht.symm.trans ht'
        rw [if_pos rfl, hs] at hgate
        subst hp'
        refine .enters rfl ht hp (free_of_start hp hready) hr ?_ ?_
        · rw [he, session?_put, hsession]
        · rw [he, gate?_put, hgate]
          rfl
      · rw [if_neg hn] at hgate
        exact hquiet hsession hgate
  | @loses s a e u hs hp' ha hne =>
      have hsched : (u.log (.schedule e)).schedulers = w.schedulers := by
        have hc := w.perform_schedulers s.lock.acquire
        rw [ha] at hc
        exact hc
      have hsession := (Schedule.StartPhase.leave_session (u.log (.schedule e)) n name).trans
        (session?_of_schedulers hsched)
      have hgate := Schedule.StartPhase.leave_gate (hsched ▸ hs) none name
      by_cases hn : name = n
      · subst hn hp'
        rw [if_pos rfl] at hgate
        refine .loses rfl ht hp ?_ ?_
        · rw [he, session?_put, hsession]
        · rw [he, gate?_put, hgate]
      · rw [if_neg hn] at hgate
        exact hquiet hsession (hgate.trans (gate?_of_schedulers hsched))
  | @wins s u hs hp' ha =>
      have hsched := w.perform_schedulers s.lock.acquire
      have hnext := w.perform_nextTask s.lock.acquire
      rw [ha] at hsched hnext
      have hsession := Schedule.StartPhase.launch_session n s.lock u (hsched ▸ hs) name
      have hgate := Schedule.StartPhase.launch_gate (w := u) (hsched ▸ hs) s.lock name
      by_cases hn : name = n
      · subst hn hp'
        have hlt : id < w.nextTask := hfresh.lt ht
        rw [if_pos rfl] at hsession hgate
        refine .wins rfl ht hp ?_ ?_ ?_
        · rw [he, session?_put, hsession, hnext]
        · rw [he, role_put, if_neg (Nat.ne_of_gt hlt), Schedule.StartPhase.launch_role, hnext,
            if_neg (Nat.ne_of_lt (Nat.lt_succ_self _)), if_pos rfl]
        · rw [he, gate?_put, hgate]
      · rw [if_neg hn] at hsession hgate
        exact hquiet (hsession.trans (session?_of_schedulers hsched))
          (hgate.trans (gate?_of_schedulers hsched))

/-- A turn of a stop, of this scheduler or of another one. -/
theorem schedulerMove_stops {id : TaskId} {n : String} {p : Schedule.StopPhase}
    (hid : w.role id = some (.stops n p)) (hready : p.ready n w = true)
    {next : Progress Schedule.StopPhase Unit} (hturn : p.Turn n w next u) {left : Option Task}
    (hleft : left.bind Task.role? = next.state?.map (.stops n))
    (he : w.move (.step id) = u.put id left) : w.SchedulerMove name (.step id) := by
  have hquiet : u.schedulers = w.schedulers → w.SchedulerMove name (.step id) := by
    intro hs
    refine .passes ?_ ?_
    · rw [he, session?_put, session?_of_schedulers hs]
    · rw [he, gate?_put, gate?_of_schedulers hs]
  cases hturn with
  | misses hs => exact hquiet rfl
  | rests hs hp hn => exact hquiet rfl
  | cancels hs hp => exact hquiet rfl
  | waits hs hp => exact hquiet rfl
  | @releases s a u hs hp ha =>
      have hc := w.perform_schedulers s.lock.release
      rw [ha] at hc
      exact hquiet hc
  | @takes s session hs hp hn =>
      subst hp
      have hsession := w.session?_modifyScheduler (f := fun s => { s with session := none }) n name
      have hgate := w.gate?_modifyScheduler (f := fun s => { s with session := none }) n name
      have hkept : ((w.modifyScheduler n fun s => { s with session := none }).cancel
          session.extender).gate? name = w.gate? name := by
        refine Eq.trans hgate ?_
        split
        · rename_i hname
          rw [hname, gate?, hs]
          rfl
        · rfl
      by_cases hname : name = n
      · subst hname
        rw [if_pos rfl, hs] at hsession
        refine .takes (s := session) rfl hid (gate?_of_unlocked hready) ?_ ?_ ?_ ?_
        · rw [session?, hs]
          exact hn
        · rw [he, session?_put]
          exact hsession
        · rw [he, gate?_put, hkept]
        · rw [he, role_put, if_pos rfl, hleft]
          rfl
      · rw [if_neg hname] at hsession
        refine .passes ?_ ?_
        · rw [he, session?_put]
          exact hsession
        · rw [he, gate?_put, hkept]

/-- Every move does one of these things to every scheduler. -/
theorem Regular.schedulerMove (h : w.Regular) (hm : w.Admits m) (name : String) :
    w.SchedulerMove name m := by
  have hquiet : (w.move m).schedulers = w.schedulers → w.SchedulerMove name m :=
    fun hs => .passes (session?_of_schedulers hs) (gate?_of_schedulers hs)
  cases hset : m.setsUp with
  | true =>
      obtain ⟨hsession, hgate⟩ := (move_setUp hset hm).session_gate name
      exact .passes hsession hgate
  | false =>
      cases m with
      | step id =>
          obtain ⟨t, ht, hready, he⟩ := move_step hm
          cases hc : t.controls with
          | false =>
              have hvia := t.act_via id w
              have halike := hvia.alike h.sound.fresh fun _ hd => hd.blind ht hc h.sound h.seated
              refine .passes ?_ ?_
              · rw [he, session?_put, halike.session]
              · rw [he, gate?_put, hvia.gate? fun _ hd => hd.keepsGate hc]
          | true =>
              rcases Task.controls_cases hc with ⟨x, rfl⟩ | ⟨n, p, hp⟩ | ⟨n, p, hp⟩
              · apply hquiet
                rw [he, put_schedulers]
                exact schedulers_of_extender (x.step_turn w)
              · obtain ⟨-, -, next, hturn⟩ := Task.act_starts id w hp
                exact schedulerMove_starts hm h.sound.fresh ht hp hturn he
              · rw [Task.ready_stops id w hp] at hready
                obtain ⟨next, hturn, hleft⟩ := Task.act_stops id w hp
                exact schedulerMove_stops ((role_of_find? ht).trans hp) hready hturn hleft he
      | call c => exact hquiet (w.perform_schedulers c.2)
      | pass t => exact hquiet rfl
      | launch o => exact hquiet rfl
      | collect id => exact hquiet rfl
      | disturb f => exact hquiet rfl
      | reach value => exact hquiet rfl
      | _ => cases hset

end World

/-! ## Starts that hold the gate -/

namespace Task

variable {w : World} {name : String} {id : TaskId} {t t' : Task}

@[simp] theorem core_starts? (t : Task) : t.core.starts? = t.starts? := by cases t <;> rfl

/-- A task at its beginning starts no scheduler, or has not passed its gate. -/
theorem Begins.starts? (h : t.Begins w) {p : Schedule.StartPhase}
    (hp : t.starts? = some (name, p)) : p = .entering := by
  cases h with
  | @operation o ho =>
      cases o with
      | startScheduler n q =>
          cases hp
          exact of_decide_eq_true ho
      | startApp n q =>
          cases q with
          | pinging => cases hp
          | scheduler q => cases ho
      | _ => cases hp
  | _ => cases hp

/-- A start that is about to ask for the lock has just passed the gate. -/
theorem act_acquiring (ht : (t.act id w).1 = some t')
    (hp : t'.starts? = some (name, .acquiring)) :
    t.starts? = some (name, .entering) ∧
      Schedule.StartPhase.entering.Turn id name w (.on .acquiring) (t.act id w).2 := by
  have hturns : ∀ {p : Schedule.StartPhase}, (p.step id name w).1 = .on .acquiring →
      p = .entering ∧
        Schedule.StartPhase.entering.Turn id name w (.on .acquiring) (p.step id name w).2 := by
    intro p hon
    have hturn := p.step_turn id name w
    rw [hon] at hturn
    cases p with
    | entering => exact ⟨rfl, hturn⟩
    | acquiring =>
        generalize (Schedule.StartPhase.acquiring.step id name w).2 = u at hturn
        cases hturn with
        | enters hs hp hr => cases hp
  have hsort := act_sort ht
  cases t with
  | operation o =>
      simp only [act] at ht
      cases hs : (o.step id w).1 with
      | ended r =>
          rw [hs] at ht
          cases ht
          cases hp
      | on o' =>
          rw [hs] at ht
          cases ht
          cases o with
          | startScheduler n p =>
              obtain ⟨p', hp', rfl⟩ := Progress.map_on hs
              cases hp
              obtain ⟨rfl, hturn⟩ := hturns hp'
              exact ⟨rfl, hturn⟩
          | startApp n p =>
              obtain ⟨p', hp', rfl⟩ := Progress.map_on hs
              cases p with
              | pinging =>
                  simp only at hp'
                  split at hp' <;> cases hp' <;> cases hp
              | scheduler p =>
                  obtain ⟨p'', hp'', rfl⟩ := Progress.map_on hp'
                  cases hp
                  obtain ⟨rfl, hturn⟩ := hturns hp''
                  exact ⟨rfl, hturn⟩
          | drain runner deadline q =>
              simp only [Operation.step, Operation.stepDrain] at hs
              split at hs
              · split at hs
                · cases hs
                · cases hs
                  cases hp
              · cases hs
          | _ =>
              obtain ⟨x, -, rfl⟩ := Progress.map_on hs
              cases hp
  | ended r =>
      cases ht
      cases hp
  | _ => cases t' <;> first | cases hp | cases hsort

end Task

namespace World

variable {w u v : World} {name : String} {m : Move}

/-- What it takes for a scheduler not to run. -/
theorem isRunning_eq_false : Schedule.isRunning w name = false ↔
    ∀ s, w.session? name = some s → w.running s.main = false := by
  unfold Schedule.isRunning session?
  cases (w.schedulers.find? name).bind Scheduler.session <;> simp

/-- A scheduler that does not run does not begin to as long as its session stays. -/
theorem Regular.idle_move (h : w.Regular) (hm : w.Admits m)
    (hs : (w.move m).session? name = w.session? name)
    (hidle : Schedule.isRunning w name = false) :
    Schedule.isRunning (w.move m) name = false := by
  rw [isRunning_eq_false] at hidle ⊢
  intro s hs'
  have hwas : w.session? name = some s := hs ▸ hs'
  have hmain := (h.tied.sessions name s (.inl hwas)).1
  exact h.sound.move_running hm hmain.1 (hidle s hwas)

/-- A start that has passed the gate of a scheduler holds it, and the scheduler does not run. -/
def Guarded (name : String) (w : World) : Prop :=
  ∀ q t, w.tasks.find? q = some t → t.starts? = some (name, .acquiring) →
    w.gate? name = some q ∧ Schedule.isRunning w name = false

theorem guarded_around (name : String) (utc : Int) (s : Store) :
    (around utc s).Guarded name := by
  intro q t ht
  cases ht

/-- A start passes the gate. -/
theorem Regular.guards (h : w.Regular) {q : TaskId} (hm : w.Admits (.step q)) {t' : Task}
    (ht' : (w.move (.step q)).tasks.find? q = some t')
    (hp : t'.starts? = some (name, .acquiring)) :
    (w.move (.step q)).gate? name = some q ∧
      Schedule.isRunning (w.move (.step q)) name = false := by
  obtain ⟨t, ht, -, he⟩ := move_step hm
  have hleft : (t.act q w).1 = some t' := by
    rw [he, put_find?, if_pos rfl] at ht'
    exact ht'
  obtain ⟨-, hturn⟩ := Task.act_acquiring hleft hp
  generalize hu : (t.act q w).2 = u at he hturn
  generalize hon : Progress.on Schedule.StartPhase.acquiring = next at hturn
  cases hturn with
  | enters hs hp' hr =>
      have hsession := session?_modifyScheduler_of_eq
        (f := fun s => { s with gate := some q }) (fun _ => rfl) w name name
      have hgate := w.gate?_modifyScheduler (f := fun s => { s with gate := some q }) name name
      rw [if_pos rfl, hs] at hgate
      refine ⟨?_, h.idle_move hm ?_ hr⟩
      · rw [he, gate?_put, hgate]
        rfl
      · rw [he, session?_put, hsession]
  | _ => cases hon

/-- Every move keeps starts guarded. -/
theorem Guarded.move (h : w.Guarded name) (hw : w.Regular) (hm : w.Admits m) :
    (w.move m).Guarded name := by
  intro q t' ht' hp
  by_cases hstep : m = .step q
  · subst hstep
    exact hw.guards hm ht' hp
  rcases hw.sound.move_was hm ht' with ⟨t, ht, hcore⟩ | ⟨-, hnew | ⟨c, rfl⟩⟩ | ⟨t, he, -, -⟩
  · have hp' : t.starts? = some (name, .acquiring) := by
      rw [← t.core_starts?, ← hcore, t'.core_starts?, hp]
    obtain ⟨hgate, hidle⟩ := h q t ht hp'
    cases hw.schedulerMove hm name with
    | passes session gate => exact ⟨gate.trans hgate, hw.idle_move hm session hidle⟩
    | enters _ _ _ free => rw [free] at hgate; cases hgate
    | loses he hu hpu =>
        have hown := (h _ _ hu hpu).1
        rw [hgate] at hown
        cases hown
        exact absurd he hstep
    | wins he hu hpu =>
        have hown := (h _ _ hu hpu).1
        rw [hgate] at hown
        cases hown
        exact absurd he hstep
    | takes _ _ free => rw [free] at hgate; cases hgate
  · cases hnew.starts? hp
  · cases hp
  · exact absurd he hstep

/-- Whoever has a controller's guard is at its gate, at every moment. -/
theorem History.guarded {rule : World → Move → Prop} {utc : Int} {s : Store} {ms : List Move}
    (h : History rule (around utc s) ms w) (name : String) : w.Guarded name := by
  have hall : w.Regular ∧ w.Guarded name := by
    refine h.keeps (P := fun v => v.Regular ∧ v.Guarded name)
      ⟨regular_around utc s, guarded_around name utc s⟩ ?_
    rintro v m hm - ⟨hv, hg⟩
    exact ⟨hv.move hm, hg.move hv hm⟩
  exact hall.2

end World

end JobFleet
