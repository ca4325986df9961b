import JobFleet.Proofs.Fleet.SchedulerMoves
import JobFleet.Proofs.Fleet.Told

/-!
# How a session comes to its end

The scheduler of a process hands its ticks to a runner. Its cycles never panic, so a main loop ends
only when it is told to, and its extender has ended by then. A session stays the scheduler's own
until a stop takes it away and waits for both of its tasks, or until both have ended by themselves;
a start begins another one only then. So every main loop belongs to a session that is the
scheduler's own, or is being ended by a stop.
-/

namespace JobFleet

open Schedule (Session)

/-! ## Schedulers that hand their ticks to a runner -/

namespace Schedule

/-- A cycle that does not wait for a scripted service. -/
def Cycle.Brisk (c : Cycle) : Prop :=
  ∀ settings call wake ending, c.phase ≠ .pausing settings call wake ending

/-- A main loop that runs cycles of its own scheduler, and none that waits for a scripted
service. -/
def MainLoop.Brisk (m : MainLoop) : Prop :=
  ∀ c, m.phase = .cycling c → c.scheduler = m.scheduler ∧ c.Brisk

variable {w : World} {self : TaskId} {s : Scheduler}

/-- A cycle of a scheduler that hands its ticks to a runner does not panic. -/
theorem Cycle.Brisk.step {c : Cycle} (h : c.Brisk) (self : TaskId)
    (hs : w.schedulers.find? c.scheduler = some s) (hd : s.delegates = true) :
    (c.step self w).1 ≠ .ended .panicked ∧
      ∀ c', (c.step self w).1 = .on c' → c'.scheduler = c.scheduler ∧ c'.Brisk := by
  cases hp : c.phase with
  | loading =>
      simp only [Cycle.step, hp, Cycle.load, hs]
      cases s.source with
      | failing fault =>
          refine ⟨?_, ?_⟩
          · rintro ⟨⟩
          · rintro c' ⟨⟩
      | held settings =>
          cases hservice : s.service with
          | scripted calls reply => simp [Scheduler.delegates, hservice] at hd
          | runner runner defaults criticality handler =>
              simp only [Cycle.callService]
              split
              · refine ⟨by rintro ⟨⟩, ?_⟩
                rintro c' ⟨⟩
                exact ⟨rfl, by rintro _ _ _ _ ⟨⟩⟩
              · refine ⟨?_, ?_⟩
                · rintro ⟨⟩
                · rintro c' ⟨⟩
  | pausing settings call wake ending => exact absurd hp (h settings call wake ending)
  | enqueuing settings inner =>
      simp only [Cycle.step, hp]
      split
      · refine ⟨by rintro ⟨⟩, ?_⟩
        rintro c' ⟨⟩
        exact ⟨rfl, by rintro _ _ _ _ ⟨⟩⟩
      · refine ⟨?_, ?_⟩
        · rintro ⟨⟩
        · rintro c' ⟨⟩

/-- A main loop of such a scheduler goes on with cycles of it. -/
theorem MainLoop.Brisk.step {m m' : MainLoop} (h : m.Brisk)
    (hs : w.schedulers.find? m.scheduler = some s) (hd : s.delegates = true)
    (hon : (m.step self w).1 = .on m') : m'.scheduler = m.scheduler ∧ m'.Brisk := by
  obtain ⟨scheduler, cancelled, phase⟩ := m
  cases phase with
  | sleeping wake =>
      cases cancelled with
      | true => cases hon
      | false =>
          cases hon
          refine ⟨rfl, ?_⟩
          rintro c ⟨⟩
          exact ⟨rfl, by rintro _ _ _ _ ⟨⟩⟩
  | cycling c =>
      cases cancelled with
      | true => cases hon
      | false =>
          obtain ⟨hscheduler, hbrisk⟩ := h c rfl
          have hstep := (hbrisk.step self (hscheduler ▸ hs) hd).2
          simp only [MainLoop.step, Bool.false_eq_true, if_false] at hon
          split at hon
          · rename_i c' v hc
            cases hon
            refine ⟨rfl, ?_⟩
            rintro c'' ⟨⟩
            rw [hc] at hstep
            obtain ⟨hsame, hbrisk'⟩ := hstep c' rfl
            exact ⟨hsame.trans hscheduler, hbrisk'⟩
          · unfold MainLoop.afterCycle at hon
            split at hon
            · cases hon
              exact ⟨rfl, by rintro c' ⟨⟩⟩
            · cases hon
              exact ⟨rfl, by rintro c' ⟨⟩⟩
            · cases hon

end Schedule

namespace World

variable {w v : World} {name : String} {m : Move} {s : Session}

/-- A scheduler that hands its ticks to a runner, and whose main loops know no other service. -/
structure Delegated (name : String) (w : World) : Prop where
  scheduler : ∃ s, w.schedulers.find? name = some s ∧ s.delegates = true
  loops : ∀ j m, w.tasks.find? j = some (.mainLoop m) → m.scheduler = name → m.Brisk

/-- A set-up takes no delegation back. -/
theorem SetUp.delegates (hu : w.SetUp v)
    (h : ∃ s, w.schedulers.find? name = some s ∧ s.delegates = true) :
    ∃ s, v.schedulers.find? name = some s ∧ s.delegates = true := by
  obtain ⟨s, hs, hd⟩ := h
  rcases hu.schedulers with he | ⟨n, lock, source, service, hn, he⟩ | ⟨n, f, hf, he⟩
  · exact ⟨s, he ▸ hs, hd⟩
  · rw [he, Table.find?_insert_of_ne]
    · exact ⟨s, hs, hd⟩
    · rintro rfl
      cases hn.symm.trans hs
  · rw [he, Table.find?_modify]
    split
    · rename_i hname
      refine ⟨f s, by rw [← hname, hs]; rfl, ?_⟩
      unfold Scheduler.delegates
      rw [(hf s).2.2.2]
      exact hd
    · exact ⟨s, hs, hd⟩

/-- What tasks do leaves a scheduler that hands its ticks to a runner one that does. -/
theorem Via.delegates {D : Deed → Prop} (hv : w.Via D v) (hD : ∀ d, D d → d.KeepsService)
    (h : ∃ s, w.schedulers.find? name = some s ∧ s.delegates = true) :
    ∃ s, v.schedulers.find? name = some s ∧ s.delegates = true := by
  refine hv.keeps (P := fun u => ∃ s, u.schedulers.find? name = some s ∧ s.delegates = true) ?_ h
  rintro u d hd ⟨s, hs, hdel⟩
  have hk := hD d hd
  cases d with
  | scheduler n f =>
      have hfind := Table.find?_modify u.schedulers n name f
      by_cases hn : name = n
      · subst hn
        rw [if_pos rfl, hs] at hfind
        exact ⟨f s, hfind, hk s hdel⟩
      · rw [if_neg hn] at hfind
        exact ⟨s, hfind.trans hs, hdel⟩
  | call c => exact ⟨s, (u.perform_schedulers c.2) ▸ hs, hdel⟩
  | _ => exact ⟨s, hs, hdel⟩

namespace Delegated

/-- A scheduler that delegates goes on delegating. -/
theorem scheduler_move (h : w.Delegated name) (hm : w.Admits m) :
    ∃ s, (w.move m).schedulers.find? name = some s ∧ s.delegates = true := by
  cases hset : m.setsUp with
  | true => exact (move_setUp hset hm).delegates h.scheduler
  | false =>
      cases m with
      | step id =>
          obtain ⟨t, -, -, he⟩ := move_step hm
          rw [he, put_schedulers]
          exact (t.act_via id w).delegates (fun _ hd => hd.keepsService) h.scheduler
      | call c =>
          obtain ⟨s, hs, hd⟩ := h.scheduler
          exact ⟨s, (w.perform_schedulers c.2) ▸ hs, hd⟩
      | pass t => exact h.scheduler
      | launch o => exact h.scheduler
      | collect id => exact h.scheduler
      | disturb f => exact h.scheduler
      | reach value => exact h.scheduler
      | _ => cases hset

/-- Every move keeps a scheduler delegated. -/
theorem move (h : w.Delegated name) (hw : w.Sound) (hm : w.Admits m) :
    (w.move m).Delegated name := by
  refine ⟨h.scheduler_move hm, ?_⟩
  rintro j loop' ht' rfl
  obtain ⟨s, hs, hd⟩ := h.scheduler
  rcases hw.move_was hm ht' with ⟨t, ht, hcore⟩ | ⟨-, hnew | ⟨c, he⟩⟩ | ⟨t, -, ht, hleft⟩
  · cases t with
    | mainLoop loop =>
        injection hcore with hcore
        injection hcore with hscheduler _ hphase
        intro c hc
        obtain ⟨hsame, hbrisk⟩ := h.loops j loop ht hscheduler.symm c (hphase ▸ hc)
        exact ⟨hsame.trans hscheduler.symm, hbrisk⟩
    | _ => cases hcore
  · cases hnew with
    | mainLoop hp =>
        intro c hc
        cases hp.symm.trans hc
        exact ⟨rfl, nofun⟩
  · cases he
  · have hsort := Task.act_sort hleft
    cases t with
    | mainLoop loop =>
        obtain ⟨loop'', hon, he⟩ := Progress.kept_none hleft
        cases he
        have hname : loop'.scheduler = loop.scheduler := by
          have hrole := Task.act_role (t := .mainLoop loop) j w rfl
          rw [hleft] at hrole
          rcases hrole with hsame | ⟨-, hnone⟩
          · injection Option.some.inj hsame
          · cases hnone
        have hbrisk := h.loops j loop ht hname.symm
        exact (hbrisk.step (hname ▸ hs) hd hon).2
    | _ => cases hsort

/-- A main loop of such a scheduler does not break off. -/
theorem not_breaksOff (h : w.Delegated name) {j : TaskId}
    (hj : w.role j = some (.leads name false)) : ¬ w.BreaksOff j m := by
  intro hbreaks
  cases m with
  | step id =>
      obtain ⟨rfl, loop, c, ht, -, hp, hpanics⟩ := hbreaks
      have hrole := (role_of_find? ht).symm.trans hj
      obtain ⟨loop', he, hname, -⟩ := Task.mainLoop_of_leads hrole
      cases he
      obtain ⟨hscheduler, hbrisk⟩ := h.loops id loop ht hname c hp
      obtain ⟨s, hs, hd⟩ := h.scheduler
      rw [← hname, ← hscheduler] at hs
      exact (hbrisk.step id hs hd).1 hpanics
  | _ => exact hbreaks

end Delegated

/-! ## The stages of a session -/

/-- How far a session of a scheduler has come: it is the scheduler's own, a stop that has taken it
waits for its extender or then for its main loop, or it is over. -/
inductive SessionStage (name : String) (s : Session) (w : World) : Prop
  | own (hs : w.session? name = some s)
  | ending {q : TaskId} (hq : w.role q = some (.stops name (.awaitingExtender s)))
  | closing {q : TaskId} (hq : w.role q = some (.stops name (.awaitingMain s.main)))
      (extender : w.running s.extender = false)
  | past (main : w.running s.main = false) (extender : w.running s.extender = false)

/-- A session of a scheduler that has begun: its tasks are a main loop and an extender, and it is in
one of its stages. -/
structure Spans (name : String) (s : Session) (w : World) : Prop where
  main : w.Kind s.main .mainLoop
  extender : w.Kind s.extender .extender
  stage : w.SessionStage name s

/-- A loop that leads or renews nothing any more has ended. -/
theorem Kind.not_running {i : TaskId} {sort : Task.Sort} (h : w.Kind i sort)
    (hsort : sort = .mainLoop ∨ sort = .extender) (hrole : w.role i = none) :
    w.running i = false := by
  apply running_of_gone
  cases ht : w.tasks.find? i with
  | none => rfl
  | some t =>
      have hsame := h.unique ht
      rw [role_of_find? ht] at hrole
      cases t with
      | mainLoop m => cases hrole
      | extender x => cases hrole
      | _ => rcases hsort with rfl | rfl <;> cases hsame

/-- The session of a scheduler begins at its own stage. -/
theorem Regular.spans_own (h : w.Regular) (hs : w.session? name = some s) : w.Spans name s := by
  obtain ⟨hmain, hext⟩ := h.tied.sessions name s (.inl hs)
  exact ⟨hmain, hext, .own hs⟩

/-- What holds of a process's scheduler: its starts are guarded, the main loop of its session has
not been cancelled before the extender has ended, and every main loop belongs to a session. -/
structure Steered (name : String) (w : World) : Prop where
  regular : w.Regular
  paired : w.Paired
  guarded : w.Guarded name
  delegated : w.Delegated name
  attended : ∀ s, w.session? name = some s →
    w.role s.main = some (.leads name false) ∨ w.running s.extender = false
  led : ∀ j c, w.role j = some (.leads name c) → ∃ s, s.main = j ∧ w.Spans name s

namespace Steered

/-- An extender that has ended does not run again. -/
theorem extender_ended (h : w.Steered name) (hm : w.Admits m)
    (hk : w.Kind s.extender .extender) (hr : w.running s.extender = false) :
    (w.move m).running s.extender = false :=
  h.regular.sound.move_running hm hk.1 hr

/-- After a move, the main loop of the session has not been cancelled, or the extender has ended. -/
theorem attended_move (h : w.Steered name) (hm : w.Admits m)
    (hs : (w.move m).session? name = some s) :
    (w.move m).role s.main = some (.leads name false) ∨
      (w.move m).running s.extender = false := by
  have hkept : w.session? name = some s → (w.move m).role s.main = some (.leads name false) ∨
      (w.move m).running s.extender = false := by
    intro hwas
    obtain ⟨-, hext⟩ := h.regular.tied.sessions name s (.inl hwas)
    have hpair := h.paired.sessions name s (.inl hwas)
    rcases h.attended s hwas with hlead | hended
    · rcases (h.regular.shift hm).leads _ name hlead with hleads | hbreaks |
        ⟨i, x, hx, hxm, hnone⟩ | ⟨q, n, s', hq, hmain, hnone⟩
      · exact .inl hleads
      · exact absurd hbreaks (h.delegated.not_breaksOff hlead)
      · right
        have hi : i = s.extender := by rw [h.paired.renews i x hx, hxm, hpair]
        exact (hext.move hm).not_running (.inr rfl) (hi ▸ hnone)
      · right
        have hi : s'.extender = s.extender := by
          rw [h.paired.sessions n s' (.inr ⟨q, hq⟩), hmain, hpair]
        exact h.extender_ended hm hext (hext.not_running (.inr rfl) (hi ▸ hnone))
    · exact .inr (h.extender_ended hm hext hended)
  cases h.regular.schedulerMove hm name with
  | passes session gate => exact hkept (session ▸ hs)
  | enters _ _ _ _ _ session gate => exact hkept (session ▸ hs)
  | loses _ _ _ session gate => exact hkept (session ▸ hs)
  | wins _ _ _ session leads gate =>
      cases session.symm.trans hs
      exact .inl leads
  | takes _ _ _ _ session => cases session.symm.trans hs

/-- A stop of the scheduler that takes its next step from a session that it has taken: it has seen
the extender end. -/
theorem cancels (h : w.Steered name) {q : TaskId} (hm : w.Admits (.step q))
    (hq : w.role q = some (.stops name (.awaitingExtender s))) :
    w.running s.extender = false ∧
      (w.move (.step q)).role q = some (.stops name (.awaitingMain s.main)) := by
  obtain ⟨t, ht, hready, he⟩ := move_step hm
  have hp := (role_of_find? ht).symm.trans hq
  rw [Task.ready_stops q w hp] at hready
  obtain ⟨next, hturn, hleft⟩ := Task.act_stops q w hp
  refine ⟨by simpa [Schedule.StopPhase.ready] using hready, ?_⟩
  rw [he, role_put, if_pos rfl, hleft]
  generalize hu : (t.act q w).2 = u at hturn
  generalize hphase : Schedule.StopPhase.awaitingExtender s = p at hturn
  obtain ⟨sch, hsch, -⟩ := h.delegated.scheduler
  cases hturn with
  | misses hs => cases hs.symm.trans hsch
  | rests _ hp' _ => cases hphase.trans hp'
  | takes _ hp' _ => cases hphase.trans hp'
  | cancels _ hp' =>
      cases hphase.trans hp'
      rfl
  | waits _ hp' => cases hphase.trans hp'
  | releases _ hp' _ => cases hphase.trans hp'

/-- A stop that waits for the main loop has seen it end when it goes on. -/
theorem main_ended {q main : TaskId} (hm : w.Admits (.step q))
    (hq : w.role q = some (.stops name (.awaitingMain main))) : w.running main = false := by
  obtain ⟨t, ht, hready, -⟩ := move_step hm
  rw [Task.ready_stops q w ((role_of_find? ht).symm.trans hq)] at hready
  simpa [Schedule.StopPhase.ready] using hready

/-- A stop stays where it is until its own next step. -/
theorem stops_kept (h : w.Steered name) (hm : w.Admits m) {q : TaskId} {p : Schedule.StopPhase}
    (hq : w.role q = some (.stops name p)) (hstep : m ≠ .step q) :
    (w.move m).role q = some (.stops name p) := by
  obtain ⟨t, ht, hrole⟩ := Option.bind_eq_some_iff.mp hq
  cases t with
  | operation o => rw [role_of_find? (h.regular.sound.move_operation hm ht hstep), hrole]
  | mainLoop m => cases hrole
  | extender x => cases hrole
  | _ => cases hrole

/-- Every move takes a session from stage to stage. -/
theorem spans_move (h : w.Steered name) (hm : w.Admits m) (hs : w.Spans name s) :
    (w.move m).Spans name s := by
  refine ⟨hs.main.move hm, hs.extender.move hm, ?_⟩
  have hended : w.running s.main = false → w.running s.extender = false →
      (w.move m).SessionStage name s := fun hmain hext =>
    .past (h.regular.sound.move_running hm hs.main.1 hmain) (h.extender_ended hm hs.extender hext)
  cases hs.stage with
  | own hown =>
      cases h.regular.schedulerMove hm name with
      | passes session gate => exact .own (session.trans hown)
      | enters _ _ _ _ _ session gate => exact .own (session.trans hown)
      | loses _ _ _ session gate => exact .own (session.trans hown)
      | wins _ ht hp session leads gate =>
          have hmain := isRunning_eq_false.mp (h.guarded _ _ ht hp).2 s hown
          rcases h.attended s hown with hlead | hext
          · obtain ⟨t, ht', -⟩ := Option.bind_eq_some_iff.mp hlead
            rw [running, Table.contains, ht'] at hmain
            cases hmain
          · exact hended hmain hext
      | takes he hq free was session gate left =>
          cases was.symm.trans hown
          exact .ending left
  | @ending q hq =>
      by_cases hstep : m = .step q
      · subst hstep
        obtain ⟨hext, hnext⟩ := h.cancels hm hq
        exact .closing hnext (h.extender_ended hm hs.extender hext)
      · exact .ending (h.stops_kept hm hq hstep)
  | @closing q hq hext =>
      by_cases hstep : m = .step q
      · subst hstep
        exact hended (main_ended hm hq) hext
      · exact .closing (h.stops_kept hm hq hstep) (h.extender_ended hm hs.extender hext)
  | past hmain hext => exact hended hmain hext

/-- Every move keeps a process's scheduler steered. -/
theorem move (h : w.Steered name) (hm : w.Admits m) : (w.move m).Steered name where
  regular := h.regular.move hm
  paired := h.paired.move (h.regular.shift hm)
  guarded := h.guarded.move h.regular hm
  delegated := h.delegated.move h.regular.sound hm
  attended := fun _ hs => h.attended_move hm hs
  led := by
    intro j c hj
    rcases (h.regular.shift hm).led j name c hj with ⟨c', hj'⟩ | hsession
    · obtain ⟨s, hmain, hs⟩ := h.led j c' hj'
      exact ⟨s, hmain, h.spans_move hm hs⟩
    · exact ⟨_, rfl, (h.regular.move hm).spans_own hsession⟩

end Steered

/-! ## Processes -/

/-- A scheduler with a session has a lock. -/
theorem lock?_of_session (h : w.session? name = some s) : ∃ l, w.lock? name = some l := by
  obtain ⟨sch, hs, -⟩ := Option.bind_eq_some_iff.mp h
  exact ⟨sch.lock, by rw [lock?, hs]; rfl⟩

/-- A main loop runs for a scheduler that is there. -/
theorem History.led {rule : World → Move → Prop} {utc : Int} {store : Store} {ms : List Move}
    (h : History rule (around utc store) ms w) {j : TaskId} {c : Bool}
    (hj : w.role j = some (.leads name c)) : ∃ l, w.lock? name = some l := by
  induction h generalizing c with
  | nil => cases hj
  | @snoc ms v m h possible _ ih =>
      rcases (h.regular.shift possible).led j name c hj with ⟨c', hj'⟩ | hsession
      · obtain ⟨l, hl⟩ := ih hj'
        exact ⟨l, lock?_move possible hl⟩
      · exact lock?_of_session hsession

/-- The scheduler of a process that joins is steered. -/
theorem History.steered_app {rule : World → Move → Prop} {utc : Int} {store : Store}
    {ms : List Move} {settings : Settings} (h : History rule (around utc store) ms w)
    (hm : w.Admits (.app name settings)) : (w.move (.app name settings)).Steered name := by
  have hnone : w.schedulers.find? name = none := hm.2.1
  have hfind : ∃ sch, (w.move (.app name settings)).schedulers.find? name = some sch ∧
      sch.session = none ∧ sch.delegates = true :=
    ⟨_, Table.find?_insert_self _ _ _, rfl, rfl⟩
  obtain ⟨sch, hsch, hsession, hdelegates⟩ := hfind
  have hunled : ∀ j c, (w.move (.app name settings)).role j ≠ some (.leads name c) := by
    intro j c hj
    have hwas : w.role j = some (.leads name c) := (role_of_tasks rfl).symm.trans hj
    obtain ⟨l, hl⟩ := h.led hwas
    rw [lock?, hnone] at hl
    cases hl
  have hnosession : (w.move (.app name settings)).session? name = none := by
    rw [session?, hsch]
    exact hsession
  constructor
  case regular => exact h.regular.move hm
  case paired => exact h.paired.move (h.regular.shift hm)
  case guarded => exact (h.guarded name).move h.regular hm
  case delegated =>
    refine ⟨⟨sch, hsch, hdelegates⟩, ?_⟩
    rintro j loop hloop rfl
    exact absurd (role_of_find? hloop) (hunled j loop.cancelled)
  case attended =>
    intro s hs
    cases hnosession.symm.trans hs
  case led => exact fun j c hj => absurd hj (hunled j c)

/-- The scheduler of a process stays steered. -/
theorem History.steered {rule : World → Move → Prop} {utc : Int} {store : Store}
    {ms : List Move} {settings : Settings} (h : History rule (around utc store) ms w)
    (happ : .app name settings ∈ ms) : w.Steered name := by
  obtain ⟨first, last, rfl⟩ := List.append_of_mem happ
  obtain ⟨v, hfirst, hrest⟩ := h.split
  obtain ⟨hm, -, hlast⟩ := hrest.uncons
  exact hlast.keeps (hfirst.steered_app hm) fun _ _ hm' _ hu => hu.move hm'

/-- Every session that the scheduler of a process has had is in one of its stages. -/
theorem History.spans {rule : World → Move → Prop} {utc : Int} {store : Store}
    {first last : List Move} {settings : Settings}
    (h : History rule (around utc store) (first ++ last) w)
    (happ : .app name settings ∈ first ++ last)
    (hs : ((around utc store).after first).session? name = some s) : w.Spans name s := by
  obtain ⟨v, hfirst, hlast⟩ := h.split
  rw [hfirst.after_eq] at hs
  have hin : .app name settings ∈ first := by
    rcases List.mem_append.mp happ with hin | hin
    · exact hin
    · obtain ⟨before, after, rfl⟩ := List.append_of_mem hin
      obtain ⟨u, hbefore, hrest⟩ := hlast.split
      obtain ⟨l, hl⟩ := lock?_of_session hs
      have hkept : u.lock? name = some l :=
        hbefore.keeps (P := fun u => u.lock? name = some l) hl fun _ _ hm _ hu =>
          lock?_move hm hu
      have hnone : u.schedulers.find? name = none := hrest.uncons.1.2.1
      rw [lock?, hnone] at hkept
      cases hkept
  have hsteered := hfirst.steered hin
  have hall := hlast.keeps (P := fun u => u.Steered name ∧ u.Spans name s)
    ⟨hsteered, hsteered.regular.spans_own hs⟩
    fun _ _ hm _ hu => ⟨hu.1.move hm, hu.1.spans_move hm hu.2⟩
  exact hall.2

end World

end JobFleet
