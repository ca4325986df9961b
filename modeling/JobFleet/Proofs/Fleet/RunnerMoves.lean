import JobFleet.Proofs.Fleet.Ties
import JobFleet.Proofs.Runner.RunnerSteps

/-!
# What a move does to one runner

A move passes a runner by, unless it is a step of one of its hand-ins, of its crew or of a stop of
it. `World.RunnerMove` lists what such a step does: what the runner is afterwards, what becomes of
the crew, and what is left of the task that takes the step. Every invariant about one runner is a
case analysis of this list.
-/

namespace JobFleet

namespace World

/-- A deed that passes a runner by: it spares the crew and changes other runners at most. -/
def Passes (name : String) (w : World) (d : Deed) : Prop := w.SparesCrew name d ∧ d.Misses name

/-- In every runner's slot there is a worker of its own, if it is still there. -/
def Housed (w : World) : Prop :=
  ∀ name r s t, w.runners.find? name = some r → r.slot = some s →
    w.tasks.find? s.task = some t → t.employer? = some name

/-- What holds of tasks, slots and sessions after every history. -/
structure Regular (w : World) : Prop where
  sound : w.Sound
  seated : w.Seated
  tied : w.Tied
  housed : w.Housed

variable {w v : World} {name : String}

/-- A worker of one runner does not sit in the slot of another one. -/
theorem Housed.crew (h : w.Housed) {n : String} {r : Runner} {s : Runner.Slot}
    (hr : w.runners.find? n = some r) (hs : r.slot = some s) (hn : n ≠ name) :
    w.crew name s.task = none := by
  cases hc : w.crew name s.task with
  | none => rfl
  | some k =>
      obtain ⟨ht, hname⟩ := crew_eq_some.mp hc
      have hemployer := h n r s _ hr hs ht
      cases hemployer
      exact absurd hname hn

/-- A step that passes a runner by, of a task that is not of its crew. -/
theorem Apart.step {id : TaskId} {t : Task} (hm : w.Admits (.step id))
    (ht : w.tasks.find? id = some t) (h : w.Apart name (t.act id w).2)
    (hc : t.crew? name = none) (hl : ∀ t', (t.act id w).1 = some t' → t'.crew? name = none) :
    w.Apart name (w.move (.step id)) := by
  obtain ⟨t', ht', -, he⟩ := move_step hm
  cases ht.symm.trans ht'
  rw [he]
  refine h.put ((crew_of_find? ht).trans hc) ?_
  cases hleft : (t.act id w).1 with
  | none => rfl
  | some t' => exact hl t' hleft

end World

/-! ## Who passes a runner by -/

namespace Task

variable {w : World} {name : String} {id : TaskId} {t : Task}

/-- A task that has nothing to do with a runner: it is not of its crew, hands no job in to it, and
does not stop it. -/
structure Shuns (name : String) (t : Task) : Prop where
  crew : t.crew? name = none
  handIn : ∀ e, t.handIn? = some e → e.runner ≠ name
  stop : ∀ n p, t.stops? = some (n, p) → n ≠ name

/-- A step leaves of a task that is not of a crew none that is. -/
theorem act_crew? (hc : t.crew? name = none) {t' : Task} (ht : (t.act id w).1 = some t') :
    t'.crew? name = none := by
  cases t with
  | worker k =>
      obtain ⟨k', hk, rfl⟩ := Progress.kept_none ht
      obtain ⟨p, rfl⟩ := Worker.step_inPhase hk
      by_cases hn : k.runner = name
      · simp [crew?, hn] at hc
      · simp [crew?, Worker.inPhase, hn]
  | _ =>
      apply crew?_of_sort
      rw [act_sort ht]
      rintro ⟨⟩

/-- What an extender does passes every runner by. -/
theorem passes_extender (h : w.Tied) {x : Schedule.Extender} (hx : w.role id = some (.renews x))
    {next : Progress Schedule.Extender Unit} {u : World} (hturn : x.Turn w next u) :
    w.Via (w.Passes name) u := by
  cases hturn with
  | quits hp hc => exact .same
  | wakes hp hc => exact .same
  | renews hp ha =>
      exact (World.Via.same.of_perform (a := .flag) ha ⟨trivial, trivial⟩).log ⟨trivial, trivial⟩
  | demotes hp ha hne =>
      have hmain : w.crew name x.main = none := (h.mains id x hx).crew (by rintro ⟨⟩)
      have hcall := World.Via.same.of_perform (a := .flag) (D := w.Passes name) ha
        ⟨trivial, trivial⟩
      exact (hcall.log ⟨trivial, trivial⟩).cancel ⟨hmain, trivial⟩

/-- What a start of a scheduler does passes every runner by. -/
theorem passes_start {n : String} {p : Schedule.StartPhase}
    {next : Progress Schedule.StartPhase Bool} {u : World} (hturn : p.Turn id n w next u) :
    w.Via (w.Passes name) u := by
  cases hturn with
  | misses hs => exact .same
  | rests hs hp hr => exact .same
  | enters hs hp hr => exact World.Via.same.scheduler ⟨trivial, trivial⟩
  | loses hs hp ha hne =>
      have hcall := World.Via.same.of_perform (a := .flag) (D := w.Passes name) ha
        ⟨trivial, trivial⟩
      exact (hcall.log ⟨trivial, trivial⟩).scheduler ⟨trivial, trivial⟩
  | wins hs hp ha =>
      have hcall := World.Via.same.of_perform (a := .flag) (D := w.Passes name) ha
        ⟨trivial, trivial⟩
      have hspawn : ∀ t : Task, t.crew? name = none → w.Passes name (.spawn t) :=
        fun _ ht => ⟨ht, trivial⟩
      refine World.Via.scheduler (World.Via.spawn (World.Via.spawn (hcall.log ?_) ?_) ?_) ?_
      · exact ⟨trivial, trivial⟩
      · exact hspawn _ rfl
      · exact hspawn _ rfl
      · exact ⟨trivial, trivial⟩

/-- What a stop of a scheduler does passes every runner by. -/
theorem passes_stop (h : w.Tied) {n : String} {p : Schedule.StopPhase}
    (hid : w.role id = some (.stops n p)) {next : Progress Schedule.StopPhase Unit} {u : World}
    (hturn : p.Turn n w next u) : w.Via (w.Passes name) u := by
  cases hturn with
  | misses hs => exact .same
  | rests hs hp hn => exact .same
  | waits hs hp => exact .same
  | releases hs hp ha =>
      exact (World.Via.same.of_perform (a := .flag) ha ⟨trivial, trivial⟩).log ⟨trivial, trivial⟩
  | @cancels s session hs hp =>
      subst hp
      obtain ⟨hmain, -⟩ := h.sessions n session (.inr ⟨id, hid⟩)
      exact World.Via.same.cancel ⟨hmain.crew (by rintro ⟨⟩), trivial⟩
  | @takes s session hs hp hn =>
      have hsess : w.session? n = some session := by
        rw [World.session?, hs]
        exact hn
      obtain ⟨-, hext⟩ := h.sessions n session (.inl hsess)
      refine World.Via.cancel (World.Via.same.scheduler ?_) ?_
      · exact ⟨trivial, trivial⟩
      · exact ⟨hext.crew (by rintro ⟨⟩), trivial⟩

/-- What a task does that shuns a runner passes the runner by. -/
theorem Shuns.passes (hs : t.Shuns name) (h : w.Regular) (ht : w.tasks.find? id = some t) :
    w.Via (w.Passes name) (t.act id w).2 := by
  cases hc : t.controls with
  | true =>
      rcases controls_cases hc with ⟨x, rfl⟩ | ⟨n, p, hp⟩ | ⟨n, p, hp⟩
      · exact passes_extender h.tied (World.role_of_find? ht) (x.step_turn w)
      · obtain ⟨-, -, next, hturn⟩ := act_starts id w hp
        exact passes_start hturn
      · obtain ⟨next, hturn, -⟩ := act_stops id w hp
        exact passes_stop h.tied ((World.role_of_find? ht).trans hp) hturn
  | false =>
      refine (t.act_via id w).mono ?_
      intro d hd
      cases hd with
      | aside hd => exact hd.spares_misses
      | @handIn e d he hd =>
          have hne := hs.handIn e he
          cases hd with
          | runner _ => exact ⟨trivial, hne⟩
          | spawn _ =>
              refine ⟨?_, trivial⟩
              simp [World.SparesCrew, crew?, hne]
          | _ => exact ⟨trivial, trivial⟩
      | @worker k d hk hd =>
          subst hk
          have hne : k.runner ≠ name := by
            intro he
            have hcrew := hs.crew
            simp [crew?, he] at hcrew
          cases hd with
          | runner _ => exact ⟨trivial, hne⟩
          | spawn _ => exact ⟨rfl, trivial⟩
          | remove hp =>
              obtain ⟨c, hcall⟩ := h.sound.called id _ _ ht (by rw [awaits?, hp]; rfl)
              exact ⟨World.crew_of_find? hcall, trivial⟩
          | _ => exact ⟨trivial, trivial⟩
      | @stopWorker n r s hstop hr hslot =>
          exact ⟨h.housed.crew hr hslot (hs.stop n _ hstop), trivial⟩
      | @stopRunner n p f hstop _ _ => exact ⟨trivial, hs.stop n p hstop⟩
      | control hctl _ =>
          rw [hc] at hctl
          cases hctl
      | _ => exact ⟨trivial, trivial⟩

/-- Who stops a runner is no worker and hands nothing in. -/
theorem idle_of_stops {n : String} {p : StopPhase} (h : t.stops? = some (n, p)) :
    t.crew? name = none ∧ t.hands? = none := by
  cases t with
  | operation o =>
      cases o with
      | stop runner q => exact ⟨rfl, rfl⟩
      | shutdownApp app q => exact ⟨rfl, rfl⟩
      | _ => cases h
  | _ => cases h

/-- A step of a task that stops a runner takes one step of the stop. -/
theorem act_stop (id : TaskId) (w : World) {p : StopPhase} (hp : t.stops? = some (name, p)) :
    (p.step name w).2.Via Deed.Aside (t.act id w).2 ∧
      (t.act id w).1.bind stops? = (p.step name w).1.state?.map fun q => (name, q) := by
  cases t with
  | operation o =>
      cases o with
      | stop n q =>
          cases hp
          refine ⟨.same, ?_⟩
          simp only [act, Operation.step]
          cases (p.step name w).1 <;> rfl
      | shutdownApp n q =>
          cases q with
          | stopping q =>
              cases hp
              simp only [act, Operation.step, AppShutdown.step]
              cases hstep : p.step name w with
              | mk next u =>
                  cases next with
                  | on q => exact ⟨.same, rfl⟩
                  | ended _ => exact ⟨World.Via.same.log rfl, rfl⟩
          | _ => cases hp
      | _ => cases hp
  | _ => cases hp

end Task

/-! ## Moves -/

namespace World

variable {w v : World} {name : String} {r : Runner} {m : Move}

/-- What a move does to a runner and its crew. -/
inductive RunnerMove (name : String) (w : World) (r : Runner) (m : Move) : Prop
  | passes (apart : w.Apart name (w.move m))
      (shuns : ∀ id t, m = .step id → w.tasks.find? id = some t → t.Shuns name)
  | handsIn {id : TaskId} {t : Task} {e : Enqueue} {next : Progress Enqueue EnqueueOutcome}
      {r' : Runner} {hired : Option Worker} (hm : m = .step id)
      (ht : w.tasks.find? id = some t) (hin : t.hands? = some e) (hn : e.runner = name)
      (step : (e.step id w).1 = next) (made : e.RunnerStep id w.nextTask r next r' hired)
      (left : (t.act id w).1.bind Task.handIn? = next.state?)
      (leaves : w.Leaves name (w.move m) r' hired)
  | givesUp {id : TaskId} {t : Task} {e : Enqueue} (hm : m = .step id)
      (ht : w.tasks.find? id = some t) (hin : t.handIn? = some e) (hands : t.hands? = none)
      (hn : e.runner = name) (left : (t.act id w).1 = none)
      (leaves : w.Leaves name (w.move m)
        (if r.gate = some id then { r with gate := none } else r) none)
  | works {id : TaskId} {k : Worker} {episode : Option Runner.Episode} {left : Option Worker}
      {r' : Runner} (hm : m = .step id) (hk : w.crew name id = some k)
      (tells : k.episode? w = episode) (made : k.RunnerStep w.nextTask r episode left r')
      (runner : (w.move m).runners.find? name = some r')
      (crew : ∀ i, (w.move m).crew name i = if i = id then left else w.crew name i)
  | stops {id : TaskId} {t : Task} {p : StopPhase} {next : Progress StopPhase Unit} {r' : Runner}
      {cancelled : Option TaskId} (hm : m = .step id) (ht : w.tasks.find? id = some t)
      (hp : t.stops? = some (name, p)) (made : StopPhase.RunnerStep r p next r' cancelled)
      (left : (t.act id w).1.bind Task.stops? = next.state?.map fun q => (name, q))
      (runner : (w.move m).runners.find? name = some r')
      (crew : StopPhase.Cancels name w (w.move m) cancelled)

/-- Filing what is left of a task that is not of the crew. -/
theorem Leaves.put {hired : Option Worker} (h : w.Leaves name v r hired) {id : TaskId} {t : Task}
    {left : Option Task} (hw : w.Fresh) (ht : w.tasks.find? id = some t)
    (hc : t.crew? name = none) (hl : ∀ t', left = some t' → t'.crew? name = none) :
    w.Leaves name (v.put id left) r hired := by
  refine ⟨by rw [put_runners, h.runner], ?_⟩
  intro i
  have hid : id ≠ w.nextTask := Nat.ne_of_lt (hw.lt ht)
  rw [crew_put]
  by_cases hi : i = id
  · rw [if_pos hi, hi, if_neg hid, crew_of_find? ht, hc]
    cases left with
    | none => rfl
    | some t' => exact hl t' rfl
  · rw [if_neg hi, h.crew]

/-- Deeds that are none of the runner's leave it as it was left. -/
theorem Leaves.aside {hired : Option Worker} (h : w.Leaves name v r hired) {u : World}
    (hf : v.Fresh) (ha : v.Via Deed.Aside u) : w.Leaves name u r hired := by
  have hpasses : v.Apart name u := ha.apart hf fun d hd => hd.spares_misses
  refine ⟨hpasses.runner.trans h.runner, ?_⟩
  intro i
  rw [hpasses.crew, h.crew]

/-- Deeds leave the numbers ahead unused. -/
theorem Via.fresh {D : Deed → Prop} (hv : w.Via D v) (hw : w.Fresh) : v.Fresh :=
  hv.keeps (P := Fresh) (fun _ d _ hu => hu.does d) hw

/-- What a worker does spares every crew. -/
theorem crew_of_work {k : Worker} {id : TaskId} (h : w.Sound)
    (hk : w.tasks.find? id = some (.worker k)) (i : TaskId) :
    (k.step w).2.crew name i = w.crew name i := by
  refine (k.step_via w).crew h.fresh ?_ i
  intro d hd
  cases hd with
  | spawn _ => exact rfl
  | remove hp =>
      obtain ⟨c, hcall⟩ := h.called id _ _ hk (by rw [Task.awaits?, hp]; rfl)
      exact crew_of_find? hcall
  | _ => trivial

/-- A step of a worker of a runner. -/
theorem Regular.runnerMove_work (h : w.Regular) (hr : w.runners.find? name = some r) {id : TaskId}
    {k : Worker} (hm : w.Admits (.step id)) (hk : w.crew name id = some k) :
    w.RunnerMove name r (.step id) := by
  obtain ⟨ht, rfl⟩ := crew_eq_some.mp hk
  obtain ⟨r', hmade, hr'⟩ := k.step_runner hr
  have hv := move_step_worker hm ht
  refine .works rfl hk rfl hmade ?_ ?_
  · rw [hv, put_runners]
    exact hr'
  · intro i
    rw [hv, crew_put_step rfl, crew_of_work h.sound ht i]

/-- What a step leaves of a runner once what is left of the task is filed, if the task hands in a
job. -/
theorem Leaves.move {hired : Option Worker} {id : TaskId} {t : Task} {e : Enqueue}
    (h : w.Leaves name (t.act id w).2 r hired) (hw : w.Fresh) (hm : w.Admits (.step id))
    (ht : w.tasks.find? id = some t) (hin : t.handIn? = some e) :
    w.Leaves name (w.move (.step id)) r hired := by
  obtain ⟨t', ht', -, he⟩ := move_step hm
  cases ht.symm.trans ht'
  rw [he]
  have hcrew : t.crew? name = none := Task.crew?_of_handIn hin
  exact h.put hw ht hcrew fun t' hl => Task.act_crew? hcrew hl

/-- A hand-in that is taken one step further makes what it makes of its runner. -/
theorem Regular.hands (h : w.Regular) (hr : w.runners.find? name = some r) {id : TaskId} {t : Task}
    {e : Enqueue} (hm : w.Admits (.step id)) (ht : w.tasks.find? id = some t)
    (hin : t.hands? = some e) (hn : e.runner = name) :
    ∃ r' hired, e.RunnerStep id w.nextTask r (e.step id w).1 r' hired ∧
      (t.act id w).1.bind Task.handIn? = (e.step id w).1.state? ∧
      w.Leaves name (w.move (.step id)) r' hired := by
  subst hn
  have hin' := Task.hands?_handIn hin
  cases Task.act_handIn id w hin' with
  | givesUp hands hl hv =>
      rw [hin] at hands
      cases hands
  | steps hands aside goesOn =>
      obtain ⟨r', hired, hmade, hleaves⟩ := Enqueue.step_runner (e := e) id h.sound.fresh hr
      have hafter := hleaves.aside ((e.step_via id w).fresh h.sound.fresh) aside
      exact ⟨r', hired, hmade, goesOn, hafter.move h.sound.fresh hm ht hin'⟩

/-- A step of a hand-in of a runner. -/
theorem Regular.runnerMove_handIn (h : w.Regular) (hr : w.runners.find? name = some r) {id : TaskId}
    {t : Task} {e : Enqueue} (hm : w.Admits (.step id)) (ht : w.tasks.find? id = some t)
    (hin : t.handIn? = some e) (hn : e.runner = name) : w.RunnerMove name r (.step id) := by
  cases Task.act_handIn id w hin with
  | givesUp hands hl hv =>
      refine .givesUp rfl ht hin hands hn hl ?_
      subst hn
      refine Leaves.move ?_ h.sound.fresh hm ht hin
      rw [hv]
      exact Enqueue.abandon_leaves id h.sound.fresh hr
  | steps hands aside goesOn =>
      obtain ⟨r', hired, made, left, leaves⟩ := h.hands hr hm ht hands hn
      exact .handsIn rfl ht hands hn rfl made left leaves

/-- A step of a stop of a runner. -/
theorem Regular.runnerMove_stop (h : w.Regular) (hr : w.runners.find? name = some r) {id : TaskId}
    {t : Task} {p : StopPhase} (hm : w.Admits (.step id)) (ht : w.tasks.find? id = some t)
    (hp : t.stops? = some (name, p)) : w.RunnerMove name r (.step id) := by
  have hcrew : t.crew? name = none := (Task.idle_of_stops hp).1
  obtain ⟨t', ht', -, he⟩ := move_step hm
  cases ht.symm.trans ht'
  obtain ⟨haside, hleft⟩ := Task.act_stop id w hp
  obtain ⟨r', cancelled, hmade, hr', hcancels⟩ := p.step_runner hr
  have hfresh : (p.step name w).2.Fresh := (StopPhase.step_via hp w).fresh h.sound.fresh
  have hpasses : (p.step name w).2.Apart name (t.act id w).2 :=
    haside.apart hfresh fun d hd => hd.spares_misses
  refine .stops rfl ht hp hmade hleft ?_ ?_
  · rw [he, put_runners, hpasses.runner, hr']
  · intro i
    rw [he, crew_put, hpasses.crew, hcancels i]
    by_cases hi : i = id
    · have hnone : w.crew name i = none := by rw [hi, crew_of_find? ht, hcrew]
      have hl : (t.act id w).1.bind (Task.crew? name) = none := by
        cases hleft' : (t.act id w).1 with
        | none => rfl
        | some t' => exact Task.act_crew? hcrew hleft'
      rw [if_pos hi, hl, hnone]
      split <;> rfl
    · rw [if_neg hi]

/-- A move that is no step passes every runner by that is there. -/
theorem Regular.apart_of_quiet (h : w.Regular) (hr : w.runners.find? name = some r)
    (hm : w.Admits m) (hstep : ∀ id, m ≠ .step id) : w.Apart name (w.move m) := by
  cases hset : m.setsUp with
  | true =>
      have hu := move_setUp hset hm
      refine ⟨?_, fun _ => crew_of_tasks hu.tasks⟩
      rcases hu.runners with he | ⟨n, config, worker, hn, -, he⟩
      · rw [he]
      · rw [he, Table.find?_insert_of_ne]
        rintro rfl
        cases hn.symm.trans hr
  | false =>
      have hvia : ∀ d : Deed, w.Passes name d → w.Apart name (w.does d) := fun d hd =>
        (Via.next (D := w.Passes name) .same d hd).apart h.sound.fresh fun _ hd => hd
      cases m with
      | step id => exact absurd rfl (hstep id)
      | launch o => exact hvia (.spawn (.operation o)) ⟨rfl, trivial⟩
      | collect id =>
          obtain ⟨r', hr'⟩ := hm
          have hc : w.crew name id = none := crew_of_find? hr'
          exact hvia (.remove id) ⟨hc, trivial⟩
      | call c => exact hvia (.call c) ⟨trivial, trivial⟩
      | pass t => exact .of_eq rfl rfl
      | disturb f => exact .of_eq rfl rfl
      | reach value => exact .of_eq rfl rfl
      | _ => cases hset

/-- A move that is no step, as a runner sees it. -/
theorem Regular.runnerMove_quiet (h : w.Regular) (hr : w.runners.find? name = some r)
    (hm : w.Admits m) (hstep : ∀ id, m ≠ .step id) : w.RunnerMove name r m :=
  .passes (h.apart_of_quiet hr hm hstep) fun id _ he => absurd he (hstep id)

/-- Every move does one of these things to every runner that is there. -/
theorem Regular.runnerMove (h : w.Regular) (hr : w.runners.find? name = some r) (hm : w.Admits m) :
    w.RunnerMove name r m := by
  cases m with
  | step id =>
      obtain ⟨t, ht, -, -⟩ := move_step hm
      cases hc : t.crew? name with
      | some k => exact h.runnerMove_work hr hm ((crew_of_find? ht).trans hc)
      | none =>
          by_cases hin : ∃ e, t.handIn? = some e ∧ e.runner = name
          · obtain ⟨e, hin, hn⟩ := hin
            exact h.runnerMove_handIn hr hm ht hin hn
          · by_cases hstop : ∃ p, t.stops? = some (name, p)
            · obtain ⟨p, hp⟩ := hstop
              exact h.runnerMove_stop hr hm ht hp
            · have hs : t.Shuns name := by
                constructor
                · exact hc
                · exact fun e he hn => hin ⟨e, he, hn⟩
                · rintro n p hp rfl
                  exact hstop ⟨p, hp⟩
              refine .passes (.step hm ht ?_ hc fun t' hl => Task.act_crew? hc hl) ?_
              · exact (hs.passes h ht).apart h.sound.fresh fun _ hd => hd
              · rintro _ t' ⟨⟩ ht'
                cases ht.symm.trans ht'
                exact hs
  | _ => exact h.runnerMove_quiet hr hm nofun

end World

end JobFleet
