import JobFleet.App.Setup
import JobFleet.Proofs.Fleet.TaskSteps

/-!
# Moves and histories

A history of the fleet is a list of moves: steps of tasks in any order, time that passes,
operations that are asked for, faults of the network, calls of clients outside the fleet, and
members that join. Each move must be possible where it is made and may have to obey a rule that
tells what those outside are trusted with. What every such move keeps holds after every history.
-/

namespace JobFleet

/-- What can happen next. -/
inductive Move
  | step (id : TaskId)
  | pass (t : Nat)
  | turn (utc : Int)
  | favour (timers : Bool)
  | launch (o : Operation)
  | collect (id : TaskId)
  | disturb (f : Fault)
  | reach (value : Bool)
  | call (c : AnyCall)
  | openGate (name : String) (permits : Nat)
  | handler (h : Handler)
  | runner (name : String) (config : Runner.Config)
  | scheduler (name lockName : String) (ttl : Duration) (source : SettingsSource)
      (service : Schedule.Service)
  | limiter (name : String) (l : Limiter)
  | lock (name lockName : String) (ttl : Duration)
  | app (name : String) (s : Settings)
  | update (name : String) (settings : ParserSettings)

/-- Whether no step of an operation has been taken. -/
def Operation.fresh : Operation → Bool
  | .enqueue e => e.phase = .waiting
  | .drain _ _ p => p = .looking
  | .stop _ p => p = .entering
  | .startScheduler _ p => p = .entering
  | .stopScheduler _ p => p = .entering
  | .runCycle ⟨_, _, .loading⟩ => true
  | .guard g => g.phase = .checking
  | .startApp _ .pinging => true
  | .shutdownApp _ (.scheduler .entering) => true
  | .request _ (.arrived _) => true
  | _ => false

namespace World

/-- A world in which nothing has happened yet, around a store. -/
def around (utc : Int) (s : Store) : World := { empty utc with store := s }

/-- The world after a move. -/
def move (w : World) : Move → World
  | .step id => (w.step? id).getD w
  | .pass t => { w with now := t }
  | .turn utc => { w with utc }
  | .favour timers => { w with timersFirst := timers }
  | .launch o => (w.spawn (.operation o)).2
  | .collect id => w.endTask id
  | .disturb f => { w with network := w.network ++ [f] }
  | .reach value => { w with store := { w.store with available := value } }
  | .call c => (w.perform c.2).2
  | .openGate name permits => w.openGate name permits
  | .handler h => (w.addHandler h).2
  | .runner name config => w.addRunner name config
  | .scheduler name lockName ttl source service =>
      w.addScheduler name lockName ttl source service
  | .limiter name l => w.addLimiter name l
  | .lock name lockName ttl => w.addLock name lockName ttl
  | .app name s => w.addApp name s
  | .update name settings => w.updateSettings name settings

/-- A ceiling that a word of 64 bits can hold. -/
def Fits (ceiling : Int) : Prop := ceiling ≤ Number.Range.int64.high

/-- A move that can be made: a step that can be taken, time that goes forward, an operation from
its beginning, a result that is there, members under names of their own. -/
def Admits (w : World) : Move → Prop
  | .step id => w.enabled id = true
  | .pass t => w.now ≤ t
  | .launch o => o.fresh = true
  | .collect id => ∃ r, w.tasks.find? id = some (.ended r)
  | .runner name config => w.runners.find? name = none ∧ Fits config.maxRunning
  | .scheduler name .. => w.schedulers.find? name = none
  | .app name s => w.runners.find? name = none ∧ w.schedulers.find? name = none ∧
      Fits s.runnerConfig.maxRunning
  | _ => True

instance (ceiling : Int) : Decidable (Fits ceiling) :=
  inferInstanceAs (Decidable (ceiling ≤ Number.Range.int64.high))

/-- Whether a task has ended and keeps its result. -/
def hasEnded (w : World) (id : TaskId) : Bool :=
  match w.tasks.find? id with
  | some (.ended _) => true
  | _ => false

/-- A task has ended if it is kept for what it has come to. -/
theorem hasEnded_iff (w : World) (id : TaskId) :
    w.hasEnded id = true ↔ ∃ r, w.tasks.find? id = some (.ended r) := by
  unfold hasEnded
  split
  · rename_i r h
    exact ⟨fun _ => ⟨r, h⟩, fun _ => rfl⟩
  · rename_i hn
    refine ⟨by rintro ⟨⟩, ?_⟩
    rintro ⟨r, h⟩
    exact absurd h (hn r)

instance (w : World) (m : Move) : Decidable (w.Admits m) :=
  match m with
  | .step id => inferInstanceAs (Decidable (w.enabled id = true))
  | .pass t => inferInstanceAs (Decidable (w.now ≤ t))
  | .launch o => inferInstanceAs (Decidable (o.fresh = true))
  | .collect id => decidable_of_iff _ (w.hasEnded_iff id)
  | .runner name config =>
      inferInstanceAs (Decidable (w.runners.find? name = none ∧ Fits config.maxRunning))
  | .scheduler name _ _ _ _ => inferInstanceAs (Decidable (w.schedulers.find? name = none))
  | .app name s =>
      inferInstanceAs (Decidable (w.runners.find? name = none ∧ w.schedulers.find? name = none ∧
        Fits s.runnerConfig.maxRunning))
  | .turn _ | .favour _ | .disturb _ | .reach _ | .call _ | .openGate .. | .handler _ | .limiter ..
  | .lock .. | .update .. => .isTrue trivial

/-- A history from a world by moves that obey a rule, and the world that it leads to. -/
inductive History (rule : World → Move → Prop) (start : World) : List Move → World → Prop
  | nil : History rule start [] start
  | snoc {ms : List Move} {w : World} {m : Move} (h : History rule start ms w)
      (possible : w.Admits m) (obeys : rule w m) : History rule start (ms ++ [m]) (w.move m)

/-- The world after moves. -/
def after (w : World) (ms : List Move) : World := ms.foldl move w

/-- Without moves a world stays as it is. -/
@[simp] theorem after_nil (w : World) : w.after [] = w := rfl

/-- The last move comes last. -/
@[simp] theorem after_snoc (w : World) (ms : List Move) (m : Move) :
    w.after (ms ++ [m]) = (w.after ms).move m := by
  rw [after, List.foldl_append]
  rfl

/-- Moves are made one after another. -/
theorem after_append (w : World) (ms ms' : List Move) :
    w.after (ms ++ ms') = (w.after ms).after ms' := List.foldl_append

/-- The first move comes first. -/
@[simp] theorem after_cons (w : World) (m : Move) (ms : List Move) :
    w.after (m :: ms) = (w.move m).after ms := rfl

namespace History

variable {rule : World → Move → Prop} {start w : World} {ms : List Move}

/-- What every move of a history keeps holds at its end. -/
theorem keeps (h : History rule start ms w) {P : World → Prop} (hs : P start)
    (hstep : ∀ v m, v.Admits m → rule v m → P v → P (v.move m)) : P w := by
  induction h with
  | nil => exact hs
  | snoc _ possible obeys ih => exact hstep _ _ possible obeys ih

/-- A history ends in the world after its moves. -/
theorem after_eq (h : History rule start ms w) : start.after ms = w := by
  induction h with
  | nil => rfl
  | snoc _ _ _ ih => rw [after_snoc, ih]

/-- A history that follows a rule follows every weaker one. -/
theorem mono {rule' : World → Move → Prop} (h : History rule start ms w)
    (hr : ∀ v m, rule v m → rule' v m) : History rule' start ms w := by
  induction h with
  | nil => exact .nil
  | snoc _ possible obeys ih => exact .snoc ih possible (hr _ _ obeys)

/-- A move before a history. -/
theorem cons {m : Move} (possible : start.Admits m) (obeys : rule start m)
    (h : History rule (start.move m) ms w) : History rule start (m :: ms) w := by
  induction h with
  | nil => exact .snoc .nil possible obeys
  | snoc _ possible' obeys' ih => exact .snoc ih possible' obeys'

/-- A history after a history. -/
theorem append {v : World} {ms' : List Move} (h : History rule start ms v)
    (h' : History rule v ms' w) : History rule start (ms ++ ms') w := by
  induction h' with
  | nil => rwa [List.append_nil]
  | snoc _ possible obeys ih =>
      rw [← List.append_assoc]
      exact .snoc ih possible obeys

/-- Whether moves can be made one after another and obey a rule. -/
def check (rule : World → Move → Prop) [∀ w m, Decidable (rule w m)] (start : World) :
    List Move → Bool
  | [] => true
  | m :: ms => decide (start.Admits m ∧ rule start m) && check rule (start.move m) ms

/-- A check that runs decides whether moves make a history. -/
theorem of_check {rule : World → Move → Prop} [∀ w m, Decidable (rule w m)]
    (h : check rule start ms = true) : History rule start ms (start.after ms) := by
  induction ms generalizing start with
  | nil => exact .nil
  | cons m ms ih =>
      obtain ⟨hm, hms⟩ := Bool.and_eq_true_iff.mp h
      obtain ⟨hpossible, hobeys⟩ := of_decide_eq_true hm
      exact .cons hpossible hobeys (ih hms)

/-- A history in two parts passes through a world between them. -/
theorem split {first last : List Move} (h : History rule start (first ++ last) w) :
    ∃ v, History rule start first v ∧ History rule v last w := by
  generalize hm : first ++ last = all at h
  induction h generalizing last with
  | nil =>
      obtain ⟨rfl, rfl⟩ := List.append_eq_nil_iff.mp hm
      exact ⟨start, .nil, .nil⟩
  | @snoc all v m h possible obeys ih =>
      rcases List.eq_nil_or_concat last with rfl | ⟨rest, m', rfl⟩
      · rw [List.append_nil] at hm
        subst hm
        exact ⟨_, .snoc h possible obeys, .nil⟩
      · rw [List.concat_eq_append, ← List.append_assoc] at hm
        obtain ⟨hall, hlast⟩ := List.append_inj' hm rfl
        cases hlast
        obtain ⟨u, hfirst, hrest⟩ := ih hall
        exact ⟨u, hfirst, by rw [List.concat_eq_append]; exact .snoc hrest possible obeys⟩

/-- A history begins with its first move. -/
theorem uncons {m : Move} (h : History rule start (m :: ms) w) :
    start.Admits m ∧ rule start m ∧ History rule (start.move m) ms w := by
  generalize hm : m :: ms = all at h
  induction h generalizing ms with
  | nil => cases hm
  | @snoc all v m' h possible obeys ih =>
      rcases List.eq_nil_or_concat ms with rfl | ⟨rest, m'', rfl⟩
      · have hlast : [] ++ [m] = all ++ [m'] := hm
        obtain ⟨rfl, he⟩ := List.append_inj' hlast rfl
        cases he
        cases h.after_eq
        exact ⟨possible, obeys, .nil⟩
      · rw [List.concat_eq_append, ← List.cons_append] at hm
        obtain ⟨hall, hlast⟩ := List.append_inj' hm rfl
        cases hlast
        obtain ⟨hp, ho, hrest⟩ := ih hall
        exact ⟨hp, ho, by rw [List.concat_eq_append]; exact .snoc hrest possible obeys⟩

/-- A property that holds at the start of a history and not at its end is lost in some move. -/
theorem crosses (h : History rule start ms w) {P : World → Prop} (hs : P start) (hw : ¬ P w) :
    ∃ first m last v, ms = first ++ m :: last ∧ History rule start first v ∧ v.Admits m ∧
      rule v m ∧ P v ∧ ¬ P (v.move m) := by
  induction h with
  | nil => exact absurd hs hw
  | @snoc ms v m h possible obeys ih =>
      by_cases hv : P v
      · exact ⟨ms, m, [], v, rfl, h, possible, obeys, hv, hw⟩
      · obtain ⟨first, m', last, u, rfl, hfirst, hrest⟩ := ih hv
        exact ⟨first, m', last ++ [m], u, by rw [List.append_assoc, List.cons_append], hfirst,
          hrest⟩

end History

/-- The step that a move takes, if it takes one: the task that was ready, what its deeds made of
the world, and what became of it. -/
theorem move_step {w : World} {id : TaskId} (h : w.Admits (.step id)) :
    ∃ t, w.tasks.find? id = some t ∧ t.ready w id = true ∧
      w.move (.step id) = (t.act id w).2.put id (t.act id w).1 := by
  have he : w.enabled id = true := h
  unfold enabled at he
  split at he
  · rename_i t ht
    have hs : w.step? id = some (w.stepTask id t) := by
      unfold step?
      rw [ht]
      exact if_pos he
    obtain ⟨t', ht', hr, hv⟩ := step?_eq_some hs
    refine ⟨t', ht', hr, ?_⟩
    rw [move, hs, Option.getD_some, hv]
  · cases he

/-- The step of a worker: the world that its turn leaves, in which what is left of it is filed. -/
theorem move_step_worker {w : World} {id : TaskId} {k : Worker} (hm : w.Admits (.step id))
    (ht : w.tasks.find? id = some (.worker k)) :
    w.move (.step id) = (k.step w).2.put id ((k.step w).1.state?.map .worker) := by
  obtain ⟨t, ht', -, he⟩ := move_step hm
  cases ht.symm.trans ht'
  rw [he, ← Progress.kept_eq]
  rfl

end World

/-! ## Members that join -/

/-- A move that sets something up: it takes no step, makes no call and lets no time pass. -/
def Move.setsUp : Move → Bool
  | .turn _ | .favour _ | .openGate .. | .handler _ | .runner .. | .scheduler .. | .limiter ..
  | .lock .. | .app .. | .update .. => true
  | _ => false

/-- One world is another one in which at most one runner and one scheduler are new, or the
source of a scheduler's settings has changed. -/
structure World.SetUp (w v : World) : Prop where
  now : v.now = w.now
  store : v.store = w.store
  network : v.network = w.network
  tasks : v.tasks = w.tasks
  nextTask : v.nextTask = w.nextTask
  journal : v.journal = w.journal ∨ ∃ e, v.journal = (w.now, .logged (.rateLimit e)) :: w.journal
  runners : v.runners = w.runners ∨ ∃ name config worker, w.runners.find? name = none ∧
    World.Fits config.maxRunning ∧ v.runners = w.runners.insert name (.new config worker)
  schedulers : v.schedulers = w.schedulers ∨
    (∃ name lock source service, w.schedulers.find? name = none ∧
      v.schedulers = w.schedulers.insert name (.new lock source service)) ∨
    ∃ name f, (∀ s : Scheduler, (f s).lock = s.lock ∧ (f s).session = s.session ∧
      (f s).gate = s.gate ∧ (f s).service = s.service) ∧
        v.schedulers = w.schedulers.modify name f

namespace World

/-- A world that differs in what only handlers, requests and clients look at. -/
theorem SetUp.of_eq {w v : World} (now : v.now = w.now) (store : v.store = w.store)
    (network : v.network = w.network) (tasks : v.tasks = w.tasks)
    (nextTask : v.nextTask = w.nextTask) (journal : v.journal = w.journal)
    (runners : v.runners = w.runners) (schedulers : v.schedulers = w.schedulers) : w.SetUp v :=
  ⟨now, store, network, tasks, nextTask, .inl journal, .inl runners, .inl schedulers⟩

/-- Adding a runner is setting up. -/
theorem addRunner_setUp {w : World} {name : String} {config : Runner.Config}
    (hn : w.runners.find? name = none) (hf : Fits config.maxRunning) :
    w.SetUp (w.addRunner name config) where
  now := rfl
  store := rfl
  network := rfl
  tasks := rfl
  nextTask := rfl
  journal := .inl rfl
  runners := .inr ⟨name, config, _, hn, hf, rfl⟩
  schedulers := .inl rfl

/-- Adding a scheduler is setting up. -/
theorem addScheduler_setUp {w : World} {name : String} (lockName : String) (ttl : Duration)
    (source : SettingsSource) (service : Schedule.Service)
    (hn : w.schedulers.find? name = none) :
    w.SetUp (w.addScheduler name lockName ttl source service) where
  now := rfl
  store := rfl
  network := rfl
  tasks := rfl
  nextTask := rfl
  journal := .inl rfl
  runners := .inl rfl
  schedulers := .inr (.inl ⟨name, _, source, service, hn, rfl⟩)

/-- Adding an application is setting up. -/
theorem addApp_setUp {w : World} {name : String} {s : Settings}
    (hr : w.runners.find? name = none) (hs : w.schedulers.find? name = none)
    (hf : Fits s.runnerConfig.maxRunning) : w.SetUp (w.addApp name s) where
  now := rfl
  store := rfl
  network := rfl
  tasks := rfl
  nextTask := rfl
  journal := .inr ⟨_, rfl⟩
  runners := .inr ⟨name, s.runnerConfig, _, hr, hf, rfl⟩
  schedulers := .inr (.inl ⟨name, _, _, _, hs, rfl⟩)

/-- Other settings from outside are setting up. -/
theorem updateSettings_setUp (w : World) (name : String) (settings : ParserSettings) :
    w.SetUp (w.updateSettings name settings) where
  now := rfl
  store := rfl
  network := rfl
  tasks := rfl
  nextTask := rfl
  journal := .inl rfl
  runners := .inl rfl
  schedulers := by
    refine .inr (.inr ⟨name, _, ?_, rfl⟩)
    intro s
    obtain ⟨lock, source, service, session, gate⟩ := s
    cases source <;> exact ⟨rfl, rfl, rfl, rfl⟩

/-- A move that sets something up. -/
theorem move_setUp {w : World} {m : Move} (hm : m.setsUp = true) (h : w.Admits m) :
    w.SetUp (w.move m) := by
  cases m with
  | turn utc => exact .of_eq rfl rfl rfl rfl rfl rfl rfl rfl
  | favour timers => exact .of_eq rfl rfl rfl rfl rfl rfl rfl rfl
  | openGate name permits => exact .of_eq rfl rfl rfl rfl rfl rfl rfl rfl
  | handler h => exact .of_eq rfl rfl rfl rfl rfl rfl rfl rfl
  | runner name config => exact addRunner_setUp h.1 h.2
  | scheduler name lockName ttl source service =>
      exact addScheduler_setUp lockName ttl source service h
  | limiter name l => exact ⟨rfl, rfl, rfl, rfl, rfl, .inr ⟨_, rfl⟩, .inl rfl, .inl rfl⟩
  | lock name lockName ttl => exact .of_eq rfl rfl rfl rfl rfl rfl rfl rfl
  | app name s => exact addApp_setUp h.1 h.2.1 h.2.2
  | update name settings => exact w.updateSettings_setUp name settings
  | _ => cases hm

end World

/-! ## Faults and writers from outside -/

/-- A move that adds no fault by which a reply is lost. -/
def Move.Prompt : Move → Prop
  | .disturb f => f.Prompt
  | _ => True

instance (f : Fault) : Decidable f.Prompt :=
  inferInstanceAs (Decidable (f.error.isSome → f.late = false))

instance (m : Move) : Decidable m.Prompt :=
  match m with
  | .disturb f => inferInstanceAs (Decidable f.Prompt)
  | .step _ | .pass _ | .turn _ | .favour _ | .launch _ | .collect _ | .reach _ | .call _
  | .openGate .. | .handler _ | .runner .. | .scheduler .. | .limiter .. | .lock .. | .app ..
  | .update .. => .isTrue trivial

/-- The key that a handler's call writes as its next action. -/
def Task.scribbles? : Task → Option String
  | .handler ⟨_, .acting (.set key _ :: _)⟩ => some key
  | .handler ⟨_, .acting (.delete key :: _)⟩ => some key
  | _ => none

namespace World

/-- A move by which something else than the fleet's own machines may write a key: a call of a
client, a handler's action, or a fault that slips a write in. -/
def Intrudes (k : String) (w : World) : Move → Prop
  | .call c => c.2.target = some k
  | .disturb f => ¬ f.Spares k
  | .step id => (w.tasks.find? id).bind Task.scribbles? = some k
  | _ => False

instance (k : String) (f : Fault) : Decidable (f.Spares k) :=
  match h : f.sneak with
  | none => .isTrue fun _ hs => by rw [h] at hs; cases hs
  | some s =>
      if hk : s.1 = k then .isFalse fun hs => hs s h hk
      else .isTrue fun s' hs => by rw [h] at hs; cases hs; exact hk

instance (k : String) (w : World) (m : Move) : Decidable (w.Intrudes k m) :=
  match m with
  | .call c => inferInstanceAs (Decidable (c.2.target = some k))
  | .disturb f => inferInstanceAs (Decidable (¬ f.Spares k))
  | .step id => inferInstanceAs (Decidable ((w.tasks.find? id).bind Task.scribbles? = some k))
  | .pass _ | .turn _ | .favour _ | .launch _ | .collect _ | .reach _ | .openGate .. | .handler _
  | .runner .. | .scheduler .. | .limiter .. | .lock .. | .app .. | .update .. => .isFalse id

end World

end JobFleet
