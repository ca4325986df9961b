import JobFleet.Proofs.Fleet.Closing
import JobFleet.Proofs.Fleet.Trials
import JobFleet.Proofs.Schedule.Rounds

/-!
# The cadence of a main loop

A main loop goes on with round after round, whatever its settings are from one round to the next,
however its service replies, and whatever else goes on in the fleet, as long as it keeps its lock.
Each round begins as many minutes after the last one has ended as that one asked for, and calls the
service once if its settings enable autoupdate, and not at all otherwise.
-/

namespace JobFleet

open Schedule (Cycle MainLoop Round)

/-- What can happen to a fleet: a move, or a source of settings gives something else from then
on. -/
inductive Happening
  | move (m : Move)
  | source (name : String) (source : SettingsSource)

/-- Whether something that happens is a step of a task. -/
def Happening.isStep (i : TaskId) : Happening → Bool
  | .move m => m.isStep i
  | .source .. => false

/-- A step of a task is told by its number. -/
theorem Happening.eq_of_isStep {i : TaskId} {x : Happening} (h : x.isStep i = true) :
    x = .move (.step i) := by
  cases x with
  | source name source => cases h
  | move m =>
      cases m with
      | step id => exact congrArg (fun k => Happening.move (.step k)) (of_decide_eq_true h)
      | _ => cases h

/-- Whether a main loop is about to call a service that panics. -/
def Schedule.MainLoop.meetsPanic (w : World) (m : MainLoop) : Bool :=
  match m.phase with
  | .cycling c => c.meetsPanic w
  | .sleeping _ => false

namespace World

/-- Gives a scheduler another source of settings. -/
def changeSource (w : World) (name : String) (source : SettingsSource) : World :=
  w.modifyScheduler name fun s => { s with source }

/-- The world after something has happened. -/
def happen (w : World) : Happening → World
  | .move m => w.move m
  | .source name source => w.changeSource name source

/-- Something that can happen: a move that can be made, or a change of a source. -/
def Allows (w : World) : Happening → Prop
  | .move m => w.Admits m
  | .source .. => True

instance (w : World) (x : Happening) : Decidable (w.Allows x) :=
  match x with
  | .move m => inferInstanceAs (Decidable (w.Admits m))
  | .source .. => .isTrue trivial

/-- Something that does not keep a task waiting. -/
def Heedful (i : TaskId) (w : World) : Happening → Prop
  | .move m => w.Heeds i m
  | .source .. => True

instance (i : TaskId) (w : World) (x : Happening) : Decidable (w.Heedful i x) :=
  match x with
  | .move m => inferInstanceAs (Decidable (w.Heeds i m))
  | .source .. => .isTrue trivial

/-- Whether a task is an extender. -/
def renewing (w : World) (i : TaskId) : Bool :=
  match w.role i with
  | some (.renews _) => true
  | _ => false

/-- Whether a task is a main loop that has been cancelled. -/
def loopCancelled (w : World) (j : TaskId) : Bool :=
  match w.tasks.find? j with
  | some (.mainLoop m) => m.cancelled
  | _ => false

/-- Whether a task is a main loop whose next step calls a service that panics. -/
def loopPanics (w : World) (j : TaskId) : Bool :=
  match w.tasks.find? j with
  | some (.mainLoop m) => m.meetsPanic w
  | _ => false

/-- Something after which the extender beside a main loop still renews the lock, or nobody has
cancelled the main loop; if it is a step of the main loop, no service panics in it. -/
def Upholds (j : TaskId) (w : World) (x : Happening) : Prop :=
  ((w.happen x).renewing (j + 1) = true ∨ (w.happen x).loopCancelled j = false) ∧
    (x.isStep j = true → w.loopPanics j = false)

instance (j : TaskId) (w : World) (x : Happening) : Decidable (w.Upholds j x) :=
  inferInstanceAs (Decidable (_ ∧ (_ → _)))

end World

/-- The rounds of a main loop: the current one, and those before it, the last one first. -/
structure Log where
  current : Round
  past : List Round

namespace Log

/-- All rounds, the current one first. -/
def rounds (log : Log) : List Round := log.current :: log.past

/-- The log after a step of the main loop, which takes the current round on or begins another. -/
def stepped (log : Log) (j : TaskId) (w : World) (m : MainLoop) : Log :=
  match m.phase with
  | .cycling c => { log with current := log.current.goOn j c w }
  | .sleeping _ => ⟨.start w.now, log.rounds⟩

/-- The log after something has happened. -/
def after (log : Log) (j : TaskId) (w : World) (x : Happening) : Log :=
  if x.isStep j then
    match w.tasks.find? j with
    | some (.mainLoop m) => log.stepped j w m
    | _ => log
  else log

end Log

/-- What has happened to a fleet since a main loop was started, by a rule: the log of the loop's
rounds, and the world that it has come to. -/
inductive Chronicle (rule : World → Happening → Prop) (j : TaskId) (start : World) :
    Log → World → Prop
  | begins : Chronicle rule j start ⟨.start start.now, []⟩ start
  | goes {log : Log} {w : World} {x : Happening} (h : Chronicle rule j start log w)
      (possible : w.Allows x) (obeys : rule w x) :
      Chronicle rule j start (log.after j w x) (w.happen x)

namespace Chronicle

variable {rule : World → Happening → Prop} {j : TaskId} {start w : World} {log : Log}

/-- The log of a main loop and the world after several things have happened. -/
def run (j : TaskId) (log : Log) (w : World) : List Happening → Log × World
  | [] => (log, w)
  | x :: xs => run j (log.after j w x) (w.happen x) xs

/-- Whether several things can happen one after another and obey a rule. -/
def check (rule : World → Happening → Prop) [∀ w x, Decidable (rule w x)] (w : World) :
    List Happening → Bool
  | [] => true
  | x :: xs => decide (w.Allows x ∧ rule w x) && check rule (w.happen x) xs

/-- A check that runs decides whether happenings go on a chronicle. -/
theorem of_check [∀ w x, Decidable (rule w x)] (h : Chronicle rule j start log w)
    {xs : List Happening} (hxs : check rule w xs = true) :
    Chronicle rule j start (run j log w xs).1 (run j log w xs).2 := by
  induction xs generalizing log w with
  | nil => exact h
  | cons x xs ih =>
      obtain ⟨hx, hrest⟩ := Bool.and_eq_true_iff.mp hxs
      obtain ⟨possible, obeys⟩ := of_decide_eq_true hx
      exact ih (.goes h possible obeys) hrest

end Chronicle

/-! ## Changes of sources -/

namespace World

variable {w : World} {name : String} {source : SettingsSource} {x : Happening}

/-- Another source of settings leaves the sessions. -/
theorem session?_changeSource (w : World) (name : String) (source : SettingsSource) (n : String) :
    (w.changeSource name source).session? n = w.session? n :=
  session?_modifyScheduler_of_eq (f := fun s => { s with source }) (fun _ => rfl) w name n

/-- Another source of settings leaves the locks. -/
theorem lock?_changeSource (w : World) (name : String) (source : SettingsSource) (n : String) :
    (w.changeSource name source).lock? n = w.lock? n :=
  lock?_modifyScheduler (f := fun s => { s with source }) (fun _ => rfl) w name n

/-- Another source of settings leaves who holds a session. -/
theorem holds_changeSource {n : String} {s : Schedule.Session}
    (h : (w.changeSource name source).Holds n s) : w.Holds n s := by
  rcases h with hs | hq
  · exact .inl ((w.session?_changeSource name source n).symm.trans hs)
  · exact .inr hq

/-- What happens keeps what holds of tasks, slots and sessions. -/
theorem Regular.happen (h : w.Regular) (hx : w.Allows x) : (w.happen x).Regular := by
  cases x with
  | move m => exact h.move hx
  | source name source =>
      exact
        { sound := h.sound.grows (h.sound.fresh.extends_of_eq rfl rfl fun _ r hr => ⟨r, hr⟩)
          seated := h.seated
          tied := ⟨h.tied.mains, fun n s hs => h.tied.sessions n s (holds_changeSource hs)⟩
          housed := h.housed }

/-- What happens keeps extenders right after their main loops. -/
theorem Paired.happen (h : w.Paired) (hr : w.Regular) (hx : w.Allows x) :
    (w.happen x).Paired := by
  cases x with
  | move m => exact h.move (hr.shift hx)
  | source name source => exact ⟨h.renews, fun n s hs => h.sessions n s (holds_changeSource hs)⟩

/-- What happens leaves a scheduler its lock. -/
theorem lock?_happen {l : Lock} (hl : w.lock? name = some l) (hx : w.Allows x) :
    (w.happen x).lock? name = some l := by
  cases x with
  | move m => exact lock?_move hx hl
  | source n source => exact (w.lock?_changeSource n source name).trans hl

end World

/-- A task that is a main loop but for who has cancelled it is that main loop. -/
theorem Task.core_eq_mainLoop {t : Task} {m : MainLoop} (h : t.core = (Task.mainLoop m).core) :
    ∃ m', t = .mainLoop m' ∧ m'.scheduler = m.scheduler ∧ m'.phase = m.phase := by
  cases t with
  | mainLoop m' =>
      injection h with hm
      injection hm with hs _ hp
      exact ⟨m', rfl, hs, hp⟩
  | _ => cases h

/-! ## The loop between its steps -/

namespace World

variable {w : World} {j : TaskId} {m : MainLoop} {x : Happening}

/-- An extender that is still there has not cancelled its main loop, and nobody else has. -/
theorem Regular.live_of_renewing (h : w.Regular) (hp : w.Paired)
    (hj : w.tasks.find? j = some (.mainLoop m)) (hlive : m.cancelled = false) {mv : Move}
    (hm : w.Admits mv) (hstep : mv ≠ .step j) (hext : (w.move mv).renewing (j + 1) = true)
    {m' : MainLoop} (hj' : (w.move mv).tasks.find? j = some (.mainLoop m')) :
    m'.cancelled = false := by
  have hlead : w.role j = some (.leads m.scheduler false) := by
    rw [role_of_find? hj, Task.role?, hlive]
  have hrenews : ∃ y, (w.move mv).role (j + 1) = some (.renews y) := by
    unfold renewing at hext
    split at hext
    · exact ⟨_, ‹_›⟩
    · cases hext
  obtain ⟨y, hy⟩ := hrenews
  have hshift := h.shift hm
  rcases hshift.leads j _ hlead with hleads | hbreaks | ⟨i, x, hx, hmain, hnone⟩ |
    ⟨q, n, s, hq, hmain, hnone⟩
  · injection (role_of_find? hj').symm.trans hleads with hrole
    injection hrole
  · cases mv with
    | step id => exact absurd (congrArg Move.step hbreaks.1) hstep
    | _ => exact hbreaks.elim
  · have hi : i = j + 1 := hmain ▸ hp.renews i x hx
    rw [← hi, hnone] at hy
    cases hy
  · have hs : s.extender = j + 1 := hmain ▸ hp.sessions n s (.inr ⟨q, hq⟩)
    rw [hs] at hnone
    rcases hshift.renews (j + 1) y hy with ⟨x, hx, -⟩ | ⟨-, hnext, -⟩
    · rw [hnone] at hx
      cases hx
    · have hlt := h.sound.fresh.lt hj
      rw [Nat.succ.inj hnext] at hlt
      exact absurd hlt (Nat.lt_irrefl _)

/-- Whatever happens beside a main loop that keeps its lock leaves it as it is. -/
theorem Regular.loop_kept (h : w.Regular) (hp : w.Paired)
    (hj : w.tasks.find? j = some (.mainLoop m)) (hlive : m.cancelled = false)
    (hx : w.Allows x) (hother : x.isStep j = false) (hup : w.Upholds j x) :
    (w.happen x).tasks.find? j = some (.mainLoop m) := by
  cases x with
  | source name source => exact hj
  | move mv =>
      have hstep : mv ≠ .step j := by
        rintro rfl
        simp [Happening.isStep, Move.isStep] at hother
      have hcollect : mv ≠ .collect j := by
        rintro rfl
        obtain ⟨r, hr⟩ := hx
        cases hj.symm.trans hr
      have hsort : (Task.mainLoop m).sort ≠ .handler := by
        intro hhandler
        cases hhandler
      obtain ⟨t', ht', hcore⟩ := h.sound.move_kept hx hj hsort hstep hcollect
      obtain ⟨m', rfl, hs, hphase⟩ := Task.core_eq_mainLoop hcore
      have hlive' : m'.cancelled = false := by
        rcases hup.1 with hext | hcancelled
        · exact h.live_of_renewing hp hj hlive hx hstep hext ht'
        · have hafter : (w.happen (.move mv)).tasks.find? j = some (.mainLoop m') := ht'
          simpa only [loopCancelled, hafter] using hcancelled
      have hsame : m' = m := by
        cases m
        cases m'
        simp_all
      exact hsame ▸ ht'

/-- A step of a main loop that goes on. -/
theorem move_step_loop (hm : w.Admits (.step j)) (hj : w.tasks.find? j = some (.mainLoop m))
    {m' : MainLoop} (hstep : (m.step j w).1 = .on m') :
    m.ready w = true ∧ (w.move (.step j)).tasks.find? j = some (.mainLoop m') := by
  obtain ⟨t, ht, hready, he⟩ := move_step hm
  cases hj.symm.trans ht
  refine ⟨hready, ?_⟩
  rw [he, put_find?, if_pos rfl]
  simp only [Task.act, hstep, Progress.kept]

/-- Where the main loop is not kept waiting, no time passes while it can go on. -/
theorem Heedful.now_kept (h : w.Heedful j x) (hx : w.Allows x) (hready : w.enabled j = true) :
    (w.happen x).now = w.now := by
  cases x with
  | source name source => rfl
  | move mv =>
      cases mv with
      | pass t =>
          rw [h.1] at hready
          cases hready
      | _ => exact World.now_kept hx nofun

/-- Where the main loop is not kept waiting, time does not pass its alarm. -/
theorem Heedful.now_le (h : w.Heedful j x) (hx : w.Allows x) {t : Task}
    (ht : w.tasks.find? j = some t) {wake : Nat} (hwake : wake ∈ t.alarms) (hnow : w.now ≤ wake) :
    (w.happen x).now ≤ wake := by
  cases x with
  | source name source => exact hnow
  | move mv =>
      cases mv with
      | pass instant =>
          refine h.2 wake ?_
          rw [ht]
          exact hwake
      | _ => exact Nat.le_trans (Nat.le_of_eq (World.now_kept hx nofun)) hnow

end World

/-! ## The steps of the loop -/

namespace Schedule

variable {prompt : Prop} {name : String} {now : Nat} {r : Round}

/-- How a round comes after another one: not before that one's rest is over, and at once then if the
loop is not kept waiting. -/
def Round.Follows (prompt : Prop) (later earlier : Round) : Prop :=
  ∃ wake, earlier.due? = some wake ∧ wake ≤ later.began ∧ (prompt → later.began = wake)

/-- Where a main loop of a scheduler stands in its current round. -/
inductive MainLoop.Stands (prompt : Prop) (name : String) (now : Nat) (r : Round) :
    MainLoop.Phase → Prop
  | cycles {c : Cycle} (reached : r.At c.phase) (unforced : c.force = false)
      (own : c.scheduler = name) (hnow : prompt → r.loaded = none → now = r.began) :
      Stands prompt name now r (.cycling c)
  | rests {wake : Nat} (finished : r.Over) (hdue : r.due? = some wake)
      (hnow : prompt → now ≤ wake) :
      Stands prompt name now r (.sleeping wake)

/-- A round calls the service no more often than it has to. -/
theorem MainLoop.Stands.calls_le {phase : MainLoop.Phase} (h : Stands prompt name now r phase) :
    r.calls ≤ r.wanted := by
  cases h with
  | cycles hat => exact hat.calls_le
  | rests hover => exact Nat.le_of_eq hover.calls_eq

end Schedule

/-- What is known of the rounds in a log. -/
structure Log.Kept (prompt : Prop) (log : Log) : Prop where
  finished : ∀ r ∈ log.past, r.Over
  loads : ∀ r ∈ log.rounds, ∀ t given, r.loaded = some (t, given) → prompt → t = r.began
  spaced : ∀ k later earlier, log.rounds[k]? = some later → log.rounds[k + 1]? = some earlier →
    later.Follows prompt earlier

/-- What is known of a main loop and its log. -/
structure Keeps (prompt : Prop) (name : String) (j : TaskId) (log : Log) (w : World) : Prop where
  regular : w.Regular
  paired : w.Paired
  led : ∃ l, w.lock? name = some l
  loop : ∃ m, w.tasks.find? j = some (.mainLoop m) ∧ m.scheduler = name ∧ m.cancelled = false ∧
    MainLoop.Stands prompt name w.now log.current m.phase
  kept : log.Kept prompt

namespace Log.Kept

variable {prompt : Prop} {log : Log}

/-- The current round goes on. -/
theorem goOn (h : log.Kept prompt) {r : Round} (hbegan : r.began = log.current.began)
    (hloads : ∀ t given, r.loaded = some (t, given) → prompt → t = r.began) :
    Log.Kept prompt { log with current := r } where
  finished := h.finished
  loads := by
    intro r' hr'
    rcases List.mem_cons.mp hr' with rfl | hpast
    · exact hloads
    · exact h.loads r' (List.mem_cons_of_mem _ hpast)
  spaced := by
    intro k later earlier hlater hearlier
    cases k with
    | zero =>
        cases hlater
        have hfollows := h.spaced 0 log.current earlier rfl hearlier
        unfold Round.Follows at hfollows ⊢
        rw [hbegan]
        exact hfollows
    | succ k => exact h.spaced (k + 1) later earlier hlater hearlier

/-- Another round begins. -/
theorem next (h : log.Kept prompt) (hover : log.current.Over) {now : Nat}
    (hfollows : (Round.start now).Follows prompt log.current) :
    Log.Kept prompt ⟨.start now, log.rounds⟩ where
  finished := by
    intro r hr
    rcases List.mem_cons.mp hr with rfl | hpast
    · exact hover
    · exact h.finished r hpast
  loads := by
    intro r hr
    rcases List.mem_cons.mp hr with rfl | hbefore
    · nofun
    · exact h.loads r hbefore
  spaced := by
    intro k later earlier hlater hearlier
    cases k with
    | zero =>
        cases hlater
        cases hearlier
        exact hfollows
    | succ k => exact h.spaced k later earlier hlater hearlier

end Log.Kept

namespace Keeps

variable {prompt : Prop} {name : String} {j : TaskId} {log : Log} {w : World} {m : MainLoop}

/-- A main loop that wakes begins another round. -/
theorem wakes (h : Keeps prompt name j log w) (hm : w.Admits (.step j))
    (hj : w.tasks.find? j = some (.mainLoop m)) (hname : m.scheduler = name)
    (hlive : m.cancelled = false) {wake : Nat} (hphase : m.phase = .sleeping wake)
    (hover : log.current.Over) (hdue : log.current.due? = some wake)
    (hnow : prompt → w.now ≤ wake) :
    Keeps prompt name j ⟨.start w.now, log.rounds⟩ (w.move (.step j)) := by
  obtain ⟨l, hl⟩ := h.led
  have hstep : (m.step j w).1 =
      .on { m with phase := .cycling (.start m.scheduler false) } := by
    simp only [MainLoop.step, hphase, hlive, Bool.false_eq_true, if_false]
  obtain ⟨hready, hj'⟩ := World.move_step_loop hm hj hstep
  have hle : wake ≤ w.now := by
    simpa [MainLoop.ready, hlive, hphase] using hready
  refine ⟨h.regular.move hm, h.paired.move (h.regular.shift hm), ⟨l, World.lock?_move hm hl⟩,
    ⟨_, hj', hname, hlive, ?_⟩, h.kept.next hover ⟨wake, hdue, hle, fun hp => ?_⟩⟩
  · exact .cycles (.loading rfl rfl rfl) rfl hname fun _ _ => World.step_now hm
  · exact Nat.le_antisymm (hnow hp) hle

/-- A step of a cycle takes the current round on, or ends it, and the main loop goes to rest. -/
theorem cycles (h : Keeps prompt name j log w) (hm : w.Admits (.step j))
    (hj : w.tasks.find? j = some (.mainLoop m)) (hname : m.scheduler = name)
    (hlive : m.cancelled = false) {c : Cycle} (hphase : m.phase = .cycling c)
    (hat : log.current.At c.phase) (hforce : c.force = false) (hown : c.scheduler = name)
    (hnow : prompt → log.current.loaded = none → w.now = log.current.began)
    (hcalm : c.meetsPanic w = false) :
    Keeps prompt name j { log with current := log.current.goOn j c w } (w.move (.step j)) := by
  obtain ⟨l, hl⟩ := h.led
  obtain ⟨s, hs, -⟩ := Option.map_eq_some_iff.mp hl
  have hgoes : (log.current.goOn j c w).Goes c (c.step j w).1 :=
    hat.step hforce (hown ▸ hs) hcalm
  have htime : (w.move (.step j)).now = w.now := World.step_now hm
  have hkept : Log.Kept prompt { log with current := log.current.goOn j c w } := by
    refine h.kept.goOn rfl fun t given hloaded hp => ?_
    rcases hat.loads hloaded with ⟨hnone, rfl⟩ | hbefore
    · exact hnow hp hnone
    · exact h.kept.loads _ List.mem_cons_self t given hbefore hp
  suffices hloop : ∃ m', (m.step j w).1 = .on m' ∧ m'.scheduler = name ∧ m'.cancelled = false ∧
      MainLoop.Stands prompt name w.now (log.current.goOn j c w) m'.phase by
    obtain ⟨m', hstep, hname', hlive', hstands⟩ := hloop
    exact ⟨h.regular.move hm, h.paired.move (h.regular.shift hm), ⟨l, World.lock?_move hm hl⟩,
      ⟨m', (World.move_step_loop hm hj hstep).2, hname', hlive', htime ▸ hstands⟩, hkept⟩
  cases hcstep : c.step j w with
  | mk next v =>
      rw [hcstep] at hgoes
      cases hgoes with
      | @on phase hat' =>
          refine ⟨{ m with phase := .cycling { c with phase } }, ?_, hname, hlive, ?_⟩
          · simp only [MainLoop.step, hphase, hlive, hcstep, Bool.false_eq_true, if_false]
          · exact .cycles hat' hforce hown fun hp hnone => hnow hp (hat.unloaded hnone)
      | @ends t result hended hover =>
          have hrests := MainLoop.step_rests hphase hlive hcstep (hover.interval hended)
          have hv : v.now = w.now := by
            have hcycle := (c.step_via j w).now
            rwa [hcstep] at hcycle
          rw [hv] at hrests
          refine ⟨_, hrests, hname, hlive, .rests hover (Round.due?_eq (Round.goOn_ended hcstep))
            fun _ => ?_⟩
          exact Clock.now_le_alarm _ _

/-- Whatever happens between the steps of a main loop leaves it where it stands. -/
theorem other (h : Keeps prompt name j log w) {x : Happening} (hx : w.Allows x)
    (hother : x.isStep j = false) (hup : w.Upholds j x) (hheed : prompt → w.Heedful j x) :
    Keeps prompt name j log (w.happen x) := by
  obtain ⟨m, hj, hname, hlive, hstands⟩ := h.loop
  obtain ⟨l, hl⟩ := h.led
  refine ⟨h.regular.happen hx, h.paired.happen h.regular hx, ⟨l, World.lock?_happen hl hx⟩,
    ⟨m, h.regular.loop_kept h.paired hj hlive hx hother hup, hname, hlive, ?_⟩, h.kept⟩
  generalize hphase : m.phase = phase at hstands
  cases hstands with
  | @cycles c hat hforce hown hnow =>
      refine .cycles hat hforce hown fun hp hnone => ?_
      have hready : w.enabled j = true := by
        have hload := hat.loading_of_unloaded hnone
        simp [World.enabled, hj, Task.ready, MainLoop.ready, hphase, Cycle.ready, hload]
      exact ((hheed hp).now_kept hx hready).trans (hnow hp hnone)
  | @rests wake hover hdue hnow =>
      refine .rests hover hdue fun hp => (hheed hp).now_le hx hj ?_ (hnow hp)
      simp [Task.alarms, hphase]

/-- Whatever happens to a main loop that keeps its lock, it keeps its cadence. -/
theorem happen (h : Keeps prompt name j log w) {x : Happening} (hx : w.Allows x)
    (hup : w.Upholds j x) (hheed : prompt → w.Heedful j x) :
    Keeps prompt name j (log.after j w x) (w.happen x) := by
  obtain ⟨m, hj, hname, hlive, hstands⟩ := h.loop
  unfold Log.after
  cases hown : x.isStep j with
  | false => exact h.other hx hown hup hheed
  | true =>
      obtain rfl : x = .move (.step j) := Happening.eq_of_isStep hown
      have hcalm : m.meetsPanic w = false := by
        simpa only [World.loopPanics, hj] using hup.2 hown
      rw [if_pos rfl, hj]
      dsimp only [Log.stepped]
      generalize hphase : m.phase = phase at hstands
      cases hstands with
      | @cycles c hat hforce hown hnow =>
          have hcycle : c.meetsPanic w = false := by
            simpa only [MainLoop.meetsPanic, hphase] using hcalm
          exact h.cycles hx hj hname hlive hphase hat hforce hown hnow hcycle
      | rests hover hdue hnow => exact h.wakes hx hj hname hlive hphase hover hdue hnow

end Keeps

/-! ## The whole course -/

/-- A rule by which nothing that happens keeps a task waiting. -/
def Heeded (rule : World → Happening → Prop) (j : TaskId) : Prop :=
  ∀ v x, rule v x → v.Heedful j x

variable {utc : Int} {store : Store} {before : List Move} {u w : World}
  {rule : World → Happening → Prop} {name : String} {j : TaskId} {log : Log}

/-- Whatever is accepted keeps what holds of the main loop and of its rounds. -/
theorem Chronicle.keeps
    (h₀ : World.History (fun _ _ => True) (World.around utc store) before u)
    (hj : u.tasks.find? j = some (.mainLoop (.start name)))
    (hrule : ∀ v x, rule v x → v.Upholds j x) (h : Chronicle rule j u log w) :
    Keeps (Heeded rule j) name j log w := by
  induction h with
  | begins =>
      refine ⟨h₀.regular, h₀.paired, h₀.led (World.role_of_find? hj), ⟨_, hj, rfl, rfl, ?_⟩, ?_⟩
      · exact .cycles (.loading rfl rfl rfl) rfl rfl fun _ _ => rfl
      · refine ⟨nofun, ?_, fun k later earlier _ hearlier => nomatch hearlier⟩
        intro r hr
        rcases List.mem_cons.mp hr with rfl | hpast
        · nofun
        · cases hpast
  | goes _ possible obeys ih =>
      exact ih.happen possible (hrule _ _ obeys) fun hprompt => hprompt _ _ obeys

/-- A main loop has just been started, and goes on while it keeps its lock: whatever the source of
its settings gives when it is asked, however its service replies, short of a panic, and whatever
else goes on in the fleet, other cycles of the scheduler among it, the main loop is still there and
has not been cancelled. Each of its rounds calls the service once if the settings that it has loaded
enable autoupdate, and not at all otherwise, and ends with the interval of those settings or with a
fault. As long as timers can be set to the end of it, the interval, or an hour after a fault, passes
after each round before the next one begins, and loads the settings, at that very instant, if the
loop is not kept waiting; a timer rings at whole milliseconds alone. -/
theorem cadence_survives
    (h₀ : World.History (fun _ _ => True) (World.around utc store) before u)
    (hj : u.tasks.find? j = some (.mainLoop (.start name)))
    (hrule : ∀ v x, rule v x → v.Upholds j x) (h : Chronicle rule j u log w) :
    (∃ m, w.tasks.find? j = some (.mainLoop m) ∧ m.scheduler = name ∧ m.cancelled = false ∧
      MainLoop.Stands (Heeded rule j) name w.now log.current m.phase ∧
      ∀ wake, m.phase = .sleeping wake → (w.enabled j = true ↔ wake ≤ w.now)) ∧
    log.current.calls ≤ log.current.wanted ∧ (∀ r ∈ log.past, r.Over ∧ r.calls = r.wanted) ∧
    (Heeded rule j → ∀ r ∈ log.rounds, ∀ t given, r.loaded = some (t, given) → t = r.began) ∧
    ∀ k later earlier, log.rounds[k]? = some later → log.rounds[k + 1]? = some earlier →
      ∃ t result, earlier.ended = some (t, result) ∧
        (t + earlier.minutes * 60 * 1000000000 ≤ Clock.lastAlarm →
          t + earlier.minutes * 60 * 1000000000 ≤ later.began ∧
          (Heeded rule j → later.began < t + earlier.minutes * 60 * 1000000000 + 1000000 ∧
            (1000000 ∣ t → later.began = t + earlier.minutes * 60 * 1000000000))) := by
  have hkeeps := h.keeps h₀ hj hrule
  obtain ⟨m, hm, hname, hlive, hstands⟩ := hkeeps.loop
  refine ⟨⟨m, hm, hname, hlive, hstands, fun wake hphase => ?_⟩, hstands.calls_le,
    fun r hr => ⟨hkeeps.kept.finished r hr, (hkeeps.kept.finished r hr).calls_eq⟩,
    fun hprompt r hr t given hl => hkeeps.kept.loads r hr t given hl hprompt, ?_⟩
  · simp [World.enabled, hm, Task.ready, MainLoop.ready, hlive, hphase]
  · intro k later earlier hlater hearlier
    obtain ⟨wake, hdue, hle, hprompt⟩ := hkeeps.kept.spaced k later earlier hlater hearlier
    obtain ⟨⟨t, result⟩, hended, -⟩ := Option.map_eq_some_iff.mp hdue
    refine ⟨t, result, hended, fun hfits => ?_⟩
    obtain ⟨hleast, hmost, hexact⟩ := Round.due?_exact hended hdue hfits
    refine ⟨Nat.le_trans hleast hle, fun hheeded => ?_⟩
    rw [hprompt hheeded]
    exact ⟨hmost, hexact⟩

/-- A service that reports an interval of its own, and fails from its third call on. -/
def fickle : Schedule.Service :=
  .scripted 0 fun call =>
    ⟨none, if call ≤ 2 then .summary ⟨"done", 999, []⟩ else .failed ⟨"down", none⟩⟩

/-- A scheduler of that service has been started. -/
def fickleStarted : World := (World.around 0 .empty).after
  [.scheduler "s" "autoupdate" (.ofSecs 100000) (.held ⟨true, 5⟩) fickle,
    .launch (.startScheduler "s" .entering), .step 0, .step 0]

/-- Its main loop runs, and is not kept waiting. -/
def Steady (w : World) (x : Happening) : Prop := w.Upholds 1 x ∧ w.Heedful 1 x

instance (w : World) (x : Happening) : Decidable (Steady w x) :=
  inferInstanceAs (Decidable (_ ∧ _))

/-- The main loop wakes at a second and takes a round. -/
def roundAt (seconds : Nat) : List Happening :=
  [.move (.pass (seconds * 1000000000)), .move (.step 1), .move (.step 1)]

/-- A round under settings of five minutes, while somebody else runs a cycle too; one in which the
settings cannot be loaded; one in which autoupdate is disabled, for two minutes; and one in which
the service fails. -/
def fickleRun : List Happening :=
  .move (.step 1) :: .move (.launch (.runCycle (.start "s" true))) :: .move (.step 3) ::
    .source "s" (.failing ⟨"down", none⟩) :: roundAt 300 ++
    .source "s" (.held ⟨false, 2⟩) :: roundAt 3900 ++
    .source "s" (.held ⟨true, 5⟩) :: roundAt 4020 ++
    [.move (.pass 7620000000000), .move (.step 1)]

/-- The log of the main loop, and the world, after that. -/
def fickleEnd : Log × World := Chronicle.run 1 ⟨.start 0, []⟩ fickleStarted fickleRun

/-- After the faults the main loop is in its fifth round. -/
theorem cadence_survives_faults :
    (∃ m, fickleEnd.2.tasks.find? 1 = some (.mainLoop m) ∧ m.cancelled = false) ∧
    fickleEnd.1.rounds.map Round.began =
      [7620000000000, 4020000000000, 3900000000000, 300000000000, 0] ∧
    (∀ r ∈ fickleEnd.1.past, r.Over ∧ r.calls = r.wanted) ∧
    fickleEnd.1.rounds.map Round.wanted = [0, 1, 0, 0, 1] ∧
    ∀ k later earlier, fickleEnd.1.rounds[k]? = some later →
      fickleEnd.1.rounds[k + 1]? = some earlier → ∃ t result, earlier.ended = some (t, result) ∧
        later.began = t + earlier.minutes * 60 * 1000000000 := by
  have hopen : World.History (fun _ _ => True) (World.around 0 .empty) _ fickleStarted :=
    .of_check (by decide +kernel)
  have hruns : Chronicle Steady 1 fickleStarted fickleEnd.1 fickleEnd.2 :=
    .of_check .begins (by decide +kernel)
  obtain ⟨⟨m, hm, -, hlive, -⟩, -, hover, -, hspaced⟩ := cadence_survives hopen
    (by rfl : fickleStarted.tasks.find? 1 = some (.mainLoop (.start "s")))
    (fun _ _ h => h.1) hruns
  refine ⟨⟨m, hm, hlive⟩, by decide +kernel, hover, by decide +kernel, ?_⟩
  intro k later earlier hlater hearlier
  obtain ⟨t, result, hended, hbegan⟩ := hspaced k later earlier hlater hearlier
  have hfits : ∀ r ∈ fickleEnd.1.rounds, ∀ e ∈ r.ended,
      e.1 + r.minutes * 60 * 1000000000 ≤ Clock.lastAlarm := by decide +kernel
  have hwhole : ∀ r ∈ fickleEnd.1.rounds, ∀ e ∈ r.ended, 1000000 ∣ e.1 := by decide +kernel
  have hearlier' := List.mem_of_getElem? hearlier
  obtain ⟨-, hprompt⟩ := hbegan (hfits earlier hearlier' _ hended)
  exact ⟨t, result, hended, (hprompt fun _ _ h => h.2).2 (hwhole earlier hearlier' _ hended)⟩

/-- A scheduler whose settings ask for an interval of more than `2 ^ 63` seconds has been started,
with a lock that lives for longer than a century. -/
def distantStarted : World := (World.around 0 .empty).after
  [.scheduler "s" "autoupdate" (.ofSecs 4000000000) (.held ⟨true, 200000000000000000⟩)
      (.scripted 0 fun _ => ⟨none, .summary (.new "done")⟩),
    .launch (.startScheduler "s" .entering), .step 0, .step 0]

/-- The log of its main loop, and the world, after a round and thirty years. -/
def distantEnd : Log × World :=
  Chronicle.run 1 ⟨.start 0, []⟩ distantStarted (.move (.step 1) :: roundAt 946080000)

/-- The interval has its seconds in 64 bits, and the clock does not tell its end. The main loop is
not kept waiting, and begins its second round after thirty years. -/
theorem cadence_of_distant_interval :
    Chronicle Steady 1 distantStarted distantEnd.1 distantEnd.2 ∧
      distantEnd.1.rounds.map Round.minutes = [200000000000000000, 200000000000000000] ∧
      200000000000000000 * 60 < 18446744073709551616 ∧
      distantEnd.1.rounds.map Round.began = [946080000 * 1000000000, 0] ∧
      distantEnd.1.past.map (fun r => r.ended.map Prod.fst) = [some 0] :=
  ⟨.of_check .begins (by decide +kernel), by decide +kernel, by decide, by decide +kernel,
    by decide +kernel⟩

end JobFleet
