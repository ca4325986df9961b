import JobFleet.Proofs.Fleet.Perform
import JobFleet.Proofs.Schedule.Pause

/-!
# Rounds of a main loop

A round is one cycle of a main loop: when it began, what the source of the settings gave it, how
often the service was called in it, and how it ended. Whatever the source gives and however the
service replies, a cycle calls the service once if the settings enable autoupdate and not at all
otherwise, and it ends with the interval of the settings or with a fault. Only a service that
panics takes the main loop with it.
-/

namespace JobFleet

/-- A record of the service of a scheduler: that a script was called, or that a tick's job was
handed in. -/
def Record.ofService (name : String) : Record → Bool
  | .ran (.service scheduler _ _ _) => scheduler = name
  | .logged (.schedule (.tick ..)) => true
  | _ => false

/-- What a source of settings gives. -/
def SettingsSource.given : SettingsSource → Except Failure ParserSettings
  | .held p => .ok p
  | .failing fault => .error fault

/-- What the source of a scheduler's settings gives when it is asked now. -/
def World.offer? (w : World) (name : String) : Option (Except Failure ParserSettings) :=
  (w.schedulers.find? name).map fun s => s.source.given

/-- The number of records of a scheduler's service. -/
def World.serviceRuns (w : World) (name : String) : Nat :=
  w.journal.countP fun x => x.2.ofService name

namespace Schedule

/-- Whether the next call of a service panics. -/
def Service.breaks : Service → Bool
  | .scripted calls reply =>
      match (reply (calls + 1)).ending with
      | .panicked => true
      | _ => false
  | .runner .. => false

/-- Whether a cycle is about to call a service that panics. -/
def Cycle.meetsPanic (w : World) (c : Cycle) : Bool :=
  match c.phase with
  | .loading => (w.schedulers.find? c.scheduler).any fun s =>
      match s.source with
      | .held p => (p.enabled || c.force) && s.service.breaks
      | .failing _ => false
  | _ => false

/-- A round of a main loop: when its cycle began, when the settings were loaded and what the source
gave, how many records of the service the cycle made, and when the cycle ended and how. -/
structure Round where
  began : Nat
  loaded : Option (Nat × Except Failure ParserSettings)
  calls : Nat
  ended : Option (Nat × Except CycleError Summary)

namespace Round

/-- A round that begins at an instant. -/
def start (now : Nat) : Round := ⟨now, none, 0, none⟩

/-- What the source of the settings has given once a cycle has taken a step. -/
def loadedBy (r : Round) (c : Cycle) (w : World) : Option (Nat × Except Failure ParserSettings) :=
  match c.phase with
  | .loading => (w.offer? c.scheduler).map fun given => (w.now, given)
  | _ => r.loaded

/-- The end of a cycle that goes on from an instant, if it ends. -/
def endedBy (now : Nat) : Progress Cycle CycleEnding → Option (Nat × Except CycleError Summary)
  | .ended (.finished result) => some (now, result)
  | _ => none

/-- A round after one more step of its cycle. -/
def goOn (r : Round) (self : TaskId) (c : Cycle) (w : World) : Round where
  began := r.began
  loaded := r.loadedBy c w
  calls := r.calls + ((c.step self w).2.serviceRuns c.scheduler - w.serviceRuns c.scheduler)
  ended := endedBy w.now (c.step self w).1

/-- The minutes from the end of a round to the next one: those that the settings ask for, or an hour
after a fault. -/
def minutes (r : Round) : Nat :=
  match r.loaded, r.ended with
  | some (_, .ok p), some (_, .ok _) => p.interval
  | _, _ => 60

/-- How often a round is to call the service, by the settings that it has loaded. -/
def wanted (r : Round) : Nat :=
  match r.loaded with
  | some (_, .ok p) => if p.enabled then 1 else 0
  | _ => 0

/-- When the main loop is to go on after a round. -/
def due? (r : Round) : Option Nat := r.ended.map fun e => Clock.alarm e.1 (pauseAfter r.minutes)

/-- How often a cycle calls the service and how it can end, given what its source gave. -/
inductive Yields : Except Failure ParserSettings → Nat → Except CycleError Summary → Prop
  | unloaded (fault : Failure) : Yields (.error fault) 0 (.error (.settings fault))
  | disabled {p : ParserSettings} (h : p.enabled = false) :
      Yields (.ok p) 0 (.ok (.disabled p.interval))
  | ran {p : ParserSettings} {s : Summary} (h : p.enabled = true) (hs : s.interval = p.interval) :
      Yields (.ok p) 1 (.ok s)
  | failed {p : ParserSettings} (h : p.enabled = true) (fault : Failure) :
      Yields (.ok p) 1 (.error (.service fault))

/-- A round that is over. -/
inductive Over (r : Round) : Prop
  | intro (given : Except Failure ParserSettings) (result : Except CycleError Summary) (t t' : Nat)
      (loaded : r.loaded = some (t, given)) (ended : r.ended = some (t', result))
      (yields : Yields given r.calls result)

/-- A round whose cycle has come to a phase. -/
inductive At (r : Round) : Cycle.Phase → Prop
  | loading (hl : r.loaded = none) (hc : r.calls = 0) (he : r.ended = none) : At r .loading
  | pausing {p : ParserSettings} {t call wake : Nat} {ending : ServiceEnding}
      (hl : r.loaded = some (t, .ok p)) (hp : p.enabled = true) (hc : r.calls = 1)
      (he : r.ended = none) (hs : ending ≠ .panicked) : At r (.pausing p call wake ending)
  | enqueuing {p : ParserSettings} {t : Nat} {inner : Enqueue}
      (hl : r.loaded = some (t, .ok p)) (hp : p.enabled = true) (hc : r.calls = 0)
      (he : r.ended = none) : At r (.enqueuing p inner)

/-- A round that has loaded nothing is loading. -/
theorem At.loading_of_unloaded {r : Round} {phase : Cycle.Phase} (h : r.At phase)
    (hl : r.loaded = none) : phase = .loading := by
  cases h with
  | loading => rfl
  | pausing hsome => cases hl.symm.trans hsome
  | enqueuing hsome => cases hl.symm.trans hsome

/-- A round calls no more often than it wants to. -/
theorem At.calls_le {r : Round} {phase : Cycle.Phase} (h : r.At phase) : r.calls ≤ r.wanted := by
  cases h with
  | loading hl hc => exact hc ▸ Nat.zero_le _
  | pausing hl hp hc => simp [wanted, hl, hp, hc]
  | enqueuing hl hp hc => exact hc ▸ Nat.zero_le _

/-- A round that is over has called the service as often as its settings want it. -/
theorem Over.calls_eq {r : Round} (h : r.Over) : r.calls = r.wanted := by
  obtain ⟨given, result, t, t', hloaded, -, hyields⟩ := h
  unfold wanted
  rw [hloaded]
  generalize r.calls = calls at hyields
  cases hyields with
  | unloaded fault => rfl
  | disabled hp => simp [hp]
  | ran hp hs => simp [hp]
  | failed hp fault => simp [hp]

/-- After a round the main loop rests for the round's minutes. -/
theorem Over.interval {r : Round} (h : r.Over) {t : Nat} {result : Except CycleError Summary}
    (hended : r.ended = some (t, result)) :
    (CycleEnding.finished result).interval? = some r.minutes := by
  obtain ⟨given, result', t₀, t', hloaded, hended', hyields⟩ := h
  cases hended.symm.trans hended'
  unfold minutes
  rw [hloaded, hended]
  generalize r.calls = calls at hyields
  cases hyields with
  | unloaded fault => rfl
  | disabled hp => rfl
  | ran hp hs => exact congrArg some hs
  | failed hp fault => rfl

/-- A round is followed by a minute at the least. -/
theorem one_le_minutes (r : Round) : 1 ≤ r.minutes := by
  unfold minutes
  split
  · exact ParserSettings.one_le_interval _
  · decide

/-- The next round is due a pause after this one has ended. -/
theorem due?_eq {r : Round} {t : Nat} {result : Except CycleError Summary}
    (hended : r.ended = some (t, result)) :
    r.due? = some (Clock.alarm t (pauseAfter r.minutes)) := by
  rw [due?, hended]
  rfl

/-- If timers can be set to its end, the rest after a round is exactly as many minutes as the round
tells, up to the millisecond to which timers are set. -/
theorem due?_exact {r : Round} {t wake : Nat} {result : Except CycleError Summary}
    (hended : r.ended = some (t, result)) (hdue : r.due? = some wake)
    (hle : t + r.minutes * 60 * 1000000000 ≤ Clock.lastAlarm) :
    t + r.minutes * 60 * 1000000000 ≤ wake ∧ wake < t + r.minutes * 60 * 1000000000 + 1000000 ∧
      (1000000 ∣ t → wake = t + r.minutes * 60 * 1000000000) := by
  have hwake : wake = Clock.alarm t (pauseAfter r.minutes) :=
    Option.some.inj (hdue.symm.trans (due?_eq hended))
  have hlt : r.minutes * 60 < 18446744073709551616 := by
    unfold Clock.lastAlarm at hle
    omega
  have hnanos : (pauseAfter r.minutes).nanos = r.minutes * 60 * 1000000000 := by
    rw [nanos_pauseAfter, Nat.max_eq_left r.one_le_minutes, Nat.mod_eq_of_lt hlt]
  rw [hwake, Clock.alarm_eq (by rw [hnanos]; exact hle), hnanos]
  omega

end Round

/-! ## The records of a cycle -/

end Schedule

namespace World

variable {w : World} {name : String}

/-- A record of something else counts no run. -/
theorem serviceRuns_enter {r : Record} (h : r.ofService name = false) :
    (w.enter r).serviceRuns name = w.serviceRuns name := by
  refine List.countP_cons_of_neg ?_
  rw [h]
  exact Bool.false_ne_true

/-- A record of the service counts one run. -/
theorem serviceRuns_enter_own {r : Record} (h : r.ofService name = true) :
    (w.enter r).serviceRuns name = w.serviceRuns name + 1 :=
  List.countP_cons_of_pos h

/-- A call on the store counts no run. -/
theorem serviceRuns_perform (w : World) (name : String) {a : Answer} (c : Call a) :
    (w.perform c).2.serviceRuns name = w.serviceRuns name := by
  unfold serviceRuns
  rw [perform_journal]
  exact List.countP_cons_of_neg Bool.false_ne_true

end World

namespace Enqueue

variable {name : String}

/-- Logging an outcome counts no run. -/
theorem conclude_serviceRuns (e : Enqueue) (outcome : EnqueueOutcome) (event : Runner.Event)
    (w : World) : (e.conclude outcome event w).2.serviceRuns name = w.serviceRuns name :=
  World.serviceRuns_enter (w := w) (r := .logged (.runner event)) rfl

/-- A push counts no run. -/
theorem push_serviceRuns (w : World) (runner : String) (job : Job) :
    (push w runner job).serviceRuns name = w.serviceRuns name := by
  unfold push
  split
  · rfl
  · dsimp only
    split <;> rfl

/-- The verdict on a status counts no run. -/
theorem judge_serviceRuns (e : Enqueue) (held : Option String) (w : World) :
    (e.judge held w).2.serviceRuns name = w.serviceRuns name := by
  unfold judge
  split
  · rfl
  · split
    · split
      · exact e.conclude_serviceRuns _ _ _
      · rfl
    · exact e.conclude_serviceRuns _ _ _

/-- Taking a job in counts no run. -/
theorem accept_serviceRuns (e : Enqueue) (w : World) :
    (e.accept w).2.serviceRuns name = w.serviceRuns name :=
  (push_serviceRuns _ e.runner e.job).trans
    (World.serviceRuns_enter (w := w) (r := .logged (.runner (.enqueued e.job))) rfl)

/-- Handing in a job makes no record of a service. -/
theorem step_serviceRuns (name : String) (self : TaskId) (e : Enqueue) (w : World) :
    (e.step self w).2.serviceRuns name = w.serviceRuns name := by
  unfold step
  split
  · rfl
  · rename_i r hr
    split
    · split
      · exact e.conclude_serviceRuns _ _ _
      · rfl
    · have hread := w.serviceRuns_perform name (.get e.job.key.statusKey)
      split
      · rename_i held u hu
        rw [hu] at hread
        exact (e.judge_serviceRuns held u).trans hread
      · rename_i cause u hu
        rw [hu] at hread
        exact (e.conclude_serviceRuns _ _ u).trans hread
    · rename_i held hp
      have hclaim := w.serviceRuns_perform name (e.claim r.config.queuedTtl held)
      split
      · rename_i u hu
        rw [hu] at hclaim
        exact (e.accept_serviceRuns u).trans hclaim
      · rename_i u hu
        rw [hu] at hclaim
        exact (e.conclude_serviceRuns _ _ _).trans hclaim
      · rename_i cause u hu
        rw [hu] at hclaim
        exact (e.conclude_serviceRuns _ _ u).trans hclaim

end Enqueue

/-! ## The steps of a round -/

namespace Schedule

variable {self : TaskId} {c : Cycle} {p : ParserSettings} {w v : World} {r : Round}

/-- A call of the service that has not panicked ends the cycle with the interval of the settings or
with a fault. -/
theorem Cycle.conclude_yields {ending : ServiceEnding} (hp : p.enabled = true)
    (h : ending ≠ .panicked) : ∃ result, conclude p ending = .ended (.finished result) ∧
      Round.Yields (.ok p) 1 result := by
  cases ending with
  | summary s => exact ⟨_, rfl, .ran hp rfl⟩
  | failed fault => exact ⟨_, rfl, .failed hp fault⟩
  | panicked => exact absurd rfl h

/-- How a call of a service goes on: a script has been called, and takes its time or is over, or a
tick's job is about to be handed in. -/
inductive Cycle.Called (c : Cycle) (p : ParserSettings) (w : World) :
    Progress Cycle CycleEnding → World → Prop
  | takesTime {v : World} {call wake : Nat} {ending : ServiceEnding} (hs : ending ≠ .panicked)
      (hv : v.serviceRuns c.scheduler = w.serviceRuns c.scheduler + 1) :
      Called c p w (.on { c with phase := .pausing p call wake ending }) v
  | isOver {v : World} {result : Except CycleError Summary} (h : Round.Yields (.ok p) 1 result)
      (hv : v.serviceRuns c.scheduler = w.serviceRuns c.scheduler + 1) :
      Called c p w (.ended (.finished result)) v
  | handsIn {inner : Enqueue} : Called c p w (.on { c with phase := .enqueuing p inner }) w

/-- A service that does not break off is called once. -/
theorem Cycle.callService_called {service : Service} (hp : p.enabled = true)
    (h : service.breaks = false) :
    c.Called p w (c.callService p service w).1 (c.callService p service w).2 := by
  cases service with
  | runner => exact .handsIn
  | scripted calls reply =>
      have hs : (reply (calls + 1)).ending ≠ .panicked := by
        intro he
        simp [Service.breaks, he] at h
      have hnote : ∀ u : World,
          (u.note (.service c.scheduler (calls + 1) p true)).serviceRuns c.scheduler =
            u.serviceRuns c.scheduler + 1 :=
        fun u => World.serviceRuns_enter_own (decide_eq_true rfl)
      unfold callService
      dsimp only
      split
      · exact .takesTime hs (hnote _)
      · obtain ⟨result, hresult, hyields⟩ := conclude_yields hp hs
        rw [hresult]
        exact .isOver hyields (hnote _)

namespace Round

/-- How a cycle goes on from a step: it is still under way, or its round is over. -/
inductive Goes (r : Round) (c : Cycle) : Progress Cycle CycleEnding → Prop
  | on {phase : Cycle.Phase} (h : r.At phase) : Goes r c (.on { c with phase })
  | ends {t : Nat} {result : Except CycleError Summary} (hended : r.ended = some (t, result))
      (h : r.Over) : Goes r c (.ended (.finished result))

/-- A round that ends is noted with its moment and result. -/
theorem goOn_ended {result : Except CycleError Summary}
    (h : c.step self w = (.ended (.finished result), v)) :
    (r.goOn self c w).ended = some (w.now, result) := by
  unfold goOn
  rw [h]
  rfl

/-- A cycle that has not loaded the settings after a step had not loaded them before it. -/
theorem At.unloaded (h : r.At c.phase) (hl : r.loadedBy c w = none) : r.loaded = none := by
  unfold loadedBy at hl
  split at hl
  · rename_i hphase
    rw [hphase] at h
    cases h with
    | loading hnone hc he => exact hnone
  · exact hl

/-- What a cycle has loaded once it has taken a step, it had loaded before, or loads now. -/
theorem At.loads (h : r.At c.phase) {t : Nat} {given : Except Failure ParserSettings}
    (hl : r.loadedBy c w = some (t, given)) :
    r.loaded = none ∧ t = w.now ∨ r.loaded = some (t, given) := by
  unfold loadedBy at hl
  split at hl
  · rename_i hphase
    rw [hphase] at h
    obtain ⟨given', -, he⟩ := Option.map_eq_some_iff.mp hl
    cases he
    cases h with
    | loading hnone hc he => exact .inl ⟨hnone, rfl⟩
  · exact .inr hl

/-- A step that is known, and how many records of the service it makes, tell how its cycle goes
on. -/
theorem Goes.of_step {next : Progress Cycle CycleEnding} (hstep : c.step self w = (next, v))
    {loaded : Option (Nat × Except Failure ParserSettings)} (hl : r.loadedBy c w = loaded) {n : Nat}
    (hv : v.serviceRuns c.scheduler = w.serviceRuns c.scheduler + n)
    (h : Goes ⟨r.began, loaded, r.calls + n, endedBy w.now next⟩ c next) :
    (r.goOn self c w).Goes c (c.step self w).1 := by
  have hgoOn : r.goOn self c w = ⟨r.began, loaded, r.calls + n, endedBy w.now next⟩ := by
    unfold goOn
    rw [hstep, hl, hv, Nat.add_sub_cancel_left]
  rw [hgoOn, hstep]
  exact h

/-- A cycle whose round is over when it ends with a result. -/
theorem Goes.of_yields {given : Except Failure ParserSettings} {result : Except CycleError Summary}
    {t : Nat} {began calls now : Nat} (h : Yields given calls result) :
    Goes ⟨began, some (t, given), calls, some (now, result)⟩ c (.ended (.finished result)) :=
  .ends rfl ⟨given, result, t, now, rfl, rfl, h⟩

/-- A step that loads the settings. -/
theorem At.load {s : Scheduler} (h : r.At .loading) (hphase : c.phase = .loading)
    (hforce : c.force = false) (hs : w.schedulers.find? c.scheduler = some s)
    (hcalm : c.meetsPanic w = false) : (r.goOn self c w).Goes c (c.step self w).1 := by
  have hcalls : r.calls = 0 := by
    cases h with
    | loading hl hc he => exact hc
  have hload : c.step self w = c.load w := by
    unfold Cycle.step
    rw [hphase]
  have hloaded : r.loadedBy c w = some (w.now, s.source.given) := by
    unfold loadedBy World.offer?
    rw [hphase, hs]
    rfl
  cases hsource : s.source with
  | failing fault =>
      rw [hsource] at hloaded
      have hstep : c.step self w = (.ended (.finished (.error (.settings fault))), w) := by
        simp only [hload, Cycle.load, hs, hsource, Cycle.finish]
      refine .of_step hstep hloaded (n := 0) rfl ?_
      rw [hcalls]
      exact .of_yields (.unloaded fault)
  | held p =>
      rw [hsource] at hloaded
      cases hp : p.enabled with
      | false =>
          have hstep : c.step self w = (.ended (.finished (.ok (.disabled p.interval))), w) := by
            simp only [hload, Cycle.load, hs, hsource, hp, hforce, Bool.or_false,
              Bool.false_eq_true, if_false, Cycle.finish]
          refine .of_step hstep hloaded (n := 0) rfl ?_
          rw [hcalls]
          exact .of_yields (.disabled hp)
      | true =>
          have hcall : c.step self w = c.callService p s.service w := by
            rw [hload]
            simp only [Cycle.load, hs, hsource, hp, Bool.true_or, if_true]
          have hbreaks : s.service.breaks = false := by
            simpa [Cycle.meetsPanic, hphase, hs, hsource, hp] using hcalm
          have hcalled := Cycle.callService_called (c := c) (w := w) hp hbreaks
          rw [← hcall] at hcalled
          generalize hnext : c.step self w = next at hcalled
          obtain ⟨next, v⟩ := next
          rw [← hnext]
          cases hcalled with
          | takesTime hs hv =>
              refine .of_step hnext hloaded hv ?_
              rw [hcalls]
              exact .on (.pausing rfl hp rfl rfl hs)
          | isOver hyields hv =>
              refine .of_step hnext hloaded hv ?_
              rw [hcalls]
              exact .of_yields hyields
          | handsIn =>
              refine .of_step hnext hloaded (n := 0) rfl ?_
              rw [hcalls]
              exact .on (.enqueuing rfl hp rfl rfl)

/-- Every step of a cycle that is not forced and whose service does not panic takes its round on.
-/
theorem At.step {s : Scheduler} (h : r.At c.phase) (hforce : c.force = false)
    (hs : w.schedulers.find? c.scheduler = some s) (hcalm : c.meetsPanic w = false) :
    (r.goOn self c w).Goes c (c.step self w).1 := by
  have hloaded : c.phase ≠ .loading → r.loadedBy c w = r.loaded := by
    intro hne
    unfold loadedBy
    split
    · exact absurd ‹_› hne
    · rfl
  cases hphase : c.phase with
  | loading => exact (hphase ▸ h).load hphase hforce hs hcalm
  | pausing p call wake ending =>
      rw [hphase] at h hloaded
      cases h with
      | pausing hl hp hc he hends =>
          obtain ⟨result, hresult, hyields⟩ := Cycle.conclude_yields hp hends
          have hstep : c.step self w =
              (.ended (.finished result), w.note (.serviceDone c.scheduler call)) := by
            simp only [Cycle.step, hphase, hresult]
          refine .of_step hstep ((hloaded nofun).trans hl) (n := 0)
            (World.serviceRuns_enter rfl) ?_
          rw [hc]
          exact .of_yields hyields
  | enqueuing p inner =>
      rw [hphase] at h hloaded
      cases h with
      | enqueuing hl hp hc he =>
          have hruns := inner.step_serviceRuns c.scheduler self w
          cases hinner : inner.step self w with
          | mk next v =>
              rw [hinner] at hruns
              cases next with
              | on inner' =>
                  have hstep : c.step self w =
                      (.on { c with phase := .enqueuing p inner' }, v) := by
                    simp only [Cycle.step, hphase, hinner]
                  refine .of_step hstep ((hloaded nofun).trans hl) (n := 0) hruns ?_
                  rw [hc]
                  exact .on (.enqueuing rfl hp rfl rfl)
              | ended outcome =>
                  have hstep : c.step self w = (.ended (.finished (.ok
                      (Cycle.tickSummary p inner.job.key outcome))),
                      v.log (.schedule (.tick inner.job.key outcome true p.enabled))) := by
                    simp only [Cycle.step, hphase, hinner, Cycle.finish]
                  refine .of_step hstep ((hloaded nofun).trans hl) (n := 1) ?_ ?_
                  · rw [← hruns]
                    exact World.serviceRuns_enter_own rfl
                  · rw [hc]
                    exact .of_yields (.ran hp rfl)

end Round

end Schedule

end JobFleet
