import JobFleet.Proofs.Settings.Parser
import JobFleet.Schedule.Loops

/-!
# The pause between cycles

The main loop counts its pause in seconds of 64 bits. Accepted settings can ask for more minutes
than those hold: the pause is then what is left of the product, and there is none where `2 ^ 62`
minutes are asked for, so that the loop spins.
-/

namespace JobFleet.Schedule

/-! ## Pauses -/

/-- The seconds of a pause, in words of 64 bits, are four times a remainder. -/
theorem mul_sixty_mod (n : Nat) :
    n * 60 % 18446744073709551616 = 4 * (n * 15 % 4611686018427387904) := by
  rw [← Nat.mul_mod_mul_left, ← Nat.mul_assoc, Nat.mul_comm 4 n, Nat.mul_assoc]

/-- Below `2 ^ 63` minutes, none of the seconds is left for `2 ^ 62` minutes alone. -/
theorem mul_sixty_mod_eq_zero_iff {n : Nat} (hpos : 0 < n) (h : n < 9223372036854775808) :
    n * 60 % 18446744073709551616 = 0 ↔ n = 4611686018427387904 := by
  have hcoprime : Nat.Coprime 4611686018427387904 15 := by decide +kernel
  constructor
  · intro hzero
    rw [mul_sixty_mod] at hzero
    have hrest : n * 15 % 4611686018427387904 = 0 :=
      (Nat.mul_eq_zero.mp hzero).resolve_left (by decide)
    obtain ⟨j, rfl⟩ := hcoprime.dvd_of_dvd_mul_right (Nat.dvd_of_mod_eq_zero hrest)
    clear hzero hrest
    omega
  · rintro rfl
    rfl

/-- A pause in nanoseconds, with its seconds counted in a word. -/
theorem nanos_pauseAfter (interval : Nat) :
    (pauseAfter interval).nanos = max interval 1 * 60 % 18446744073709551616 * 1000000000 := by
  have hlt := Nat.mod_lt (max interval 1 * 60) (show 18446744073709551616 > 0 by decide)
  exact Duration.nanos_ofSecs (Nat.le_of_lt_succ hlt)

/-- The pause is the interval, at least a minute, as long as its seconds are of 64 bits. -/
theorem pauseAfter_exact_iff (interval : Nat) :
    (pauseAfter interval).nanos = max interval 1 * 60 * 1000000000 ↔
      interval ≤ 307445734561825860 := by
  rw [nanos_pauseAfter]
  omega

/-! ## Cycles -/

/-- The settings of a cycle: those that it has loaded, or would load now. -/
def Cycle.settings? (w : World) (c : Cycle) : Option ParserSettings :=
  match c.phase with
  | .loading => w.heldSettings c.scheduler
  | .pausing settings _ _ _ => some settings
  | .enqueuing settings _ => some settings

/-- The interval that the main loop takes from the end of a cycle. -/
def CycleEnding.interval? : CycleEnding → Option Nat
  | .finished (.ok summary) => some summary.interval
  | .finished (.error _) => some defaultInterval
  | .panicked => none

/-- An end of a cycle with these settings: their interval, the default one, or a panic. -/
def CycleEnding.Of (p : ParserSettings) (ending : CycleEnding) : Prop :=
  ∀ i ∈ ending.interval?, i = p.interval ∨ i = defaultInterval

/-- A service ends its cycle with the interval of the settings, the default one, or a panic. -/
theorem Cycle.conclude_of {p : ParserSettings} {service : ServiceEnding} {ending : CycleEnding}
    (h : conclude p service = .ended ending) : ending.Of p := by
  cases service with
  | summary s =>
      cases h
      exact fun i hi => .inl (Option.some.inj hi).symm
  | failed fault =>
      cases h
      exact fun i hi => .inr (Option.some.inj hi).symm
  | panicked =>
      cases h
      exact nofun

/-- So does the call of a service that is over at once. -/
theorem Cycle.callService_of {p : ParserSettings} {c : Cycle} {service : Service} {w v : World}
    {ending : CycleEnding} (h : c.callService p service w = (.ended ending, v)) :
    ending.Of p := by
  unfold callService at h
  cases service with
  | scripted calls reply =>
      dsimp only at h
      split at h
      · cases h
      · exact conclude_of (congrArg Prod.fst h)
  | runner => cases h

/-- A cycle that is over at once ends so by the settings that it has loaded. -/
theorem Cycle.load_of {c : Cycle} {w v : World} {p : ParserSettings} {ending : CycleEnding}
    (hp : w.heldSettings c.scheduler = some p) (h : c.load w = (.ended ending, v)) :
    ending.Of p := by
  unfold World.heldSettings at hp
  unfold load at h
  cases hs : w.schedulers.find? c.scheduler with
  | none =>
      rw [hs] at hp
      cases hp
  | some s =>
      rw [hs, Option.map_some] at hp
      simp only [hs] at h
      split at hp
      · rename_i settings hsource
        cases hp
        simp only [Option.some.inj hsource] at h
        split at h
        · exact callService_of h
        · cases h
          exact fun i hi => .inl (Option.some.inj hi).symm
      · cases hp

/-- A cycle ends with the interval of its settings or with the default one, if it does not panic. -/
theorem Cycle.step_of {self : TaskId} {c : Cycle} {w v : World} {p : ParserSettings}
    {ending : CycleEnding} (hp : c.settings? w = some p)
    (h : c.step self w = (.ended ending, v)) : ending.Of p := by
  unfold Cycle.settings? at hp
  unfold Cycle.step at h
  split at hp
  · rename_i hphase
    simp only [hphase] at h
    exact load_of hp h
  · rename_i hphase
    cases hp
    simp only [hphase] at h
    exact conclude_of (congrArg Prod.fst h)
  · rename_i hphase
    cases hp
    simp only [hphase] at h
    split at h
    · cases h
    · cases h
      exact fun i hi => .inl (Option.some.inj hi).symm

/-! ## The main loop -/

/-- A main loop whose cycle ends goes to sleep for the interval that it takes from the end. -/
theorem MainLoop.step_rests {self : TaskId} {m : MainLoop} {c : Cycle} {w v : World}
    {ending : CycleEnding} {interval : Nat} (hphase : m.phase = .cycling c)
    (hlive : m.cancelled = false) (hstep : c.step self w = (.ended ending, v))
    (hinterval : ending.interval? = some interval) :
    (m.step self w).1 =
      .on { m with phase := .sleeping (Clock.alarm v.now (pauseAfter interval)) } := by
  have hafter : m.step self w = m.afterCycle ending v := by
    unfold MainLoop.step
    simp only [hphase, hlive, hstep, Bool.false_eq_true, if_false]
  rw [hafter]
  match ending with
  | .finished (.ok summary) =>
      cases hinterval
      rfl
  | .finished (.error fault) =>
      cases hinterval
      rfl
  | .panicked => cases hinterval

/-- The pause of a main loop under settings that were accepted, after a cycle that did not panic:
the interval is that of the settings or the default one, and the pause is exactly as many minutes,
and so a minute at least, if and only if they are no more than 307445734561825860. Of all accepted
settings those of `2 ^ 62` minutes alone make a pause of no length. -/
theorem MainLoop.pause_exact_iff {p : ParserSettings} (hp : Accepted p) {self : TaskId}
    {m : MainLoop} {c : Cycle} {w v : World} {ending : CycleEnding} {interval : Nat}
    (hphase : m.phase = .cycling c) (hlive : m.cancelled = false)
    (hsettings : c.settings? w = some p) (hstep : c.step self w = (.ended ending, v))
    (hinterval : ending.interval? = some interval) :
    (interval = p.interval ∨ interval = defaultInterval) ∧
      (m.step self w).1 =
        .on { m with phase := .sleeping (Clock.alarm v.now (pauseAfter interval)) } ∧
      ((pauseAfter interval).nanos = max interval 1 * 60 * 1000000000 ↔
        interval ≤ 307445734561825860) ∧
      (interval ≤ 307445734561825860 → 60 * 1000000000 ≤ (pauseAfter interval).nanos) ∧
      ((pauseAfter interval).nanos = 0 ↔ interval = 4611686018427387904) := by
  have hof := Cycle.step_of hsettings hstep interval hinterval
  have hexact := pauseAfter_exact_iff interval
  have hbounds : 0 < interval ∧ interval < 9223372036854775808 := by
    have hone := p.one_le_interval
    have hlt := hp.interval_lt
    have hdefault : defaultInterval = 60 := rfl
    omega
  refine ⟨hof, step_rests hphase hlive hstep hinterval, hexact, fun hmost => ?_, ?_⟩
  · rw [hexact.mpr hmost]
    omega
  · rw [nanos_pauseAfter, Nat.max_eq_left hbounds.1,
      ← mul_sixty_mod_eq_zero_iff hbounds.1 hbounds.2]
    exact ⟨fun h => (Nat.mul_eq_zero.mp h).resolve_right (by decide), fun h => by rw [h]⟩

/-- A world with one scheduler, whose service is done as soon as it is called. -/
def worldOf (p : ParserSettings) : World :=
  (World.empty 0).addScheduler "autoupdate" "autoupdate" (.ofSecs 90) (.held p)
    (.scripted 0 fun _ => ⟨none, .summary (.new "done")⟩)

/-- Five minutes are slept through to the millisecond. -/
theorem MainLoop.pause_exact_five :
    ((MainLoop.start "autoupdate").step 0 (worldOf ⟨true, 5⟩)).1 =
        .on { MainLoop.start "autoupdate" with phase := .sleeping (5 * 60 * 1000000000) } ∧
      (pauseAfter 5).nanos = 5 * 60 * 1000000000 := by
  have hp : Accepted ⟨true, 5⟩ := accepted_iff.mpr (by decide)
  have hstep : (Cycle.start "autoupdate" false).step 0 (worldOf ⟨true, 5⟩) = (.ended _, _) := rfl
  obtain ⟨-, hsleeps, hexact, -, -⟩ := MainLoop.pause_exact_iff hp (m := .start "autoupdate")
    rfl rfl rfl hstep rfl
  have hnanos := hexact.mpr (by decide)
  exact ⟨hsleeps, hnanos⟩

/-- `2 ^ 62` minutes are accepted and make no pause: the main loop goes to sleep until now, and its
next step begins the next cycle at the same instant. -/
theorem MainLoop.spins :
    Accepted ⟨true, 4611686018427387904⟩ ∧ (pauseAfter 4611686018427387904).nanos = 0 ∧
      ∃ m v, (MainLoop.start "autoupdate").step 0 (worldOf ⟨true, 4611686018427387904⟩) =
        (.on m, v) ∧ m.phase = .sleeping v.now ∧ m.ready v = true ∧
          m.step 0 v = (.on (.start "autoupdate"), v) := by
  have hnone : (pauseAfter 4611686018427387904).nanos = 0 := rfl
  have halarm : Clock.alarm 0 (pauseAfter 4611686018427387904) = 0 := by
    rw [Clock.alarm_eq (by decide), hnone]
  have hstep : (MainLoop.start "autoupdate").step 0 (worldOf ⟨true, 4611686018427387904⟩) =
      (.on { MainLoop.start "autoupdate" with
        phase := .sleeping (Clock.alarm 0 (pauseAfter 4611686018427387904)) }, _) := rfl
  rw [halarm] at hstep
  exact ⟨accepted_iff.mpr (by decide), hnone, _, _, hstep, rfl, rfl, rfl⟩

end JobFleet.Schedule
