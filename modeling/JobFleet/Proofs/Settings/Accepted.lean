import JobFleet.App.Setup
import JobFleet.Proofs.Fallible
import JobFleet.Proofs.Number.Written
import JobFleet.Proofs.Store.Effect

/-!
# What accepted settings mean

Settings that are loaded hold what the variables write: six of them are positive integers, and five
of these are kept exactly. The limit of sign-in attempts is kept in 32 bits of the 64 that are read,
so that a multiple of `2 ^ 32` is kept as zero, and a limiter of zero attempts refuses every login.
-/

namespace JobFleet

open Number (Range Writes)

/-! ## Variables -/

/-- A variable sets a number: it writes it between blanks, or it is unset or blank and the number
is the default. -/
def Variables.Sets (vars : Variables) (name : String) (default n : Int) : Prop :=
  (∃ v, vars name = some v ∧ Writes (Text.trim v) n) ∨
    (∀ v, vars name = some v → Text.trim v = "") ∧ n = default

/-- One variable that is set, and no other. -/
def Variables.only (name value : String) : Variables := fun n =>
  if n = name then some value else none

namespace Variables

variable {vars : Variables} {name : String} {r : Range} {default n : Int}

/-- A value is what is left of a variable when blanks are trimmed. -/
theorem value?_eq_some {v : String} (h : vars.value? name = some v) :
    ∃ raw, vars name = some raw ∧ Text.trim raw = v := by
  obtain ⟨hv, -⟩ := Option.filter_eq_some_iff.mp h
  obtain ⟨raw, hraw, rfl⟩ := Option.map_eq_some_iff.mp hv
  exact ⟨raw, hraw, rfl⟩

/-- A variable without a value is absent or blank. -/
theorem value?_eq_none (h : vars.value? name = none) (v : String) (hv : vars name = some v) :
    Text.trim v = "" := by
  rw [value?, hv, Option.map_some, Option.filter_some] at h
  split at h
  · cases h
  · rename_i hempty
    simpa using hempty

/-- An integer that is read is the one that the variable sets, and in its range. -/
theorem integer_sets (hz : r.low ≤ 0 ∧ 0 ≤ r.high) (hd : r.low ≤ default ∧ default ≤ r.high)
    (h : vars.integer name r default = .ok n) :
    vars.Sets name default n ∧ r.low ≤ n ∧ n ≤ r.high := by
  unfold integer read at h
  split at h
  · rename_i hnone
    cases h
    exact ⟨.inr ⟨value?_eq_none hnone, rfl⟩, hd⟩
  · rename_i v hv
    obtain ⟨raw, hraw, rfl⟩ := value?_eq_some hv
    dsimp only at h
    cases hread : Number.readInteger r (Text.trim raw) with
    | error cause =>
        rw [hread] at h
        cases h
    | ok m =>
        rw [hread] at h
        cases h
        exact ⟨.inl ⟨raw, hraw, Number.readInteger_writes hread⟩, Number.readInteger_holds hz hread⟩

/-- A positive integer that is read is also at least one. -/
theorem positive_sets (hz : r.low ≤ 0 ∧ 0 ≤ r.high) (hd : r.low ≤ default ∧ default ≤ r.high)
    (h : vars.positive name r default = .ok n) :
    vars.Sets name default n ∧ 1 ≤ n ∧ n ≤ r.high := by
  obtain ⟨m, hm, hn⟩ := bind_eq_ok.mp h
  obtain ⟨hsets, -, hhigh⟩ := integer_sets hz hd hm
  split at hn
  · cases hn
  · cases hn
    exact ⟨hsets, by omega, hhigh⟩

end Variables

/-! ## Settings -/

/-- Where the integers of the settings come from. -/
theorem Settings.load_reads {vars : Variables} {s : Settings} (h : Settings.load vars = .ok s) :
    vars.positive "JOBS_MAX_RUNNING" .int64 20 = .ok s.maxRunning ∧
    (∃ n, vars.positive "JOBS_QUEUE_CAPACITY" .nat64 1024 = .ok n ∧ s.queueCapacity = n.toNat) ∧
    (∃ n, vars.positive "JOBS_DEFAULT_MAX_ATTEMPTS" .nat32 3 = .ok n ∧
      s.jobDefaults.maxAttempts = n.toNat) ∧
    (∃ n, vars.positive "SCHEDULER_LOCK_TTL_SECONDS" .nat64 90 = .ok n ∧
      s.schedulerLockTtl = .ofSecs n.toNat) ∧
    vars.integer "PARSER_UPDATE_INTERVAL_MINUTES" .int64 defaultInterval = .ok s.parser.minutes ∧
    (∃ n, vars.positive "AUTH_RATE_LIMIT_MAX_ATTEMPTS" .nat64 5 = .ok n ∧
      s.limitAttempts = n.toNat % (maxCount + 1)) ∧
    ∃ n, vars.positive "AUTH_RATE_LIMIT_WINDOW_SECONDS" .nat64 60 = .ok n ∧
      s.limitWindow = .ofSecs n.toNat := by
  unfold Settings.load at h
  simp only [bind_eq_ok] at h
  obtain ⟨maxRunning, hrunning, capacity, hcapacity, attempts, hattempts, _, -, lockTtl, hlock,
    _, -, minutes, hminutes, limit, hlimit, window, hwindow, _, -, _, -, _, -, h⟩ := h
  cases h
  exact ⟨hrunning, ⟨capacity, hcapacity, rfl⟩, ⟨attempts, hattempts, rfl⟩, ⟨lockTtl, hlock, rfl⟩,
    hminutes, ⟨limit, hlimit, rfl⟩, window, hwindow, rfl⟩

/-- A number of seconds of 64 bits is no longer than the longest duration. -/
theorem Duration.nanos_ofSecs {n : Nat} (h : n ≤ 18446744073709551615) :
    (Duration.ofSecs n).nanos = n * 1000000000 := by
  rw [Duration.ofSecs, Duration.nanos_ofNanos, maxNanos]
  omega

/-- The limiter of a process with these settings. -/
def Settings.limiter (s : Settings) : Limiter := ⟨s.limitAttempts, s.limitWindow, s.limitPolicy⟩

/-- A process is set up with the limiter and the runner of its settings. -/
theorem World.addApp_parts (w : World) (name : String) (s : Settings) :
    (w.addApp name s).limiters.find? name = some s.limiter ∧
      (w.addApp name s).runnerConfig name = s.runnerConfig := by
  refine ⟨Table.find?_insert_self _ _ _, ?_⟩
  have hrunner : (w.addApp name s).runners.find? name = some (.new s.runnerConfig w.identify.1) :=
    Table.find?_insert_self _ _ _
  rw [World.runnerConfig, hrunner]
  rfl

/-- A limiter that lets nobody through: it refuses whatever number of failures it is told. -/
def Limiter.Closed (l : Limiter) : Prop :=
  ∀ failures : Int, 0 ≤ failures → l.limits (.ok failures) = true

/-- A limiter is closed where it allows no attempt. -/
theorem Limiter.closed_iff {l : Limiter} : l.Closed ↔ l.maxAttempts = 0 := by
  constructor
  · intro h
    have hzero : (l.maxAttempts : Int) ≤ 0 := of_decide_eq_true (h 0 (Int.le_refl 0))
    omega
  · intro h failures hfailures
    refine decide_eq_true ?_
    omega

/-- A runner that can take a counted job: its queue has room for one, and a counter that holds
nothing gives it a slot. -/
def Runner.Config.Admits (c : Runner.Config) : Prop :=
  0 < c.capacity ∧ ∀ (m : Store) (now : Nat), m.available = true →
    m.entryAt now jobCounterKey = none →
      (m.apply now (.incrementIfBelow jobCounterKey c.maxRunning)).1 = .ok true

/-- A runner with room and a ceiling admits. -/
theorem Runner.Config.admits_of_one_le {c : Runner.Config} (hcapacity : 1 ≤ c.capacity)
    (hrunning : 1 ≤ c.maxRunning) : c.Admits := by
  refine ⟨hcapacity, fun m now havailable hnone => ?_⟩
  have hheld : m.heldBy now (.incrementIfBelow jobCounterKey c.maxRunning) = none := hnone
  have hbelow : ¬ c.maxRunning ≤ 0 := by omega
  rw [m.apply_answer now _ havailable, hheld]
  simp only [Call.effect, Entry.number, if_neg hbelow, Except.map]

/-- Settings that are loaded hold what the variables write, and at least one of it: the ceiling and
the capacity of the runner, the attempts of a job, the life of the scheduler's lock and the window
of the limiter. -/
structure Settings.Exact (vars : Variables) (s : Settings) : Prop where
  maxRunning : vars.Sets "JOBS_MAX_RUNNING" 20 s.maxRunning ∧ 1 ≤ s.maxRunning
  queueCapacity : vars.Sets "JOBS_QUEUE_CAPACITY" 1024 s.queueCapacity ∧ 1 ≤ s.queueCapacity
  maxAttempts : vars.Sets "JOBS_DEFAULT_MAX_ATTEMPTS" 3 s.jobDefaults.maxAttempts ∧
    1 ≤ s.jobDefaults.maxAttempts
  lockTtl : ∃ n : Nat, vars.Sets "SCHEDULER_LOCK_TTL_SECONDS" 90 n ∧ 1 ≤ n ∧
    s.schedulerLockTtl.nanos = n * 1000000000
  limitWindow : ∃ n : Nat, vars.Sets "AUTH_RATE_LIMIT_WINDOW_SECONDS" 60 n ∧ 1 ≤ n ∧
    s.limitWindow.nanos = n * 1000000000

/-- A positive integer of a range without negative numbers, as a natural number. -/
theorem Variables.positive_nat {vars : Variables} {name : String} {r : Range} {default n : Int}
    (hz : r.low ≤ 0 ∧ 0 ≤ r.high) (hd : r.low ≤ default ∧ default ≤ r.high)
    (h : vars.positive name r default = .ok n) :
    vars.Sets name default n.toNat ∧ 1 ≤ n.toNat ∧ (n.toNat : Int) ≤ r.high := by
  obtain ⟨hsets, hone, hhigh⟩ := positive_sets hz hd h
  have hn : (n.toNat : Int) = n := Int.toNat_of_nonneg (by omega)
  rw [hn]
  exact ⟨hsets, by omega, hhigh⟩

/-- The settings that load are the ones that were written. -/
theorem Settings.load_exact {vars : Variables} {s : Settings} (h : Settings.load vars = .ok s) :
    s.Exact vars := by
  obtain ⟨hrunning, ⟨capacity, hcapacity, hc⟩, ⟨attempts, hattempts, ha⟩, ⟨ttl, httl, ht⟩, -, -,
    window, hwindow, hw⟩ := load_reads h
  obtain ⟨hrunning, hone, -⟩ := Variables.positive_sets (by decide) (by decide) hrunning
  have hcapacity := Variables.positive_nat (by decide) (by decide) hcapacity
  have hattempts := Variables.positive_nat (by decide) (by decide) hattempts
  obtain ⟨httl, httlOne, httlMost⟩ := Variables.positive_nat (by decide) (by decide) httl
  obtain ⟨hwindow, hwindowOne, hwindowMost⟩ :=
    Variables.positive_nat (by decide) (by decide) hwindow
  rw [← hc] at hcapacity
  rw [← ha] at hattempts
  refine ⟨⟨hrunning, hone⟩, ⟨hcapacity.1, hcapacity.2.1⟩, ⟨hattempts.1, hattempts.2.1⟩,
    ⟨ttl.toNat, httl, httlOne, ?_⟩, ⟨window.toNat, hwindow, hwindowOne, ?_⟩⟩
  · rw [ht, Duration.nanos_ofSecs (Int.ofNat_le.mp httlMost)]
  · rw [hw, Duration.nanos_ofSecs (Int.ofNat_le.mp hwindowMost)]

/-- Settings that are loaded hold what the variables write, in range, and a process that is set up
with them has a runner that can take a counted job. The limit of sign-in attempts alone is kept in
32 bits: it is what its variable writes exactly if that is below `2 ^ 32`, and the limiter of the
process lets nobody through exactly if it is a multiple of `2 ^ 32`. -/
theorem Settings.load_means {vars : Variables} {s : Settings} (h : Settings.load vars = .ok s) :
    s.Exact vars ∧
    (∀ (w : World) (name : String), ((w.addApp name s).runnerConfig name).Admits) ∧
    ∃ n : Nat, vars.Sets "AUTH_RATE_LIMIT_MAX_ATTEMPTS" 5 n ∧ 1 ≤ n ∧
      s.limitAttempts = n % 4294967296 ∧ (s.limitAttempts = n ↔ n < 4294967296) ∧
      ∀ (w : World) (name : String), ∃ l, (w.addApp name s).limiters.find? name = some l ∧
        (l.Closed ↔ 4294967296 ∣ n) := by
  have hexact := load_exact h
  obtain ⟨-, -, -, -, -, ⟨limit, hlimit, hl⟩, -⟩ := load_reads h
  obtain ⟨hsets, hone, -⟩ := Variables.positive_nat (by decide) (by decide) hlimit
  have hkept : s.limitAttempts = limit.toNat % 4294967296 := hl
  refine ⟨hexact, fun w name => ?_, limit.toNat, hsets, hone, hkept, ?_, fun w name => ?_⟩
  · rw [(w.addApp_parts name s).2]
    exact Runner.Config.admits_of_one_le hexact.queueCapacity.2 hexact.maxRunning.2
  · rw [hkept]
    omega
  · refine ⟨s.limiter, (w.addApp_parts name s).1, ?_⟩
    rw [Limiter.closed_iff, limiter, hkept]
    exact Nat.dvd_iff_mod_eq_zero.symm

/-- A limit of seven attempts, written between blanks, is kept. -/
theorem Settings.load_means_padded :
    ∃ s, Settings.load (.only "AUTH_RATE_LIMIT_MAX_ATTEMPTS" " 7 ") = .ok s ∧
      s.Exact (.only "AUTH_RATE_LIMIT_MAX_ATTEMPTS" " 7 ") ∧ s.limitAttempts = 7 ∧
      ∃ n : Nat, Variables.Sets (.only "AUTH_RATE_LIMIT_MAX_ATTEMPTS" " 7 ")
        "AUTH_RATE_LIMIT_MAX_ATTEMPTS" 5 n ∧ n % 4294967296 = 7 := by
  have hload : Settings.load (.only "AUTH_RATE_LIMIT_MAX_ATTEMPTS" " 7 ") = .ok _ := rfl
  obtain ⟨hexact, -, n, hsets, -, hkept, -⟩ := load_means hload
  exact ⟨_, hload, hexact, rfl, n, hsets, hkept.symm⟩

/-- A limit of `2 ^ 32` attempts is accepted and kept as none at all: every login is refused. -/
theorem Settings.load_closes :
    ∃ s, Settings.load (.only "AUTH_RATE_LIMIT_MAX_ATTEMPTS" "4294967296") = .ok s ∧
      s.limitAttempts = 0 ∧ s.limiter.Closed ∧
      ¬ Variables.Sets (.only "AUTH_RATE_LIMIT_MAX_ATTEMPTS" "4294967296")
        "AUTH_RATE_LIMIT_MAX_ATTEMPTS" 5 s.limitAttempts := by
  have hload : Settings.load (.only "AUTH_RATE_LIMIT_MAX_ATTEMPTS" "4294967296") = .ok _ := rfl
  refine ⟨_, hload, rfl, Limiter.closed_iff.mpr rfl, ?_⟩
  have hwrites : Writes (Text.trim "4294967296") 4294967296 :=
    Number.readInteger_writes (r := .nat64) rfl
  rintro (⟨v, hv, hzero⟩ | ⟨-, hdefault⟩)
  · cases hv
    exact absurd (hzero.unique hwrites) (by decide)
  · exact absurd hdefault (by decide)

end JobFleet
