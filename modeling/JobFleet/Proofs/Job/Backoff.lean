import JobFleet.Job.Retry

/-!
# How exact delays are

The delay after a failure is compared with the one that its strategy asks for, counted without a
bound: a multiple of the base delay, held at the longest delay. Multiples of durations stop at a
duration that no longest delay exceeds, so nothing is lost there. The doubling factor stops at
`2 ^ 32 - 1`: a delay that doubles falls short from the 33rd failure on, unless it has reached the
longest one by then.
-/

namespace JobFleet.RetryPolicy

/-- The multiple of the base delay that a strategy asks for after a failure, counted from one. -/
def multiple : BackoffStrategy → Nat → Nat
  | .fixed, _ => 1
  | .linear, n => n
  | .exponential, n => Nat.pow 2 (n - 1)

/-- The nanoseconds that a policy asks for after a failure. -/
def askedNanos (p : RetryPolicy) (n : Nat) : Nat :=
  min (p.baseDelay.nanos * multiple p.strategy n) p.maxDelay.nanos

/-! ## Factors -/

/-- Powers of two grow. -/
theorem pow_two_le_pow {m n : Nat} (h : m ≤ n) : Nat.pow 2 m ≤ Nat.pow 2 n :=
  Nat.pow_le_pow_right (by decide) h

/-- The factor grows with the attempt. -/
theorem doubling_mono {m n : Nat} (h : m ≤ n) : doubling m ≤ doubling n := by
  unfold doubling
  split
  · rename_i hm
    split
    · exact pow_two_le_pow h
    · have hmost : Nat.pow 2 m ≤ Nat.pow 2 31 := pow_two_le_pow (Nat.le_of_lt_succ hm)
      exact Nat.le_trans hmost (by decide)
  · rename_i hm
    exact Nat.le_of_eq (if_neg (by omega)).symm

/-- Later failures have no smaller factor. -/
theorem factor_mono (s : BackoffStrategy) {m n : Nat} (h : m ≤ n) : factor s m ≤ factor s n := by
  cases s with
  | fixed => exact Nat.le_refl 1
  | linear => exact h
  | exponential => exact doubling_mono (Nat.sub_le_sub_right h 1)

/-- The factor is the multiple that is asked for, unless doubling has stopped. -/
theorem factor_eq_multiple {s : BackoffStrategy} {n : Nat} (h : s = .exponential → n ≤ 32) :
    factor s n = multiple s n := by
  cases s with
  | fixed => rfl
  | linear => rfl
  | exponential =>
      have hn : n ≤ 32 := h rfl
      exact if_pos (by omega)

/-- Where doubling has stopped, more is asked for. -/
theorem factor_lt_multiple {n : Nat} (h : 32 < n) :
    factor .exponential n = maxCount ∧ maxCount < multiple .exponential n := by
  refine ⟨if_neg (by omega), ?_⟩
  have hmore : Nat.pow 2 32 ≤ Nat.pow 2 (n - 1) := pow_two_le_pow (by omega)
  exact Nat.lt_of_lt_of_le (by decide) hmore

/-! ## Delays -/

/-- No longest delay exceeds the longest duration, so the bound of durations is not felt. -/
theorem nanos_delayAfter (p : RetryPolicy) {n : Nat} (h : 1 ≤ n) :
    (p.delayAfter n).nanos = min (p.baseDelay.nanos * factor p.strategy n) p.maxDelay.nanos := by
  have hne : ¬ n = 0 := by omega
  have hmost := p.maxDelay.nanos_le
  rw [delayAfter, if_neg hne, Duration.nanos_capped, Duration.nanos_scale]
  omega

/-- Delays never become shorter. -/
theorem delayAfter_mono (p : RetryPolicy) {m n : Nat} (h : m ≤ n) :
    p.delayAfter m ≤ p.delayAfter n := by
  rcases Nat.eq_zero_or_pos m with rfl | hm
  · exact Nat.zero_le _
  · have hfactor : p.baseDelay.nanos * factor p.strategy m ≤
        p.baseDelay.nanos * factor p.strategy n :=
      Nat.mul_le_mul_left _ (factor_mono p.strategy h)
    rw [Duration.le_iff, p.nanos_delayAfter hm, p.nanos_delayAfter (Nat.le_trans hm h)]
    omega

/-- A factor below what is asked for makes no difference only to nothing, or above the longest
delay. -/
theorem min_mul_eq_iff {base most f g : Nat} (h : f < g) :
    min (base * f) most = min (base * g) most ↔ base = 0 ∨ most ≤ base * f := by
  rcases Nat.eq_zero_or_pos base with rfl | hbase
  · simp
  · have hlt : base * f < base * g := Nat.mul_lt_mul_of_pos_left h hbase
    omega

/-- Whether doubling goes far enough for a failure: it has not stopped there, or the longest delay
has been reached before, or there is nothing to double. -/
def Doubles (p : RetryPolicy) (n : Nat) : Prop :=
  n ≤ 32 ∨ p.baseDelay.nanos = 0 ∨ p.maxDelay.nanos ≤ p.baseDelay.nanos * maxCount

/-- The delay is the one asked for exactly where the factor doubles. -/
theorem nanos_delayAfter_eq_iff (p : RetryPolicy) {n : Nat} (h : 1 ≤ n) :
    (p.delayAfter n).nanos = p.askedNanos n ↔ (p.strategy = .exponential → p.Doubles n) := by
  rw [p.nanos_delayAfter h, askedNanos]
  by_cases hexact : p.strategy = .exponential → n ≤ 32
  · rw [factor_eq_multiple hexact]
    exact ⟨fun _ hs => .inl (hexact hs), fun _ => rfl⟩
  · obtain ⟨hs, hn⟩ := Classical.not_imp.mp hexact
    obtain ⟨hfactor, hless⟩ := factor_lt_multiple (Nat.lt_of_not_le hn)
    rw [hs, hfactor, min_mul_eq_iff hless]
    constructor
    · exact fun h _ => .inr h
    · exact fun h => (h rfl).resolve_left hn

/-- The delay after a failure is the one that the policy asks for, counted without a bound, exactly
if the policy does not double its delays or doubling goes far enough. No delay is shorter than one
before or above the longest one, and doubled delays that are to reach the longest one do so exactly
if doubling goes far enough. -/
theorem delay_exact_iff (p : RetryPolicy) {n : Nat} (h : 1 ≤ n) :
    ((p.delayAfter n).nanos = p.askedNanos n ↔ (p.strategy = .exponential → p.Doubles n)) ∧
      (∀ m, n ≤ m → p.delayAfter n ≤ p.delayAfter m) ∧ p.delayAfter n ≤ p.maxDelay ∧
      (p.strategy = .exponential → p.maxDelay.nanos ≤ p.baseDelay.nanos * Nat.pow 2 (n - 1) →
        (p.delayAfter n = p.maxDelay ↔ p.Doubles n)) := by
  refine ⟨p.nanos_delayAfter_eq_iff h, fun m hm => p.delayAfter_mono hm, p.delayAfter_le n, ?_⟩
  intro hs hreach
  have hasked : p.askedNanos n = p.maxDelay.nanos := by
    rw [askedNanos, hs]
    exact Nat.min_eq_right hreach
  have hiff := p.nanos_delayAfter_eq_iff h
  rw [hasked] at hiff
  constructor
  · intro he
    exact hiff.mp (congrArg Duration.nanos he) hs
  · intro hd
    exact Duration.ext (hiff.mpr fun _ => hd)

/-- Doubled from a tenth of a second, the third delay is held at three tenths. -/
theorem delay_exact_iff_third :
    let p : RetryPolicy := ⟨3, .ofMillis 100, .ofMillis 300, .exponential⟩
    (p.delayAfter 3).nanos = p.askedNanos 3 ∧ p.delayAfter 3 = p.maxDelay := by
  intro p
  obtain ⟨hexact, -, -, hreaches⟩ := p.delay_exact_iff (n := 3) (by decide)
  have hdoubles : p.Doubles 3 := .inl (by decide)
  exact ⟨hexact.mpr fun _ => hdoubles, (hreaches rfl (by decide)).mpr hdoubles⟩

/-- Doubled from a nanosecond, the delay after the 33rd failure is a nanosecond short of what is
asked for, and no later delay is longer: the longest one, an hour, is asked for after the 43rd
failure and never reached. -/
theorem delay_stops_doubling :
    let p : RetryPolicy := ⟨64, .ofNanos 1, .ofSecs 3600, .exponential⟩
    (p.delayAfter 33).nanos = 4294967295 ∧ p.askedNanos 33 = 4294967296 ∧
      p.askedNanos 43 = p.maxDelay.nanos ∧
      (p.delayAfter maxCount).nanos = 4294967295 ∧ p.delayAfter maxCount ≠ p.maxDelay := by
  decide +kernel

end JobFleet.RetryPolicy
