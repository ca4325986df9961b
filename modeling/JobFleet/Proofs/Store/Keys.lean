import JobFleet.Job.Key
import JobFleet.RateLimit.Key
import JobFleet.Store.Call

/-!
# Families of store keys

The counter of running jobs, the statuses of jobs, the locks and the attempt counters live under
keys that begin with different letters, so no key belongs to two of these families; within a
family, different names have different keys.
-/

namespace JobFleet

/-- A text with a beginning has its first character. -/
theorem head?_append {p : List Char} (x : String) {s t : String} {c : Char}
    (hs : s = t ++ x) (ht : t.toList = c :: p) : s.toList.head? = some c := by
  rw [hs, String.toList_append, ht]
  rfl

/-- Status keys begin with a j. -/
theorem head?_statusKey (k : JobKey) : k.statusKey.toList.head? = some 'j' :=
  head?_append k.text (t := "job:status:") rfl rfl

/-- Lock keys begin with an l. -/
theorem head?_lockKey (name : String) : (lockKey name).toList.head? = some 'l' :=
  head?_append name (t := "lock:") rfl rfl

/-- Limiters' keys begin with an r. -/
theorem head?_counterKey (k : RateLimitKey) : k.counterKey.toList.head? = some 'r' :=
  head?_append k.text (t := "rate_limit:") rfl rfl

/-- The key of the count of jobs begins with a c. -/
theorem head?_jobCounterKey : jobCounterKey.toList.head? = some 'c' := by decide

/-- Texts with different first letters are different. -/
theorem ne_of_head? {s t : String} {c d : Char} (hs : s.toList.head? = some c)
    (ht : t.toList.head? = some d) (h : c ≠ d) : s ≠ t := by
  rintro rfl
  exact h (Option.some.inj (hs.symm.trans ht))

/-- No status is kept under the key of the count of jobs. -/
theorem statusKey_ne_jobCounterKey (k : JobKey) : k.statusKey ≠ jobCounterKey :=
  ne_of_head? (head?_statusKey k) head?_jobCounterKey (by decide)

/-- No lock is kept under the key of the count of jobs. -/
theorem lockKey_ne_jobCounterKey (name : String) : lockKey name ≠ jobCounterKey :=
  ne_of_head? (head?_lockKey name) head?_jobCounterKey (by decide)

/-- No attempts are counted under the key of the count of jobs. -/
theorem counterKey_ne_jobCounterKey (k : RateLimitKey) : k.counterKey ≠ jobCounterKey :=
  ne_of_head? (head?_counterKey k) head?_jobCounterKey (by decide)

/-- No lock is kept under a status key. -/
theorem lockKey_ne_statusKey (name : String) (k : JobKey) : lockKey name ≠ k.statusKey :=
  ne_of_head? (head?_lockKey name) (head?_statusKey k) (by decide)

/-- No attempts are counted under a status key. -/
theorem counterKey_ne_statusKey (k : RateLimitKey) (j : JobKey) : k.counterKey ≠ j.statusKey :=
  ne_of_head? (head?_counterKey k) (head?_statusKey j) (by decide)

/-- No attempts are counted under a lock key. -/
theorem counterKey_ne_lockKey (k : RateLimitKey) (name : String) :
    k.counterKey ≠ lockKey name :=
  ne_of_head? (head?_counterKey k) (head?_lockKey name) (by decide)

/-- What follows a common beginning is told by the whole. -/
theorem append_left_inj {p s t : String} (h : p ++ s = p ++ t) : s = t := by
  have hl := congrArg String.toList h
  rw [String.toList_append, String.toList_append] at hl
  exact String.toList_injective (List.append_cancel_left hl)

/-- Different jobs have their statuses under different keys. -/
theorem statusKey_inj {j k : JobKey} (h : j.statusKey = k.statusKey) : j = k :=
  JobKey.ext (append_left_inj h)

/-- Different keys of attempts have different counters. -/
theorem counterKey_inj {j k : RateLimitKey} (h : j.counterKey = k.counterKey) : j = k := by
  have htext : String.ofList j.chars = String.ofList k.chars := append_left_inj h
  have hchars := congrArg String.toList htext
  rw [String.toList_ofList, String.toList_ofList] at hchars
  cases j
  cases k
  cases hchars
  rfl

/-- Different locks have different keys. -/
theorem lockKey_inj {s t : String} (h : lockKey s = lockKey t) : s = t := append_left_inj h

end JobFleet
