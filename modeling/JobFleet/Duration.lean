/-!
# Durations and instants

A duration is an exact count of nanoseconds that fits 64 bits of whole seconds; sums and
products stop at the largest one. An instant is a natural number: the nanoseconds since the
fleet's clock started, which is taken to be the start of the machine's clock too. Times to live
are kept in whole seconds, rounded up and never zero. Timers ring at whole milliseconds, never
early as long as their instants are among those that timers can be set to.

The machine's clock tells instants up to `Clock.horizon` alone. Expiries are sums of natural
numbers here and may lie beyond it; `Clock.told` says that one does not, and results that need it
assume it.
-/

namespace JobFleet

/-- The longest duration: 2^64 seconds less one nanosecond. -/
def maxNanos : Nat := 0x10000000000000000 * 1000000000 - 1

/-- An exact, bounded count of nanoseconds. -/
structure Duration where
  nanos : Nat
  nanos_le : nanos ≤ maxNanos
deriving DecidableEq, Repr

namespace Duration

@[ext] theorem ext {a b : Duration} (h : a.nanos = b.nanos) : a = b := by
  cases a; cases b; cases h; rfl

/-- A count of nanoseconds, held at the longest duration. -/
def ofNanos (n : Nat) : Duration := ⟨min n maxNanos, Nat.min_le_right n maxNanos⟩

@[simp] theorem nanos_ofNanos (n : Nat) : (ofNanos n).nanos = min n maxNanos := rfl

/-- A count of milliseconds, held at the longest duration. -/
def ofMillis (n : Nat) : Duration := ofNanos (n * 1000000)

/-- A count of seconds, held at the longest duration. -/
def ofSecs (n : Nat) : Duration := ofNanos (n * 1000000000)

/-- Seconds and nanoseconds together, where nanoseconds past a second carry; nothing if the
seconds then exceed 64 bits. -/
def ofParts? (secs nanos : Nat) : Option Duration :=
  let total := secs * 1000000000 + nanos
  if h : total ≤ maxNanos then some ⟨total, h⟩ else none

/-- The duration of no length. -/
def zero : Duration := ⟨0, Nat.zero_le _⟩

instance : Inhabited Duration := ⟨zero⟩

instance : LE Duration := ⟨fun a b => a.nanos ≤ b.nanos⟩

instance (a b : Duration) : Decidable (a ≤ b) := Nat.decLe a.nanos b.nanos

theorem le_iff {a b : Duration} : a ≤ b ↔ a.nanos ≤ b.nanos := Iff.rfl

/-- The whole seconds. -/
def secs (d : Duration) : Nat := d.nanos / 1000000000

/-- The nanoseconds past the last whole second. -/
def subsecNanos (d : Duration) : Nat := d.nanos % 1000000000

/-- The whole milliseconds. -/
def millis (d : Duration) : Nat := d.nanos / 1000000

/-- A duration held at a limit. -/
def capped (d limit : Duration) : Duration := if d ≤ limit then d else limit

@[simp] theorem nanos_capped (d limit : Duration) :
    (d.capped limit).nanos = min d.nanos limit.nanos := by
  unfold capped
  split
  · rename_i h; exact (Nat.min_eq_left (le_iff.mp h)).symm
  · rename_i h
    exact (Nat.min_eq_right (Nat.le_of_lt (Nat.lt_of_not_le fun e => h (le_iff.mpr e)))).symm

/-- A whole multiple, held at the longest duration. -/
def scale (d : Duration) (k : Nat) : Duration := ofNanos (d.nanos * k)

@[simp] theorem nanos_scale (d : Duration) (k : Nat) :
    (d.scale k).nanos = min (d.nanos * k) maxNanos := rfl

/-- Half the duration, rounded down to a nanosecond. -/
def half (d : Duration) : Duration :=
  ⟨d.nanos / 2, Nat.le_trans (Nat.div_le_self _ _) d.nanos_le⟩

@[simp] theorem nanos_half (d : Duration) : d.half.nanos = d.nanos / 2 := rfl

/-- Whole seconds, rounded up and never below one: the resolution of times to live. -/
def ttlSecs (d : Duration) : Nat :=
  max 1 (d.secs + if d.subsecNanos = 0 then 0 else 1)

/-- A TTL is told as one second at the least. -/
theorem one_le_ttlSecs (d : Duration) : 1 ≤ d.ttlSecs := Nat.le_max_left _ _

/-- A time to live rounds up to whole seconds. -/
theorem ttlSecs_eq (d : Duration) :
    d.ttlSecs = max 1 ((d.nanos + 999999999) / 1000000000) := by
  unfold ttlSecs secs subsecNanos
  split <;> congr 1 <;> omega

/-- A time to live never falls short of the duration it stands for. -/
theorem nanos_le_ttlSecs (d : Duration) : d.nanos ≤ d.ttlSecs * 1000000000 := by
  have h := Nat.le_max_right 1 (d.secs + if d.subsecNanos = 0 then 0 else 1)
  have hd : d.nanos = 1000000000 * d.secs + d.subsecNanos :=
    (Nat.div_add_mod d.nanos 1000000000).symm
  have hl : d.subsecNanos < 1000000000 := Nat.mod_lt _ (by decide)
  unfold ttlSecs
  split at h <;> rename_i hs <;> simp only [hs, if_true, if_false] at * <;> omega

end Duration

namespace Clock

/-- The instant a number of milliseconds after the start. -/
def ofMillis (n : Nat) : Nat := n * 1000000

/-- The whole milliseconds from the start to an instant. -/
def millis (t : Nat) : Nat := t / 1000000

/-- The instant at which something written now with a time to live is gone. -/
def expiry (now : Nat) (ttl : Duration) : Nat := now + ttl.ttlSecs * 1000000000

/-- The first instant that the machine's clock does not tell: it counts seconds in 63 bits. -/
def horizon : Nat := 0x8000000000000000 * 1000000000

/-- Whether the machine's clock tells an instant. -/
def told (t : Nat) : Bool := t < horizon

/-- Thirty years: how far ahead a timer is set whose own instant is not told. -/
def farAway : Nat := 946080000 * 1000000000

/-- The last instant that a timer can be set to: the milliseconds are counted in 64 bits, of which
the two largest counts mean something else. -/
def lastAlarm : Nat := 0xfffffffffffffffd * 1000000

/-- The first whole millisecond that is not before an instant. -/
def wholeMilli (t : Nat) : Nat := (t + 999999) / 1000000 * 1000000

/-- The instant at which a timer rings that is set for longer than timers can be set for: the last
one to which it can be set, or one that is far away if its own is not told. -/
def lateAlarm (now : Nat) (d : Duration) : Nat :=
  if told (now + d.nanos) then lastAlarm
  else min (wholeMilli (now + min d.nanos farAway)) lastAlarm

/-- The instant at which a timer set now for a duration rings: the first whole millisecond that
is not early, if it can be set to it. -/
def alarm (now : Nat) (d : Duration) : Nat :=
  if now + d.nanos ≤ lastAlarm then wholeMilli (now + d.nanos) else max now (lateAlarm now d)

/-- An alarm goes off no earlier than it is set. -/
theorem now_le_alarm (now : Nat) (d : Duration) : now ≤ alarm now d := by
  unfold alarm
  split
  · unfold wholeMilli
    omega
  · exact Nat.le_max_left _ _

/-- A timer never rings a millisecond late. -/
theorem alarm_lt (now : Nat) (d : Duration) : alarm now d < now + d.nanos + 1000000 := by
  unfold alarm lateAlarm wholeMilli
  split
  · omega
  · split <;> omega

/-- A timer rings at the first whole millisecond that is not early, if it can be set to it. -/
theorem alarm_eq {now : Nat} {d : Duration} (h : now + d.nanos ≤ lastAlarm) :
    alarm now d = (now + d.nanos + 999999) / 1000000 * 1000000 := by
  rw [alarm, if_pos h, wholeMilli]

/-- What is stored now lives a while yet. -/
theorem lt_expiry (now : Nat) (ttl : Duration) : now < expiry now ttl := by
  have h := ttl.one_le_ttlSecs
  unfold expiry; omega

end Clock

end JobFleet
