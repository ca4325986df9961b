import JobFleet.Proofs.Fleet.WorldDeeds

/-!
# The turns of a guarded attempt

Every step of a guard is one of a few turns. The check and the record make one call each, the
attempt itself makes none; what the check's call answers decides whether the attempt is started.
-/

namespace JobFleet

open Number (Range)

namespace Limiter

variable (l : Limiter) (k : RateLimitKey) {w : World}

/-- A count of failures that stops at the highest number of 64 bits is over a limit of 32 bits
exactly if the failures are. -/
theorem limits_min (n : Nat) (hword : l.maxAttempts < 0x100000000) :
    l.limits (.ok (min (n : Int) Range.int64.high)) = decide (l.maxAttempts ≤ n) := by
  have hhigh : (l.maxAttempts : Int) ≤ Range.int64.high := by
    have h32 : (0x100000000 : Int) ≤ Range.int64.high := by decide
    omega
  have hiff : (l.maxAttempts : Int) ≤ min (n : Int) Range.int64.high ↔ l.maxAttempts ≤ n := by
    omega
  exact decide_eq_decide.mpr hiff

/-- A check makes one call, whose answer decides. -/
theorem isLimited_spec {a : Except StoreError Int} {u : World}
    (h : w.perform (attempts k) = (a, u)) :
    (l.isLimited k w).1 = l.limits a ∧ u.Via Deed.Aside (l.isLimited k w).2 := by
  unfold isLimited
  rw [h]
  cases a with
  | ok n => exact ⟨rfl, .same⟩
  | error cause => exact ⟨rfl, World.Via.same.log rfl⟩

/-- Counting a failure makes one call. -/
theorem record_via {a : Except StoreError Int} {u : World}
    (h : w.perform (l.recordFailure k) = (a, u)) : u.Via Deed.Aside (l.record k w) := by
  unfold record
  rw [h]
  cases a with
  | ok n =>
      simp only
      split
      · exact World.Via.same.log rfl
      · exact .same
  | error cause => exact World.Via.same.log rfl

/-- Forgetting the failures makes one call. -/
theorem forget_via {a : Except StoreError Unit} {u : World}
    (h : w.perform (reset k) = (a, u)) : u.Via Deed.Aside (forget k w) := by
  unfold forget
  rw [h]
  cases a with
  | ok _ => exact .same
  | error cause => exact World.Via.same.log rfl

end Limiter

namespace Guard

/-- The limiter that a guard asks. -/
def limiterIn (g : Guard) (w : World) : Limiter := (w.limiters.find? g.limiter).getD closedLimiter

/-- The key that a guard counts its attempt under. -/
def key (g : Guard) : Except DomainError RateLimitKey := g.scope.key g.identity g.client

/-- A turn of a guard: how it goes on, and the world afterwards. -/
inductive Turn (g : Guard) (w : World) : Progress Guard Result → World → Prop
  | nameless {cause : DomainError} (hp : g.phase = .checking) (hk : g.key = .error cause) :
      Turn g w (.ended ⟨.error (.refused (.invalidKey cause)), false⟩) w
  | refuses {k : RateLimitKey} {a : Except StoreError Int} {u v : World}
      (hp : g.phase = .checking) (hk : g.key = .ok k)
      (ha : w.perform (Limiter.attempts k) = (a, u)) (hl : (g.limiterIn w).limits a = true)
      (hv : u.Via Deed.Aside v) : Turn g w (.ended ⟨.error (.refused .limited), false⟩) v
  | passes {k : RateLimitKey} {a : Except StoreError Int} {u v : World}
      (hp : g.phase = .checking) (hk : g.key = .ok k)
      (ha : w.perform (Limiter.attempts k) = (a, u)) (hl : (g.limiterIn w).limits a = false)
      (hv : u.Via Deed.Aside v) : Turn g w (.on { g with phase := .admitted k }) v
  | begins {k : RateLimitKey} (hp : g.phase = .admitted k) :
      Turn g w (.on { g with phase := .attempting k }) w
  | finishes {k : RateLimitKey} (hp : g.phase = .attempting k) :
      Turn g w (.on { g with phase := .settling k }) w
  | forgets {k : RateLimitKey} {value : Json.Value} {a : Except StoreError Unit} {u v : World}
      (hp : g.phase = .settling k) (ho : g.outcome = .ok value)
      (ha : w.perform (Limiter.reset k) = (a, u)) (hv : u.Via Deed.Aside v) :
      Turn g w (.ended ⟨.ok value, true⟩) v
  | records {k : RateLimitKey} {fault : String} {a : Except StoreError Int} {u v : World}
      (hp : g.phase = .settling k) (ho : g.outcome = .error fault)
      (ha : w.perform ((g.limiterIn w).recordFailure k) = (a, u)) (hv : u.Via Deed.Aside v) :
      Turn g w (.ended ⟨.error (.rejected fault), true⟩) v

/-- Every step of a guard is one of its turns. -/
theorem step_turn (g : Guard) (w : World) : g.Turn w (g.step w).1 (g.step w).2 := by
  unfold step
  cases hp : g.phase with
  | checking =>
      have hlimiter : (w.limiters.find? g.limiter).getD closedLimiter = g.limiterIn w := rfl
      have hkey : g.scope.key g.identity g.client = g.key := rfl
      simp only [hlimiter, Limiter.check, hkey]
      cases hk : g.key with
      | error cause => exact .nameless hp hk
      | ok k =>
          obtain ⟨ha, hv⟩ := (g.limiterIn w).isLimited_spec k (w := w) rfl
          cases hl : (g.limiterIn w).isLimited k w with
          | mk limited v =>
              rw [hl] at ha hv
              simp only [hl]
              cases limited with
              | true =>
                  exact .refuses hp hk rfl ha.symm
                    (hv.log (e := .rateLimit (.refused g.scope)) rfl)
              | false => exact .passes hp hk rfl ha.symm hv
  | admitted k => exact .begins hp
  | attempting k => exact .finishes hp
  | settling k =>
      simp only
      cases ho : g.outcome with
      | ok value => exact .forgets hp ho rfl (Limiter.forget_via k rfl)
      | error fault => exact .records hp ho rfl ((g.limiterIn w).record_via k rfl)

end Guard

end JobFleet
