import JobFleet.Fleet.World

/-!
# Checking, counting and guarding attempts

A check is one call on the store, and so is counting a failure and forgetting the failures. A
call that fails is logged; a check then follows the limiter's policy, the others do nothing.
-/

namespace JobFleet

namespace Limiter

/-- Whether a key is limited. -/
def isLimited (l : Limiter) (k : RateLimitKey) (w : World) : Bool × World :=
  let (answer, w) := w.perform (attempts k)
  let limited := l.limits answer
  match answer with
  | .ok _ => (limited, w)
  | .error cause => (limited, w.log (.rateLimit (.checkFailed k l.policy limited cause)))

/-- Counts a failure and tells when the limit is reached. -/
def record (l : Limiter) (k : RateLimitKey) (w : World) : World :=
  match w.perform (l.recordFailure k) with
  | (.ok n, w) => if l.exceeds n then w.log (.rateLimit (.reached k n)) else w
  | (.error cause, w) => w.log (.rateLimit (.unrecorded k cause))

/-- Forgets the failures. -/
def forget (k : RateLimitKey) (w : World) : World :=
  match w.perform (reset k) with
  | (.ok _, w) => w
  | (.error cause, w) => w.log (.rateLimit (.unreset k cause))

/-- Checks an attempt: the key to count it under, or why it is refused. -/
def check (l : Limiter) (scope : AuthScope) (identity : String) (client : Option String)
    (w : World) : Except LimitError RateLimitKey × World :=
  match scope.key identity client with
  | .error cause => (.error (.invalidKey cause), w)
  | .ok key =>
      match l.isLimited key w with
      | (true, w) => (.error .limited, w.log (.rateLimit (.refused scope)))
      | (false, w) => (.ok key, w)

end Limiter

namespace Guard

/-- What a guard does when its limiter's name is nobody's: a limit of zero that fails closed. -/
def closedLimiter : Limiter := ⟨0, .zero, .failClosed⟩

/-- One step of a guarded attempt. -/
def step (g : Guard) (w : World) : Progress Guard Result × World :=
  let l := (w.limiters.find? g.limiter).getD closedLimiter
  match g.phase with
  | .checking =>
      match l.check g.scope g.identity g.client w with
      | (.ok key, w) => (.on { g with phase := .admitted key }, w)
      | (.error cause, w) => (.ended ⟨.error (.refused cause), false⟩, w)
  | .admitted key => (.on { g with phase := .attempting key }, w)
  | .attempting key => (.on { g with phase := .settling key }, w)
  | .settling key =>
      match g.outcome with
      | .ok v => (.ended ⟨.ok v, true⟩, Limiter.forget key w)
      | .error fault => (.ended ⟨.error (.rejected fault), true⟩, l.record key w)

end Guard

end JobFleet
