import JobFleet.Store.Call
import JobFleet.WorkerId

/-!
# Leases on names

A lock is a lease on a name: whoever writes its own token under the name's key holds it until
the time to live is over. Extending and releasing compare the token in the same step, so that a
holder whose lease ran out can touch neither the lock nor the peer that took it.
-/

namespace JobFleet

/-- A claim on a name by an owner. -/
structure Lock where
  name : String
  token : String
  ttl : Duration
deriving DecidableEq, Repr

namespace Lock

/-- A lock owned by a fresh identity. -/
def new (owner : WorkerId) (name : String) (ttl : Duration) : Lock := ⟨name, owner.token, ttl⟩

/-- How long a holder waits between extensions: half the time to live. -/
def renewInterval (l : Lock) : Duration := l.ttl.half

/-- Takes the lock if nobody holds it. -/
def acquire (l : Lock) : Call .flag := .acquireLock l.name l.token l.ttl

/-- Gives the lock back if this owner still holds it. -/
def release (l : Lock) : Call .flag := .releaseLock l.name l.token

/-- Starts the time to live anew if this owner still holds the lock. -/
def extend (l : Lock) : Call .flag := .extendLock l.name l.token l.ttl

end Lock

end JobFleet
