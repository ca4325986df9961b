import JobFleet.Duration
import JobFleet.Store.Error

/-!
# Calls on the store

The thirteen calls by which every member of the fleet shares state, each typed by what it
answers. Lock calls take the bare name of a lock; all others take a store key.
-/

namespace JobFleet

/-- What a call answers: nothing, a text that may be absent, a truth value or a count. -/
inductive Answer
  | nothing
  | text
  | flag
  | count
deriving DecidableEq, Repr

/-- The values of a kind of answer. -/
abbrev Answer.Value : Answer → Type
  | .nothing => Unit
  | .text => Option String
  | .flag => Bool
  | .count => Int

/-- A call on the store. -/
inductive Call : Answer → Type
  | ping : Call .nothing
  | get (key : String) : Call .text
  | set (key value : String) (ttl : Option Duration) : Call .nothing
  | setIfAbsent (key value : String) (ttl : Option Duration) : Call .flag
  | replace (key expected value : String) (ttl : Option Duration) : Call .flag
  | delete (key : String) : Call .nothing
  | increment (key : String) (ttl : Option Duration) : Call .count
  | decrement (key : String) : Call .count
  | counter (key : String) : Call .count
  | incrementIfBelow (key : String) (ceiling : Int) : Call .flag
  | acquireLock (name token : String) (ttl : Duration) : Call .flag
  | releaseLock (name token : String) : Call .flag
  | extendLock (name token : String) (ttl : Duration) : Call .flag
deriving DecidableEq, Repr

/-- A call of any kind. -/
abbrev AnyCall : Type := (a : Answer) × Call a

/-- The names of the calls. -/
inductive Method
  | ping | get | set | setIfAbsent | replace | delete | increment | decrement | counter
  | incrementIfBelow | acquireLock | releaseLock | extendLock
deriving DecidableEq, Repr

/-- The name of a call. -/
def Call.method {a : Answer} : Call a → Method
  | .ping => .ping
  | .get .. => .get
  | .set .. => .set
  | .setIfAbsent .. => .setIfAbsent
  | .replace .. => .replace
  | .delete .. => .delete
  | .increment .. => .increment
  | .decrement .. => .decrement
  | .counter .. => .counter
  | .incrementIfBelow .. => .incrementIfBelow
  | .acquireLock .. => .acquireLock
  | .releaseLock .. => .releaseLock
  | .extendLock .. => .extendLock

/-- The store key of a lock. -/
def lockKey (name : String) : String := "lock:" ++ name

/-- The store key of the fleet's count of running jobs. -/
def jobCounterKey : String := "counter:global_jobs"

/-- The store key that a call is about. -/
def Call.key? {a : Answer} : Call a → Option String
  | .ping => none
  | .get key => some key
  | .set key _ _ => some key
  | .setIfAbsent key _ _ => some key
  | .replace key _ _ _ => some key
  | .delete key => some key
  | .increment key _ => some key
  | .decrement key => some key
  | .counter key => some key
  | .incrementIfBelow key _ => some key
  | .acquireLock name _ _ => some (lockKey name)
  | .releaseLock name _ => some (lockKey name)
  | .extendLock name _ _ => some (lockKey name)

end JobFleet
