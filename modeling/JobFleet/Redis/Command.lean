import JobFleet.Store.Call
import JobFleet.Number.Integer

/-!
# The store's calls as Redis commands

Each call is one command or one run of a script, so that the server carries it out in one step.
Times to live are whole seconds; a script is given zero for none.
-/

namespace JobFleet.Redis

/-- The scripts that compound calls run. -/
inductive Script
  | compareAndSet
  | incrementWithTtl
  | incrementIfBelow
  | releaseIfOwner
  | extendIfOwner
deriving DecidableEq, Repr

/-- The name of a script. -/
def Script.name : Script → String
  | .compareAndSet => "compare_and_set"
  | .incrementWithTtl => "increment_with_ttl"
  | .incrementIfBelow => "increment_if_below"
  | .releaseIfOwner => "release_if_owner"
  | .extendIfOwner => "extend_if_owner"

/-- What is sent to the server. -/
inductive Command
  | words (args : List String)
  | run (script : Script) (key : String) (args : List String)
deriving DecidableEq, Repr

/-- A time to live as the words that end a write. -/
def expiryWords (ttl : Option Duration) : List String :=
  match ttl with
  | some d => ["EX", Number.showInteger d.ttlSecs]
  | none => []

/-- A time to live as an argument of a script. -/
def expiryArg (ttl : Option Duration) : String :=
  Number.showInteger ((ttl.map Duration.ttlSecs).getD 0 : Nat)

/-- The command of a call. -/
def Command.ofCall : {a : Answer} → Call a → Command
  | _, .ping => .words ["PING"]
  | _, .get key => .words ["GET", key]
  | _, .set key value ttl => .words (["SET", key, value] ++ expiryWords ttl)
  | _, .setIfAbsent key value ttl => .words (["SET", key, value, "NX"] ++ expiryWords ttl)
  | _, .replace key expected value ttl =>
      .run .compareAndSet key [expected, value, expiryArg ttl]
  | _, .delete key => .words ["DEL", key]
  | _, .increment key ttl => .run .incrementWithTtl key [expiryArg ttl]
  | _, .decrement key => .words ["DECR", key]
  | _, .counter key => .words ["GET", key]
  | _, .incrementIfBelow key ceiling =>
      .run .incrementIfBelow key [Number.showInteger ceiling]
  | _, .acquireLock name token ttl =>
      .words (["SET", lockKey name, token, "NX"] ++ expiryWords (some ttl))
  | _, .releaseLock name token => .run .releaseIfOwner (lockKey name) [token]
  | _, .extendLock name token ttl =>
      .run .extendIfOwner (lockKey name) [token, Number.showInteger ttl.ttlSecs]

end JobFleet.Redis
