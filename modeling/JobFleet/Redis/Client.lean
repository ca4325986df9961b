import JobFleet.Redis.Command

/-!
# A client of a Redis server

The client opens one connection when it first needs one and keeps it until a command is lost on
it; the next call opens another. A reply is read as what the call answers: a refused command or
a reply of another shape is a fault of the command, a lost one a fault of the connection.
-/

namespace JobFleet.Redis

/-- What a server replies to a command. -/
inductive Reply
  | status (s : String)
  | bulk (s : String)
  | integer (n : Int)
  | nil
  | refused (message : String)
  | lost
deriving DecidableEq, Repr

/-- A reply of another shape than the call needs. -/
def unexpected : StoreError := .command "Response was of incompatible type"

/-- Reads a reply as a text that may be absent. -/
def Reply.text : Reply → Except StoreError (Option String)
  | .status s => .ok (some s)
  | .bulk s => .ok (some s)
  | .integer n => .ok (some (Number.showInteger n))
  | .nil => .ok none
  | .refused message => .error (.command message)
  | .lost => .error (.connection "broken pipe")

/-- Reads a reply as a number. -/
def Reply.number : Reply → Except StoreError Int
  | .integer n => .ok n
  | .status s | .bulk s =>
      match Number.readInteger .int64 s with
      | .ok n => .ok n
      | .error _ => .error unexpected
  | .nil => .error unexpected
  | .refused message => .error (.command message)
  | .lost => .error (.connection "broken pipe")

/-- Reads a reply as what a call answers. -/
def Reply.answer (r : Reply) : {a : Answer} → Call a → Except StoreError a.Value
  | _, .ping => do
      match ← r.text with
      | some _ => return ()
      | none => .error unexpected
  | _, .get _ => r.text
  | _, .set .. => do
      let _ ← r.text
      return ()
  | _, .setIfAbsent .. => return (← r.text).isSome
  | _, .replace .. => return (← r.number) = 1
  | _, .delete _ => do
      let _ ← r.number
      return ()
  | _, .increment .. => r.number
  | _, .decrement _ => r.number
  | _, .counter key => do
      match ← r.text with
      | none => return 0
      | some raw =>
          match Number.readInteger .int64 raw with
          | .ok n => return n
          | .error _ => .error (.notInteger key)
  | _, .incrementIfBelow .. => return (← r.number) = 1
  | _, .acquireLock .. => return (← r.text).isSome
  | _, .releaseLock .. => return (← r.number) = 1
  | _, .extendLock .. => return (← r.number) = 1

/-- A client: whether it has a connection, and how many it has opened. -/
structure Client where
  connected : Bool
  connects : Nat
deriving DecidableEq, Repr

/-- A client that has not been used. -/
def Client.fresh : Client := ⟨false, 0⟩

/-- Opens a connection unless there is one; a server that does not listen refuses it. -/
def Client.connect (c : Client) (listening : Bool) : Except StoreError Client :=
  if c.connected then .ok c
  else if listening then .ok ⟨true, c.connects + 1⟩
  else .error (.connection "Connection refused (os error 111)")

/-- What came of a call: the answer, the commands sent, and the client afterwards. -/
structure Exchange (a : Answer) where
  answer : Except StoreError a.Value
  commands : List Command
  client : Client

/-- Makes a call, given whether the server listens and what it replies. -/
def Client.call {a : Answer} (c : Client) (listening : Bool) (reply : Reply) (call : Call a) :
    Exchange a :=
  match c.connect listening with
  | .error e => ⟨.error e, [], c⟩
  | .ok open' =>
      let client := if reply = .lost then { open' with connected := false } else open'
      ⟨reply.answer call, [Command.ofCall call], client⟩

end JobFleet.Redis
