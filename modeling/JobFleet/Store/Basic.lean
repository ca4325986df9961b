import JobFleet.Number.Integer
import JobFleet.Store.Call
import JobFleet.Table

/-!
# The shared store

A map from keys to texts, where a key may have an instant from which it is gone. Each call
first drops what is gone and then acts in one step; a call that fails changes nothing that can
be seen. An increment gives a new key its time to live and never moves that of an old one.

A call overflows if it would write an expiry that the clock does not tell, or a count beyond 64
bits. The program breaks off in such a call (a count wraps instead where sums are not checked), and
every call after it is refused; `Store.ask` says what a caller gets. The fleet's world goes on with
`Store.apply`, which answers as if there were no bounds and keeps in `poisoned` that a call has
overflowed: as long as none has, the two are the same.
-/

namespace JobFleet

/-- A stored text and the instant from which it is gone, if there is one. -/
structure Entry where
  value : String
  expires : Option Nat
deriving DecidableEq, Repr

/-- Whether an entry is still there at an instant. -/
def Entry.live (now : Nat) (e : Entry) : Bool :=
  match e.expires with
  | some t => now < t
  | none => true

/-- The instant at which something written now is gone, if it has a time to live. -/
def expiryOf (now : Nat) (ttl : Option Duration) : Option Nat := ttl.map (Clock.expiry now)

/-- The store: its entries, whether it can be reached, and whether a call has overflowed. -/
structure Store where
  entries : Table String Entry
  available : Bool
  poisoned : Bool

namespace Store

/-- A store that can be reached and holds nothing. -/
def empty : Store := ⟨∅, true, false⟩

instance : Inhabited Store := ⟨empty⟩

/-- What a key holds at an instant. -/
def entryAt (s : Store) (now : Nat) (key : String) : Option Entry :=
  (s.entries.find? key).filter (Entry.live now)

/-- The entries that are there at an instant, in order of first arrival. -/
def liveEntries (s : Store) (now : Nat) : List (String × Entry) :=
  s.entries.entries.filter fun e => e.2.live now

/-- The number of keys at an instant. -/
def size (s : Store) (now : Nat) : Nat := (s.liveEntries now).length

/-- The time that a key has left, if it is there and will go. -/
def remaining (s : Store) (now : Nat) (key : String) : Option Nat :=
  (s.entryAt now key).bind fun e => e.expires.map (· - now)

/-- Drops the entries that are gone. -/
def purge (s : Store) (now : Nat) : Store :=
  { s with entries := s.entries.filter fun _ e => e.live now }

/-- Writes an entry. -/
def write (s : Store) (key : String) (e : Entry) : Store :=
  { s with entries := s.entries.insert key e }

/-- Removes a key. -/
def remove (s : Store) (key : String) : Store := { s with entries := s.entries.erase key }

/-- The number that an entry's text writes. -/
def Entry.count (key : String) (e : Entry) : Except StoreError Int :=
  match Number.readInteger .int64 e.value with
  | .ok n => .ok n
  | .error _ => .error (.notInteger key)

/-- The entry of a key with another number in it. -/
def Entry.recount (e : Entry) (n : Int) : Entry := { e with value := Number.showInteger n }

/-- Whether an expiry is not told by the clock. -/
def untold (now : Nat) (ttl : Option Duration) : Bool :=
  (expiryOf now ttl).any fun t => !Clock.told t

/-- Whether a sum with what a key holds leaves 64 bits. -/
def Entry.leavesWord (key : String) (e : Entry) (step : Int) : Bool :=
  match Entry.count key e with
  | .ok n => !Number.Range.int64.holds (n + step)
  | .error _ => false

/-- Adds to a counter of the store and answers its new value, held in 64 bits; a new counter
starts from zero. -/
def add (s : Store) (key : String) (step : Int) (expires : Option Nat) :
    Except StoreError (Int × Store) :=
  match s.entries.find? key with
  | some e => do
      let n ← Entry.count key e
      let next := Number.Range.int64.clamp (n + step)
      return (next, s.write key (Entry.recount e next))
  | none => .ok (step, s.write key ⟨Number.showInteger step, expires⟩)

/-- Writes an entry if the key is absent and answers whether it did. -/
def putIfAbsent (s : Store) (key : String) (e : Entry) : Bool × Store :=
  if s.entries.contains key then (false, s) else (true, s.write key e)

/-- Whether a key holds a given text. -/
def holds (s : Store) (key value : String) : Bool :=
  match s.entries.find? key with
  | some e => e.value = value
  | none => false

/-- The effect of a call on a store from which everything gone has been dropped. -/
def act (s : Store) (now : Nat) : {a : Answer} → Call a → Except StoreError (a.Value × Store)
  | _, .ping => .ok ((), s)
  | _, .get key => .ok ((s.entries.find? key).map Entry.value, s)
  | _, .set key value ttl => .ok ((), s.write key ⟨value, expiryOf now ttl⟩)
  | _, .setIfAbsent key value ttl => .ok (s.putIfAbsent key ⟨value, expiryOf now ttl⟩)
  | _, .replace key expected value ttl =>
      if s.holds key expected then .ok (true, s.write key ⟨value, expiryOf now ttl⟩)
      else .ok (false, s)
  | _, .delete key => .ok ((), s.remove key)
  | _, .increment key ttl => s.add key 1 (expiryOf now ttl)
  | _, .decrement key => s.add key (-1) none
  | _, .counter key =>
      match s.entries.find? key with
      | some e => (Entry.count key e).map fun n => (n, s)
      | none => .ok (0, s)
  | _, .incrementIfBelow key ceiling => do
      let old := s.entries.find? key
      let n ← match old with
        | some e => Entry.count key e
        | none => .ok 0
      if ceiling ≤ n then return (false, s)
      else return (true, s.write key ⟨Number.showInteger (n + 1), old.bind Entry.expires⟩)
  | _, .acquireLock name token ttl =>
      .ok (s.putIfAbsent (lockKey name) ⟨token, some (Clock.expiry now ttl)⟩)
  | _, .releaseLock name token =>
      if s.holds (lockKey name) token then .ok (true, s.remove (lockKey name))
      else .ok (false, s)
  | _, .extendLock name token ttl =>
      if s.holds (lockKey name) token then
        .ok (true, s.write (lockKey name) ⟨token, some (Clock.expiry now ttl)⟩)
      else .ok (false, s)

/-- What the key of a call holds when it is made. -/
def heldBy {a : Answer} (s : Store) (now : Nat) (c : Call a) : Option Entry :=
  c.key?.bind (s.entryAt now)

end Store

open Store in
/-- Whether a call overflows, given what its key holds: an expiry that it writes is not told by the
clock, or a count that it adds to leaves 64 bits. -/
def Call.overflows (now : Nat) (held : Option Entry) : {a : Answer} → Call a → Bool
  | _, .set _ _ ttl => untold now ttl
  | _, .setIfAbsent _ _ ttl => held.isNone && untold now ttl
  | _, .replace _ expected _ ttl => held.any (·.value = expected) && untold now ttl
  | _, .increment key ttl =>
      match held with
      | some e => Entry.leavesWord key e 1
      | none => untold now ttl
  | _, .decrement key => held.any fun e => Entry.leavesWord key e (-1)
  | _, .acquireLock _ _ ttl => held.isNone && untold now (some ttl)
  | _, .extendLock _ token ttl => held.any (·.value = token) && untold now (some ttl)
  | _, _ => false

namespace Store

/-- Whether a call overflows on a store. -/
def overflows {a : Answer} (s : Store) (now : Nat) (c : Call a) : Bool :=
  s.available && c.overflows now (s.heldBy now c)

/-- The store once a call may have overflowed. -/
def strained (s : Store) (overflow : Bool) : Store :=
  { s with poisoned := s.poisoned || overflow }

/-- Makes a call at an instant: what it answers and the store afterwards. -/
def apply {a : Answer} (s : Store) (now : Nat) (c : Call a) :
    Except StoreError a.Value × Store :=
  if s.available then
    match (s.purge now).act now c with
    | .ok (v, t) => (.ok v, t.strained (s.overflows now c))
    | .error e => (.error e, s.purge now)
  else (.error .unavailable, s)

/-- What a caller gets from a call, and the store afterwards: nothing, if the program breaks off in
the call, and a refusal ever after. -/
def ask {a : Answer} (s : Store) (now : Nat) (c : Call a) :
    Option (Except StoreError a.Value) × Store :=
  if s.poisoned then (some (.error (if s.available then .lockPoisoned else .unavailable)), s)
  else if s.overflows now c then (none, (s.purge now).strained true)
  else ((s.apply now c).map some id)

/-- A store that cannot be reached refuses every call and keeps what it holds. -/
theorem apply_unavailable {a : Answer} {s : Store} (h : s.available = false) (now : Nat)
    (c : Call a) : s.apply now c = (.error .unavailable, s) := by
  simp [apply, h]

end Store

end JobFleet
