/-!
# Faults of the store

A call on the shared store can fail: the connection broke, a command was refused, a stored
value was not what the call needs, or the store is down.
-/

namespace JobFleet

/-- Why a call on the store failed. -/
inductive StoreError
  | connection (detail : String)
  | command (detail : String)
  | invalidValue (detail : String)
  | unavailable
deriving DecidableEq, Repr

/-- The wording of a fault. -/
def StoreError.message : StoreError → String
  | .connection detail => "coordinator connection error: " ++ detail
  | .command detail => "coordinator command error: " ++ detail
  | .invalidValue detail => "coordinator returned an invalid value: " ++ detail
  | .unavailable => "coordinator unavailable"

/-- The fault of every call on a store that an earlier call has broken off in. -/
def StoreError.lockPoisoned : StoreError := .command "lock poisoned"

/-- The fault of a counter whose stored text is no integer. -/
def StoreError.notInteger (key : String) : StoreError := .invalidValue (key ++ " is not an integer")

end JobFleet
