import JobFleet.Number.Binary64

/-!
# JSON values

A JSON document as a tree. Whole numbers of 64 bits are kept exactly; every other number is
binary floating point. The members of an object keep their first positions, and a repeated name
keeps its last value.
-/

namespace JobFleet.Json

/-- A JSON number. -/
inductive Numeral
  | integer (n : Int)
  | real (x : Number.Binary64)
deriving DecidableEq, Repr

/-- A JSON document. -/
inductive Value
  | null
  | bool (b : Bool)
  | number (n : Numeral)
  | text (s : String)
  | array (items : List Value)
  | object (members : List (String × Value))
deriving Repr

namespace Value

/-- A whole number as a document. -/
def ofInt (n : Int) : Value := .number (.integer n)

/-- A natural number as a document. -/
def ofNat (n : Nat) : Value := ofInt n

/-- A member of an object. -/
def member? (v : Value) (name : String) : Option Value :=
  match v with
  | .object members => (members.find? fun m => m.1 = name).map Prod.snd
  | _ => none

end Value

/-- Adds a member to an object: a name already there keeps its place and takes the value. -/
def putMember (name : String) (v : Value) : List (String × Value) → List (String × Value)
  | [] => [(name, v)]
  | (other, w) :: rest =>
      if other = name then (name, v) :: rest else (other, w) :: putMember name v rest

end JobFleet.Json
