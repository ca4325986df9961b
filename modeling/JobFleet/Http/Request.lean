import JobFleet.Net.Address
import JobFleet.Text.Form

/-!
# Requests

A request is its method, its target, its header lines in order, its body and the socket address
it came from. A target is a path and perhaps a query; a fragment does not count. A query is a
list of named values in form encoding.
-/

namespace JobFleet.Http

/-- The path and the query that a request asks for. -/
structure Target where
  path : String
  query : String
deriving DecidableEq, Repr

/-- The path of a target that names a scheme and an authority. -/
def afterAuthority (cs : List Char) : List Char :=
  match Text.splitChars ':' cs with
  | scheme :: _ =>
      let rest := cs.drop (scheme.length + 3)
      let path := rest.dropWhile fun c => c ≠ '/' && c ≠ '?' && c ≠ '#'
      if path.head? = some '/' then path else '/' :: path
  | [] => cs

/-- Splits the text of a target. -/
def Target.ofText (s : String) : Target :=
  let cs := s.toList
  let cs := if cs.head? = some '/' then cs else afterAuthority cs
  let cs := cs.takeWhile (· ≠ '#')
  ⟨String.ofList (cs.takeWhile (· ≠ '?')), String.ofList ((cs.dropWhile (· ≠ '?')).drop 1)⟩

/-- A request. -/
structure Request where
  method : String
  target : Target
  headers : List (String × String)
  body : String
  peer : Option Net.SocketAddress

/-- The values of a header, in order; names are compared without regard to case. -/
def Request.header (r : Request) (name : String) : List String :=
  r.headers.filterMap fun h => if Text.asciiLower h.1 = name then some h.2 else none

/-- Whether a header line is readable as text: visible ASCII characters, blanks and tabs. -/
def readable (line : String) : Bool :=
  line.toList.all fun c => c = '\t' || (0x20 ≤ c.toNat && c.toNat < 0x7f)

/-- The named values of a query. -/
def Target.parameters (t : Target) : List (String × String) := Text.formPairs t.query

/-- The value of a name that must occur once. -/
def Target.parameter (t : Target) (name : String) : Option String :=
  match t.parameters.filter fun p => p.1 = name with
  | [p] => some p.2
  | _ => none

/-- The value of a name that may occur once: nothing if it is repeated. -/
def Target.optionalParameter (t : Target) (name : String) : Option (Option String) :=
  match t.parameters.filter fun p => p.1 = name with
  | [] => some none
  | [p] => some (some p.2)
  | _ => none

end JobFleet.Http
