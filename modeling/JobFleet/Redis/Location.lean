import JobFleet.Net.Url
import JobFleet.Number.Integer
import JobFleet.Text.Form

/-!
# Where a Redis server is

A location is a locator with the scheme of the server. Its path is the number of a database, if
there is one. For a local socket the path is that of the socket instead, and the query may name
a database. Only the form is checked: nothing connects.
-/

namespace JobFleet.Redis

/-- Where a server is and which of its databases to use. The path of a socket is kept as it is
written, escapes unread. -/
inductive Location
  | tcp (host : String) (port : Nat) (database : Int)
  | socket (path : String) (database : Int)
deriving DecidableEq, Repr

/-- The port number that stands where none is written. -/
def usualPort : Nat := 6379

/-- Whether an escaped text stands for characters. -/
def decodable (cs : List Char) : Bool :=
  (Text.ofUtf8? (Text.unescape (String.ofList cs).toUTF8.toList)).isSome

/-- The number of a database. -/
def readDatabase (s : String) : Option Int := (Number.readInteger .int64 s).toOption

/-- A text without the slashes at either end. -/
def withoutSlashes (cs : List Char) : List Char :=
  ((cs.dropWhile (· = '/')).reverse.dropWhile (· = '/')).reverse

/-- The text of a host, if there is one. -/
def hostText? : Net.Host → Option String
  | .absent => none
  | .name text => some text
  | .address a => some a.text

/-- The server that a locator names; the user and the password must stand for characters. -/
def Location.ofServer? (url : Net.Url) : Option Location := do
  let host ← hostText? url.host
  let path := withoutSlashes url.path.chars
  let database ← if path.isEmpty then some 0 else readDatabase (String.ofList path)
  if decodable url.user then some (.tcp host (url.port.getD usualPort) database) else none

/-- The local socket that a locator names: its path begins at the root of this host. -/
def Location.ofSocket? (url : Net.Url) : Option Location := do
  let path ← match url.host, url.path with
    | .absent, .slashed segments => some (Net.Path.slashed segments)
    | .name "localhost", .slashed segments => some (.slashed segments)
    | _, _ => none
  let values := (Text.formPairs url.query).filter fun p => p.1 = "db"
  let database ← match values.getLast? with
    | some p => readDatabase p.2
    | none => some 0
  return .socket (String.ofList path.chars) database

/-- Reads a location. -/
def Location.read? (s : String) : Option Location := do
  let url ← Net.Url.read? s
  if url.scheme = "redis" then Location.ofServer? url
  else if url.scheme = "unix" ∨ url.scheme = "redis+unix" then Location.ofSocket? url
  else none

end JobFleet.Redis
