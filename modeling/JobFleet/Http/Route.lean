import JobFleet.Http.Request
import JobFleet.Json.Value

/-!
# Routes and responses

The resources of the process, which methods each answers, and what an answer is. A path is
compared segment by segment as it is written; a path of its own wins over one with a key.
-/

namespace JobFleet.Http

/-- A resource of the process. -/
inductive Route
  | health
  | jobStats
  | jobStatus (rawKey : String)
  | schedulerState
  | autoupdateRun
  | parserSettings
  | loginLimit
deriving DecidableEq, Repr

/-- The resource at a path. -/
def Route.ofPath? (path : String) : Option Route :=
  match Text.split '/' path with
  | ["", "health"] => some .health
  | ["", "admin", "jobs", "stats"] => some .jobStats
  | ["", "admin", "jobs", key] => if key.isEmpty then none else some (.jobStatus key)
  | ["", "admin", "parser", "autoupdate"] => some .schedulerState
  | ["", "admin", "parser", "autoupdate", "run"] => some .autoupdateRun
  | ["", "admin", "parser", "settings"] => some .parserSettings
  | ["", "auth", "rate-limit", "login"] => some .loginLimit
  | _ => none

/-- The methods that a resource answers, in order of their names. -/
def Route.methods : Route → List String
  | .autoupdateRun => ["POST"]
  | .parserSettings => ["GET", "HEAD", "POST"]
  | _ => ["GET", "HEAD"]

/-- What a request is answered with: a status, a document unless the answer has none, and the
methods to use instead of one that is not allowed. -/
structure Response where
  status : Nat
  body : Option Json.Value
  allow : Option (List String)

namespace Response

/-- An answer without a document. -/
def bare (status : Nat) : Response := ⟨status, none, none⟩

/-- A document. -/
def document (status : Nat) (body : Json.Value) : Response := ⟨status, some body, none⟩

/-- A document that names a fault and explains it. -/
def fault (status : Nat) (code message : String) : Response :=
  document status (.object [("error", .text code), ("message", .text message)])

/-- The answer to a method that the resource does not have. -/
def notAllowed (methods : List String) : Response := ⟨405, none, some methods⟩

/-- The answer without its document, for those who ask for the head alone. -/
def headOnly (r : Response) : Response := { r with body := none }

end Response

end JobFleet.Http
