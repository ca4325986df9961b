import JobFleet.Document.Parser
import JobFleet.Fleet.Members
import JobFleet.Http.ClientAddress
import JobFleet.Http.MediaType
import JobFleet.RateLimit.Check
import JobFleet.Schedule.Control

/-!
# Serving requests

What each resource of a process answers. Most answer in one step; a run of the autoupdate waits
for its cycle, and a login limit is looked at twice, once to decide and once to count.
-/

namespace JobFleet.App

open Http (Request Response Route)

/-- The answer to a health check, given whether the store can be reached. -/
def healthDocument (up : Bool) : Json.Value :=
  .object [("status", .text (if up then "ok" else "degraded")),
    ("coordinator", .text (if up then "up" else "down"))]

/-- Asks the store whether it can be reached. -/
def health (w : World) : Response × World :=
  match w.perform .ping with
  | (.ok _, w) => (.document 200 (healthDocument true), w)
  | (.error cause, w) => (.document 200 (healthDocument false), w.log (.unhealthy cause))

/-- What a runner has counted. -/
def statsDocument (r : Runner) : Json.Value :=
  .object [("worker_id", .text r.worker.short), ("enqueued", .ofNat r.stats.enqueued),
    ("duplicates", .ofNat r.stats.duplicates), ("started", .ofNat r.stats.started),
    ("succeeded", .ofNat r.stats.succeeded), ("failed", .ofNat r.stats.failed),
    ("dropped", .ofNat r.stats.dropped), ("rejected", .ofNat r.stats.rejected),
    ("pending", .ofNat r.pending.length)]

/-- The counts of a process's runner. -/
def jobStats (app : String) (w : World) : Response :=
  match w.runners.find? app with
  | some r => .document 200 (statsDocument r)
  | none => .bare 500

/-- The status of a job whose key is written with escapes. -/
def jobStatus (rawKey : String) (w : World) : Response × World :=
  match Text.ofUtf8? (Text.unescape rawKey.toUTF8.toList) with
  | none => (.bare 400, w)
  | some text =>
      match JobKey.ofText text with
      | .error cause => (.fault 400 "invalid_job_key" cause.message, w)
      | .ok key =>
          let (status, w) := w.jobStatus key
          let shown := (status.map fun s => Json.Value.text s.text).getD .null
          (.document 200 (.object [("key", .text key.text), ("status", shown)]), w)

/-- Whether the process is the fleet's scheduler. -/
def schedulerState (app : String) (w : World) : Response :=
  .document 200 (.object [("running", .bool (Schedule.isRunning w app))])

/-- Whether a run is forced: it is unless the query says otherwise. -/
def forced? (t : Http.Target) : Option Bool :=
  match t.optionalParameter "force" with
  | some none => some true
  | some (some "true") => some true
  | some (some "false") => some false
  | _ => none

/-- The answer to a run of the autoupdate. -/
def cycleResponse : Schedule.CycleEnding → Response
  | .finished (.ok summary) => .document 200 (Document.ofSummary summary)
  | .finished (.error (.settings fault)) =>
      .fault 503 "settings_unavailable" (Schedule.CycleError.settings fault).message
  | .finished (.error (.service fault)) =>
      .fault 502 "autoupdate_failed" (Schedule.CycleError.service fault).message
  | .panicked => .bare 500

/-- The settings in force. -/
def showSettings (app : String) (w : World) : Response :=
  match w.heldSettings app with
  | some s => .document 200 (Document.ofSettings s)
  | none => .bare 500

/-- Settings after a change, unless the change asks for less than a minute. -/
def changed? (s : ParserSettings) (c : Document.SettingsChange) : Option ParserSettings :=
  match c.minutes with
  | some m =>
      if m < 1 then none else some { enabled := c.enabled.getD s.enabled, minutes := m }
  | none => some { s with enabled := c.enabled.getD s.enabled }

/-- Applies a change of the settings. -/
def applyChange (app : String) (c : Document.SettingsChange) (w : World) : Response × World :=
  match w.heldSettings app with
  | none => (.bare 500, w)
  | some s =>
      match changed? s c with
      | none => (.fault 400 "validation_error" "update_interval_minutes must be at least 1", w)
      | some next =>
          (.document 200 (Document.ofSettings next),
            (w.updateSettings app next).log (.settingsUpdated next))

/-- Changes the settings as the body asks; what follows the body's document does not count. -/
def changeSettings (app : String) (r : Request) (w : World) : Response × World :=
  match (r.header "content-type").head? with
  | none => (.bare 415, w)
  | some kind =>
      if Http.readable kind && Http.announcesJson kind then
        match Document.readChange r.body.toList with
        | .ok (c, _) => applyChange app c w
        | .error .malformed => (.bare 400, w)
        | .error .mismatched => (.bare 422, w)
      else (.bare 415, w)

/-- The address that a request is counted against, in its printed form. -/
def clientOf (app : String) (r : Request) (w : World) : Option String :=
  let trusted := ((w.apps.find? app).map App.trusted).getD []
  let peer := r.peer.map Net.SocketAddress.address
  (Http.clientAddress trusted peer (r.header Http.forwardingHeader)).map Net.Address.text

/-- The answer to a login that would not be refused, given the failures so far. -/
def limitDocument (failures : Option Int) (maxAttempts : Nat) : Json.Value :=
  .object [("attempts", (failures.map Json.Value.ofInt).getD .null),
    ("max_attempts", .ofNat maxAttempts)]

/-- What follows one step of a request. -/
abbrev Next : Type := Progress RequestPhase Response × World

/-- Answers at once. -/
def answer (p : Response × World) : Next := (.ended p.1, p.2)

/-- Looks whether a login would be refused. -/
def checkLogin (app : String) (head : Bool) (r : Request) (w : World) : Next :=
  match r.target.parameter "email", w.limiters.find? app with
  | some email, some l =>
      match l.check .login email (clientOf app r w) w with
      | (.ok key, w) => (.on (.counting head key), w)
      | (.error .limited, w) =>
          answer (.fault 429 "rate_limited" limitedMessage, w)
      | (.error (.invalidKey cause), w) =>
          answer (.fault 400 "validation_error" cause.message, w)
  | _, _ => answer (.bare 400, w)

/-- Counts the failures of a login that would not be refused. -/
def countLogin (app : String) (key : RateLimitKey) (w : World) : Response × World :=
  let maxAttempts := ((w.limiters.find? app).map Limiter.maxAttempts).getD 0
  let (failures, w) := w.perform (Limiter.attempts key)
  (.document 200 (limitDocument failures.toOption maxAttempts), w)

/-- Answers a request for a resource that has its method. -/
def serve (app : String) (head : Bool) (route : Route) (r : Request) (w : World) : Next :=
  match route with
  | .health => answer (health w)
  | .jobStats => answer (jobStats app w, w)
  | .jobStatus rawKey => answer (jobStatus rawKey w)
  | .schedulerState => answer (schedulerState app w, w)
  | .autoupdateRun =>
      match forced? r.target with
      | some force => (.on (.cycling head (.start app force)), w)
      | none => answer (.bare 400, w)
  | .parserSettings =>
      if r.method = "POST" then answer (changeSettings app r w)
      else answer (showSettings app w, w)
  | .loginLimit => checkLogin app head r w

/-- Answers a request, or takes its first step. -/
def receive (app : String) (r : Request) (w : World) : Next :=
  match Route.ofPath? r.target.path with
  | none => answer (.bare 404, w)
  | some route =>
      if route.methods.contains r.method then serve app (r.method = "HEAD") route r w
      else answer (.notAllowed route.methods, w)

/-- An answer without its document if only the head was asked for. -/
def trimmed (head : Bool) (r : Response) : Response := if head then r.headOnly else r

/-- Whether the next step of a request can be taken. -/
def requestReady (app : String) (w : World) : RequestPhase → Bool
  | .arrived r =>
      match Route.ofPath? r.target.path with
      | some .schedulerState => Schedule.unlocked w app
      | _ => true
  | .cycling _ c => c.ready w
  | .counting _ _ => true

/-- One step of a request. -/
def requestStep (self : TaskId) (app : String) (p : RequestPhase) (w : World) : Next :=
  match p with
  | .arrived r =>
      let (next, w) := receive app r w
      (next.map id (trimmed (r.method = "HEAD")), w)
  | .cycling head c =>
      match c.step self w with
      | (.on c, w) => (.on (.cycling head c), w)
      | (.ended ending, w) => answer (trimmed head (cycleResponse ending), w)
  | .counting head key =>
      let (r, w) := countLogin app key w
      answer (trimmed head r, w)

end JobFleet.App
