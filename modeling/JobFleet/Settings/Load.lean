import JobFleet.LogFormat
import JobFleet.Number.Binary64
import JobFleet.Settings.Basic
import JobFleet.Text.Quoted

/-!
# Settings from named variables

Settings are read from variables. One that is unset or blank takes its default; blanks around a
value do not count. Variables are read in a fixed order and the first one at fault is reported,
with its value and the reason.
-/

namespace JobFleet

/-- What is wrong with a variable's value. -/
inductive SettingFault
  | belowOne
  | notBoolean
  | notFloat
  | integer (cause : Number.IntegerError)
  | seconds (cause : Number.SecondsError)
  | address
  | socketAddress
  | policy (cause : DomainError)

/-- The wording of a fault. -/
def SettingFault.message : SettingFault → String
  | .belowOne => "must be at least 1"
  | .notBoolean => "expected a boolean"
  | .notFloat => "invalid float literal"
  | .integer cause => cause.message
  | .seconds cause => cause.message
  | .address => Net.addressFault
  | .socketAddress => Net.socketAddressFault
  | .policy cause => cause.message

/-- A variable whose value cannot be used. -/
structure SettingError where
  name : String
  value : String
  fault : SettingFault

/-- The wording of the error. -/
def SettingError.message (e : SettingError) : String :=
  "invalid value for " ++ e.name ++ ": " ++ Text.quoted e.value ++
    " (" ++ e.fault.message ++ ")"

/-- The variables: each may have a value. -/
abbrev Variables : Type := String → Option String

namespace Variables

/-- The value of a variable without blanks around it, if anything is left. -/
def value? (vars : Variables) (name : String) : Option String :=
  ((vars name).map Text.trim).filter fun v => !v.isEmpty

/-- Reads a variable's value, or takes the default. -/
def read {α : Type} (vars : Variables) (name : String) (default : α)
    (f : String → Except SettingFault α) : Except SettingError α :=
  match vars.value? name with
  | none => .ok default
  | some v =>
      match f v with
      | .ok a => .ok a
      | .error fault => .error ⟨name, v, fault⟩

/-- Reads an integer of a range. -/
def integer (vars : Variables) (name : String) (r : Number.Range) (default : Int) :
    Except SettingError Int :=
  vars.read name default fun v =>
    match Number.readInteger r v with
    | .ok n => .ok n
    | .error cause => .error (.integer cause)

/-- Reads an integer of a range that must be at least one. -/
def positive (vars : Variables) (name : String) (r : Number.Range) (default : Int) :
    Except SettingError Int := do
  let n ← vars.integer name r default
  if n < 1 then .error ⟨name, Number.showInteger n, .belowOne⟩ else return n

/-- Reads a length of time in seconds, which may have a fraction. -/
def seconds (vars : Variables) (name : String) (default : Duration) :
    Except SettingError Duration :=
  match vars.value? name with
  | none => .ok default
  | some v =>
      match Number.Binary64.read? v with
      | none => .error ⟨name, v, .notFloat⟩
      | some x =>
          match x.toDuration with
          | .ok d => .ok d
          | .error cause => .error ⟨name, x.text, .seconds cause⟩

/-- The truth value of a word in lower case. -/
def truth? (word : String) : Option Bool :=
  if ["1", "true", "yes", "on"].contains word then some true
  else if ["0", "false", "no", "off"].contains word then some false
  else none

/-- Reads a truth value in any case. -/
def flag (vars : Variables) (name : String) (default : Bool) : Except SettingError Bool :=
  vars.read name default fun v =>
    match truth? (Text.asciiLower v) with
    | some b => .ok b
    | none => .error .notBoolean

/-- Reads addresses between commas; empty items do not count. -/
def addresses (vars : Variables) (name : String) : Except SettingError (List Net.Address) :=
  let items := ((Text.split ',' ((vars.value? name).getD "")).map Text.trim).filter
    fun item => !item.isEmpty
  items.mapM fun item =>
    match Net.Address.read? item with
    | some a => .ok a
    | none => .error ⟨name, item, .address⟩

end Variables

/-- The address to listen on where none is chosen: every interface, port 8080. -/
def usualBindAddress : Net.SocketAddress := ⟨.v4 0 0 0 0, 8080, 0⟩

/-- Reads the settings of a process. -/
def Settings.load (vars : Variables) : Except SettingError Settings := do
  let maxRunning ← vars.positive "JOBS_MAX_RUNNING" .int64 20
  let queueCapacity ← vars.positive "JOBS_QUEUE_CAPACITY" .nat64 1024
  let maxAttempts ← vars.positive "JOBS_DEFAULT_MAX_ATTEMPTS" .nat32 3
  let backoff ← vars.seconds "JOBS_DEFAULT_BACKOFF_SECONDS" (.ofSecs 1)
  let lockTtl ← vars.positive "SCHEDULER_LOCK_TTL_SECONDS" .nat64 90
  let enabled ← vars.flag "PARSER_AUTOUPDATE_ENABLED" false
  let minutes ← vars.integer "PARSER_UPDATE_INTERVAL_MINUTES" .int64 defaultInterval
  let limitAttempts ← vars.positive "AUTH_RATE_LIMIT_MAX_ATTEMPTS" .nat64 5
  let limitWindow ← vars.positive "AUTH_RATE_LIMIT_WINDOW_SECONDS" .nat64 60
  let limitPolicy ← vars.read "AUTH_RATE_LIMIT_FAILURE_POLICY" .failClosed fun v =>
    (FailurePolicy.read v).mapError .policy
  let bindAddress ← vars.read "KITSU_BIND_ADDR" usualBindAddress fun v =>
    match Net.SocketAddress.read? v with
    | some a => .ok a
    | none => .error .socketAddress
  let trustedProxies ← vars.addresses "KITSU_TRUSTED_PROXIES"
  return {
    redisUrl := vars.value? "REDIS_URL"
    bindAddress
    trustedProxies
    logFormat := (vars.value? "KITSU_LOG_FORMAT").getD LogFormat.usual.text
    maxRunning
    queueCapacity := queueCapacity.toNat
    jobDefaults := ⟨maxAttempts.toNat, backoff⟩
    schedulerLockTtl := .ofSecs lockTtl.toNat
    parser := ⟨enabled, minutes⟩
    limitAttempts := limitAttempts.toNat % (maxCount + 1)
    limitWindow := .ofSecs limitWindow.toNat
    limitPolicy }

end JobFleet
