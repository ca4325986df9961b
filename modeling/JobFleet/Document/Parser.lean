import JobFleet.Json.Reader
import JobFleet.Schedule.Settings

/-!
# Documents of the parser's autoupdate

The JSON forms of parser settings, of a change to them, and of a run's report. A report is one
flat object: its status, its interval and whatever else it carries. A change leaves out what it
does not touch.
-/

namespace JobFleet.Document

open Json

/-- The name of the member that tells whether autoupdate is on. -/
def enabledName : String := "enable_autoupdate"

/-- The name of the member that holds the interval of settings. -/
def minutesName : String := "update_interval_minutes"

/-- The fields of parser settings read so far. -/
structure SettingsParts where
  enabled : Option Bool := none
  minutes : Option Int := none

/-- Reads a member of parser settings. -/
def SettingsParts.member (name : String) (p : SettingsParts) : Reader SettingsParts := fun cs =>
  if name = enabledName then do
    let (v, cs) ← readOnce p.enabled readBool cs
    return ({ p with enabled := v }, cs)
  else if name = minutesName then do
    let (v, cs) ← readOnce p.minutes (readInteger .int64) cs
    return ({ p with minutes := v }, cs)
  else do
    let (_, cs) ← skipMember cs
    return (p, cs)

/-- Reads parser settings. -/
def readSettings : Reader ParserSettings :=
  readRecord
    (fun cs => do
      let (enabled, cs) ← readNextItem false readBool cs
      let (minutes, cs) ← readNextItem true (readInteger .int64) cs
      return (⟨enabled, minutes⟩, cs))
    (fun cs => do
      let (p, cs) ← foldMembers SettingsParts.member (cs.length + 1) false {} cs
      return (⟨← filled p.enabled, ← filled p.minutes⟩, cs))

/-- The document of parser settings. -/
def ofSettings (s : ParserSettings) : Value :=
  .object [(enabledName, .bool s.enabled), (minutesName, .ofInt s.minutes)]

/-- A change of parser settings: what is absent stays. -/
structure SettingsChange where
  enabled : Option Bool
  minutes : Option Int
deriving DecidableEq, Repr

/-- The fields of a change read so far: a member may be there and still say nothing. -/
structure ChangeParts where
  enabled : Option (Option Bool) := none
  minutes : Option (Option Int) := none

/-- Reads a member of a change. -/
def ChangeParts.member (name : String) (p : ChangeParts) : Reader ChangeParts := fun cs =>
  if name = enabledName then do
    let (v, cs) ← readOnce p.enabled (readOptional readBool) cs
    return ({ p with enabled := v }, cs)
  else if name = minutesName then do
    let (v, cs) ← readOnce p.minutes (readOptional (readInteger .int64)) cs
    return ({ p with minutes := v }, cs)
  else do
    let (_, cs) ← skipMember cs
    return (p, cs)

/-- Reads a change of parser settings. -/
def readChange : Reader SettingsChange :=
  readRecord
    (fun cs => do
      let (enabled, cs) ← readNextItem false (readOptional readBool) cs
      let (minutes, cs) ← readNextItem true (readOptional (readInteger .int64)) cs
      return (⟨enabled, minutes⟩, cs))
    (fun cs => do
      let (p, cs) ← foldMembers ChangeParts.member (cs.length + 1) false {} cs
      return (⟨p.enabled.join, p.minutes.join⟩, cs))

/-- The fields of a report read so far. -/
structure SummaryParts where
  status : Option String := none
  interval : Option Int := none
  extra : List (String × Value) := []

/-- Reads a member of a report, which keeps all members that it does not know. -/
def SummaryParts.member (name : String) (p : SummaryParts) : Reader SummaryParts := fun cs =>
  if name = "status" then do
    let (v, cs) ← readOnce p.status readText cs
    return ({ p with status := v }, cs)
  else if name = "interval_minutes" then do
    let (v, cs) ← readOnce p.interval (readInteger .nat64) cs
    return ({ p with interval := v }, cs)
  else do
    let (v, cs) ← afterColon (readValue (maxDepth - 1)) cs
    return ({ p with extra := putMember name v p.extra }, cs)

/-- Reads a report. -/
def readSummary : Reader Summary :=
  readRecord (fun _ => .error .mismatched)
    (fun cs => do
      let (p, cs) ← foldMembers SummaryParts.member (cs.length + 1) false {} cs
      return (⟨← filled p.status, (← filled p.interval).toNat, p.extra⟩, cs))

/-- The document of a report; what else it carries comes last and wins over its own members. -/
def ofSummary (s : Summary) : Value :=
  .object (s.extra.foldl (fun members e => putMember e.1 e.2 members)
    [("status", .text s.status), ("interval_minutes", .ofNat s.interval)])

end JobFleet.Document
