import JobFleet.Calendar
import JobFleet.Job.Key
import JobFleet.Json.Value

/-!
# Autoupdate settings, summaries and tick keys

Whether the parser updates itself, how often, and what one run reports. An interval that is not
positive counts as an hour.
-/

namespace JobFleet

/-- Whether the parser updates itself and after how many minutes. -/
structure ParserSettings where
  enabled : Bool
  minutes : Int
deriving DecidableEq, Repr

/-- The interval of settings that give no usable one. -/
def defaultInterval : Nat := 60

/-- The interval in minutes that settings ask for. -/
def ParserSettings.interval (s : ParserSettings) : Nat :=
  if 0 < s.minutes then s.minutes.toNat else defaultInterval

/-- The interval is a minute at the least. -/
theorem ParserSettings.one_le_interval (s : ParserSettings) : 1 ≤ s.interval := by
  unfold interval
  split
  · omega
  · decide

/-- What one autoupdate run reports. -/
structure Summary where
  status : String
  interval : Nat
  extra : List (String × Json.Value)
deriving Repr

namespace Summary

/-- A report with the default interval and nothing more. -/
def new (status : String) : Summary := ⟨status, defaultInterval, []⟩

/-- The report of a cycle that autoupdate was disabled in. -/
def disabled (interval : Nat) : Summary := ⟨"disabled", interval, []⟩

/-- Adds a member to the report. -/
def withExtra (s : Summary) (name : String) (v : Json.Value) : Summary :=
  { s with extra := Json.putMember name v s.extra }

end Summary

/-- The text of the job key of a second's tick: one for each minute of universal time. -/
def tickText (unix : Int) : String := "parser:autoupdate:" ++ (Calendar.minuteOf unix).stamp

/-- A text with a visible character in front is not blank. -/
theorem isBlank_tickText (unix : Int) : Text.isBlank (tickText unix) = false := by
  have h : (tickText unix).toList =
      "parser:autoupdate:".toList ++ (Calendar.minuteOf unix).stamp.toList :=
    String.toList_append
  rw [Text.isBlank, h, List.all_append]
  have hp : ("parser:autoupdate:".toList).all Text.blank.contains = false := by simp; decide
  rw [hp, Bool.false_and]

/-- The job key of a second's tick. -/
def tickKey (unix : Int) : JobKey := ⟨tickText unix, isBlank_tickText unix⟩

end JobFleet
