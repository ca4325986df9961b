import JobFleet.Number.Integer

/-!
# Calendar minutes

The civil date of an instant of universal time, by the proleptic Gregorian calendar, and the
stamp of its minute. A year from 0 to 9999 has four digits; any other has a sign and at least
four digits. Days are counted in eras of 400 years that begin on the first of March, so that
the leap day ends its year.
-/

namespace JobFleet.Calendar

/-- A minute of a civil day. -/
structure Minute where
  year : Int
  month : Nat
  day : Nat
  hour : Nat
  minute : Nat
deriving DecidableEq, Repr

/-- Year, month and day of a number of days since 1970-01-01. -/
def civil (days : Int) : Int × Nat × Nat :=
  let shifted := days + 719468
  let era := shifted.fdiv 146097
  let dayOfEra := (shifted.fmod 146097).toNat
  let yearOfEra := (dayOfEra - dayOfEra / 1460 + dayOfEra / 36524 - dayOfEra / 146096) / 365
  let dayOfYear := dayOfEra - (365 * yearOfEra + yearOfEra / 4 - yearOfEra / 100)
  let shiftedMonth := (5 * dayOfYear + 2) / 153
  let day := dayOfYear - (153 * shiftedMonth + 2) / 5 + 1
  let month := if shiftedMonth < 10 then shiftedMonth + 3 else shiftedMonth - 9
  let year := (yearOfEra : Int) + era * 400
  (if month ≤ 2 then year + 1 else year, month, day)

/-- The number of whole minutes since 1970 at a second of universal time. -/
def minuteNumber (unix : Int) : Int := unix.fdiv 60

/-- The civil minute of a number of minutes since 1970. -/
def ofMinuteNumber (n : Int) : Minute :=
  let (year, month, day) := civil (n.fdiv 1440)
  let ofDay := (n.fmod 1440).toNat
  ⟨year, month, day, ofDay / 60, ofDay % 60⟩

/-- The civil minute that holds a second of universal time. -/
def minuteOf (unix : Int) : Minute := ofMinuteNumber (minuteNumber unix)

/-- A number with leading zeros up to a width. -/
def padded (width n : Nat) : List Char :=
  let ds := Nat.toDigits 10 n
  List.replicate (width - ds.length) '0' ++ ds

/-- A year: four digits from 0 to 9999, else a sign and at least four digits. -/
def yearText (year : Int) : List Char :=
  if 0 ≤ year ∧ year ≤ 9999 then padded 4 year.toNat
  else if 0 ≤ year then '+' :: padded 4 year.toNat
  else '-' :: padded 4 (-year).toNat

/-- The stamp of a minute: date, the letter T, and time, all digits. -/
def Minute.stamp (m : Minute) : String :=
  String.ofList (yearText m.year ++ padded 2 m.month ++ padded 2 m.day ++ 'T' ::
    (padded 2 m.hour ++ padded 2 m.minute))

end JobFleet.Calendar
