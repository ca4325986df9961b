import JobFleet.Calendar

/-!
# The civil date of a later minute is later

Each part of a date grows with the day: the era with the days, the year of an era with the day of
the era, the month and the day of a month with the day of the year. So the number that the digits
of a minute's stamp write grows from minute to minute, over leap years, centuries, eras and the
year zero alike, and different minutes have different dates or times.
-/

namespace JobFleet.Calendar

/-! ## The year of an era -/

/-- The year of an era that a day of the era belongs to. -/
def yearOfEra (day : Nat) : Nat := (day - day / 1460 + day / 36524 - day / 146096) / 365

/-- The day of the era that a year of the era begins with. -/
def firstDay (year : Nat) : Nat := 365 * year + year / 4 - year / 100

/-- Later days of an era lie in no earlier year. -/
theorem yearOfEra_mono {d e : Nat} (h : d ≤ e) : yearOfEra d ≤ yearOfEra e := by
  induction h with
  | refl => exact Nat.le_refl _
  | step _ ih =>
      refine Nat.le_trans ih ?_
      unfold yearOfEra
      omega

/-- An era has four hundred years. -/
theorem yearOfEra_le {d : Nat} (h : d < 146097) : yearOfEra d ≤ 399 := by
  unfold yearOfEra
  omega

/-- A year begins with its first day, and the day before belongs to the year before. -/
theorem yearOfEra_firstDay : ∀ y < 400, yearOfEra (firstDay y) = y ∧
    (0 < y → yearOfEra (firstDay y - 1) = y - 1) := by
  decide +kernel

/-- A day is not before the first one of its year. -/
theorem firstDay_yearOfEra_le {d : Nat} (h : d < 146097) : firstDay (yearOfEra d) ≤ d := by
  obtain ⟨-, hbefore⟩ := yearOfEra_firstDay (yearOfEra d) (Nat.lt_succ_of_le (yearOfEra_le h))
  by_cases hpos : 0 < yearOfEra d
  · apply Nat.le_of_not_lt
    intro hlt
    have hmono := yearOfEra_mono (show d ≤ firstDay (yearOfEra d) - 1 by omega)
    rw [hbefore hpos] at hmono
    omega
  · rw [Nat.eq_zero_of_not_pos hpos]
    exact Nat.zero_le d

/-- A day is before the first one of the next year. -/
theorem lt_firstDay_succ {d : Nat} (h : yearOfEra d < 399) : d < firstDay (yearOfEra d + 1) := by
  obtain ⟨hfirst, -⟩ := yearOfEra_firstDay (yearOfEra d + 1) (by omega)
  apply Nat.lt_of_not_le
  intro hle
  have hmono := yearOfEra_mono hle
  rw [hfirst] at hmono
  omega

/-- The day of its year, counted from the first of March. -/
def dayOfYear (day : Nat) : Nat := day - firstDay (yearOfEra day)

/-- A year has no more than 366 days. -/
theorem dayOfYear_le {d : Nat} (h : d < 146097) : dayOfYear d ≤ 365 := by
  have hle := yearOfEra_le h
  unfold dayOfYear
  by_cases hlast : yearOfEra d < 399
  · have hlt := lt_firstDay_succ hlast
    unfold firstDay at *
    omega
  · have hy : yearOfEra d = 399 := by omega
    rw [hy]
    unfold firstDay
    omega

/-- A later day of the era is of a later year, or of the same year and later in it. -/
theorem later_in_era {d e : Nat} (h : d < e) (he : e < 146097) :
    yearOfEra d < yearOfEra e ∨ yearOfEra d = yearOfEra e ∧ dayOfYear d < dayOfYear e := by
  have hd := firstDay_yearOfEra_le (Nat.lt_trans h he)
  rcases Nat.lt_or_eq_of_le (yearOfEra_mono (Nat.le_of_lt h)) with hlt | heq
  · exact .inl hlt
  · refine .inr ⟨heq, ?_⟩
    unfold dayOfYear
    rw [← heq]
    omega

/-! ## Dates -/

/-- The month of a day of the year, from March on. -/
def shiftedMonth (day : Nat) : Nat := (5 * day + 2) / 153

/-- The day of the month of a day of the year. -/
def dayOfMonth (day : Nat) : Nat := day - (153 * shiftedMonth day + 2) / 5 + 1

/-- A year has twelve months. -/
theorem shiftedMonth_le {d : Nat} (h : d ≤ 365) : shiftedMonth d ≤ 11 := by
  unfold shiftedMonth
  omega

/-- A month has no more than 31 days. -/
theorem dayOfMonth_le (d : Nat) : dayOfMonth d ≤ 31 := by
  unfold dayOfMonth shiftedMonth
  omega

/-- A later day of the year is in a later month, or in the same month and later in it. -/
theorem later_in_year {d e : Nat} (h : d < e) :
    shiftedMonth d < shiftedMonth e ∨
      shiftedMonth d = shiftedMonth e ∧ dayOfMonth d < dayOfMonth e := by
  unfold dayOfMonth shiftedMonth
  omega

/-- The month of the calendar year, January being the first. -/
def calendarMonth (shifted : Nat) : Nat := if shifted < 10 then shifted + 3 else shifted - 9

/-- Months are counted from one to twelve. -/
theorem calendarMonth_le {m : Nat} (h : m ≤ 11) : calendarMonth m ≤ 12 := by
  unfold calendarMonth
  split <;> omega

/-- The era of a number of days since 1970-01-01. -/
def era (days : Int) : Int := (days + 719468).fdiv 146097

/-- The day of the era of a number of days since 1970-01-01. -/
def dayOfEra (days : Int) : Nat := ((days + 719468).fmod 146097).toNat

/-- An era has 146097 days. -/
theorem dayOfEra_lt (days : Int) : dayOfEra days < 146097 := by
  unfold dayOfEra
  rw [Int.fmod_eq_emod_of_nonneg _ (by decide)]
  omega

/-- A later day is of a later era, or later in the same one. -/
theorem later_by_era {m n : Int} (h : m < n) :
    era m < era n ∨ era m = era n ∧ dayOfEra m < dayOfEra n := by
  unfold era dayOfEra
  rw [Int.fdiv_eq_ediv_of_nonneg _ (by decide), Int.fdiv_eq_ediv_of_nonneg _ (by decide),
    Int.fmod_eq_emod_of_nonneg _ (by decide), Int.fmod_eq_emod_of_nonneg _ (by decide)]
  omega

/-- The date of the parts of a number of days: the last two months of a year that begins in March
are the first two of the next year. -/
def dateOf (year : Int) (shifted day : Nat) : Int × Nat × Nat :=
  (if calendarMonth shifted ≤ 2 then year + 1 else year, calendarMonth shifted, day)

/-- The date of a day, put together from era, month and day. -/
theorem civil_eq (days : Int) :
    civil days = dateOf (yearOfEra (dayOfEra days) + era days * 400)
      (shiftedMonth (dayOfYear (dayOfEra days))) (dayOfMonth (dayOfYear (dayOfEra days))) :=
  rfl

/-- The month of a date is one of twelve. -/
theorem civil_month_le (days : Int) : (civil days).2.1 ≤ 12 :=
  calendarMonth_le (shiftedMonth_le (dayOfYear_le (dayOfEra_lt days)))

/-- The day of a date is one of 31. -/
theorem civil_day_le (days : Int) : (civil days).2.2 ≤ 31 :=
  dayOfMonth_le (dayOfYear (dayOfEra days))

/-- A date as one number: the year, two digits of the month and two of the day. -/
def dateNumber (date : Int × Nat × Nat) : Int := date.1 * 10000 + date.2.1 * 100 + date.2.2

/-- The number of a date grows with each part, also where the year turns. -/
theorem dateNumber_dateOf (year : Int) {shifted : Nat} (h : shifted ≤ 11) (day : Nat) :
    dateNumber (dateOf year shifted day) =
      year * 10000 + (shifted + 3) * 100 + day + if shifted < 10 then 0 else 8800 := by
  unfold dateNumber dateOf calendarMonth
  by_cases hspring : shifted < 10
  · simp only [if_pos hspring]
    rw [if_neg (by omega)]
    omega
  · simp only [if_neg hspring]
    rw [if_pos (by omega)]
    omega

/-- Later days have later dates. -/
theorem dateNumber_civil_lt {m n : Int} (h : m < n) :
    dateNumber (civil m) < dateNumber (civil n) := by
  have hmMonth := shiftedMonth_le (dayOfYear_le (dayOfEra_lt m))
  have hnMonth := shiftedMonth_le (dayOfYear_le (dayOfEra_lt n))
  have hmYear := yearOfEra_le (dayOfEra_lt m)
  have hmDay := dayOfMonth_le (dayOfYear (dayOfEra m))
  rw [civil_eq, civil_eq, dateNumber_dateOf _ hmMonth, dateNumber_dateOf _ hnMonth]
  rcases later_by_era h with hera | ⟨hera, hday⟩
  · split <;> split <;> omega
  · rcases later_in_era hday (dayOfEra_lt n) with hyear | ⟨hyear, hday⟩
    · split <;> split <;> omega
    · rcases later_in_year hday with hmonth | ⟨hmonth, hday⟩
      · split <;> split <;> omega
      · rw [hera, hyear, hmonth]
        omega

/-! ## Minutes -/

/-- The number that the digits of a minute's stamp write. -/
def Minute.number (m : Minute) : Int :=
  dateNumber (m.year, m.month, m.day) * 10000 + m.hour * 100 + m.minute

/-- A minute whose fields below the year have two digits at most. -/
structure Minute.Fits (m : Minute) : Prop where
  month : m.month < 100
  day : m.day < 100
  hour : m.hour < 100
  minute : m.minute < 100

/-- The minute of its day. -/
def ofDay (n : Int) : Nat := (n.fmod 1440).toNat

/-- A day has 1440 minutes. -/
theorem ofDay_lt (n : Int) : ofDay n < 1440 := by
  unfold ofDay
  rw [Int.fmod_eq_emod_of_nonneg _ (by decide)]
  omega

/-- A minute's date and its time of day. -/
theorem ofMinuteNumber_eq (n : Int) :
    ofMinuteNumber n = ⟨(civil (n.fdiv 1440)).1, (civil (n.fdiv 1440)).2.1,
      (civil (n.fdiv 1440)).2.2, ofDay n / 60, ofDay n % 60⟩ :=
  rfl

/-- The fields of a minute have two digits each, but for the year. -/
theorem ofMinuteNumber_fits (n : Int) : (ofMinuteNumber n).Fits := by
  have hmonth := civil_month_le (n.fdiv 1440)
  have hday := civil_day_le (n.fdiv 1440)
  have hlt := ofDay_lt n
  rw [ofMinuteNumber_eq]
  constructor <;> dsimp only <;> omega

/-- A later minute is of a later day, or later on the same one. -/
theorem later_by_day {m n : Int} (h : m < n) :
    m.fdiv 1440 < n.fdiv 1440 ∨ m.fdiv 1440 = n.fdiv 1440 ∧ ofDay m < ofDay n := by
  unfold ofDay
  rw [Int.fdiv_eq_ediv_of_nonneg _ (by decide), Int.fdiv_eq_ediv_of_nonneg _ (by decide),
    Int.fmod_eq_emod_of_nonneg _ (by decide), Int.fmod_eq_emod_of_nonneg _ (by decide)]
  omega

/-- The fields of a minute as one number. -/
theorem number_ofMinuteNumber (n : Int) :
    (ofMinuteNumber n).number = dateNumber (civil (n.fdiv 1440)) * 10000 +
      (ofDay n / 60 : Nat) * 100 + (ofDay n % 60 : Nat) :=
  rfl

/-- Later minutes have greater numbers. -/
theorem number_lt {m n : Int} (h : m < n) :
    (ofMinuteNumber m).number < (ofMinuteNumber n).number := by
  have hm := ofDay_lt m
  have hn := ofDay_lt n
  rw [number_ofMinuteNumber, number_ofMinuteNumber]
  rcases later_by_day h with hday | ⟨hday, htime⟩
  · have hdate := dateNumber_civil_lt hday
    omega
  · rw [hday]
    omega

/-- The numbers of minutes are in the order of the minutes. -/
theorem number_lt_iff {m n : Int} :
    (ofMinuteNumber m).number < (ofMinuteNumber n).number ↔ m < n := by
  refine ⟨fun hlt => Int.not_le.mp fun hle => ?_, number_lt⟩
  rcases Int.lt_or_eq_of_le hle with h | rfl
  · exact Int.lt_irrefl _ (Int.lt_trans hlt (number_lt h))
  · exact Int.lt_irrefl _ hlt

/-- Different minutes have different dates or times. -/
theorem ofMinuteNumber_inj {m n : Int} (h : ofMinuteNumber m = ofMinuteNumber n) : m = n := by
  rcases Int.lt_trichotomy m n with hlt | heq | hgt
  · exact absurd (h ▸ number_lt hlt) (Int.lt_irrefl _)
  · exact heq
  · exact absurd (h ▸ number_lt hgt) (Int.lt_irrefl _)

end JobFleet.Calendar
