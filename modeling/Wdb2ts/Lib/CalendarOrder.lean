import Wdb2ts.Lib.Calendar

/-!
# The order of the calendar

A date is earlier than another one when its year is earlier, or its month in the same year, or its
day in the same month.  Its day number is smaller then.
-/

namespace Calendar

/-- The months from year 0 to a month. -/
def monthNumber (date : Date) : ℤ := 12 * date.year + (date.month - 1)

/-- The day number of the first day of a month. -/
def firstDay (number : ℤ) : ℤ := dayNumber ⟨number / 12, number % 12 + 1, 1⟩

/-- The days of a month. -/
def monthLength (number : ℤ) : ℤ := endOfMonthDay (number / 12) (number % 12 + 1)

theorem endOfMonthDay_pos (year month : ℤ) : 28 ≤ endOfMonthDay year month := by
  simp only [endOfMonthDay]
  split_ifs <;> decide

/-- The leap day is the last day of February. -/
theorem dayNumber_march (year : ℤ) :
    dayNumber ⟨year, 3, 1⟩ = dayNumber ⟨year, 2, 1⟩ + endOfMonthDay year 2 := by
  have leapDays : (year + 4800) / 4 - (year + 4800) / 100 + (year + 4800) / 400 =
      (year + 4799) / 4 - (year + 4799) / 100 + (year + 4799) / 400 +
        if isLeapYear year then 1 else 0 := by
    simp only [isLeapYear, Bool.and_eq_true, Bool.or_eq_true, decide_eq_true_eq]
    split <;> omega
  have march : ((14 : ℤ) - 3) / 12 = 0 := rfl
  have february : ((14 : ℤ) - 2) / 12 = 1 := rfl
  simp only [dayNumber, endOfMonthDay, if_true, march, february]
  split at leapDays
  · next leap =>
      rw [if_pos leap]
      omega
  · next noLeap =>
      rw [if_neg noLeap]
      omega

/-- A month begins behind the last day of the month before in the year. -/
theorem dayNumber_nextMonth (year : ℤ) {month : ℤ} (lower : 1 ≤ month) (upper : month ≤ 11) :
    dayNumber ⟨year, month + 1, 1⟩ = dayNumber ⟨year, month, 1⟩ + endOfMonthDay year month := by
  by_cases february : month = 2
  · rw [february]
    exact dayNumber_march year
  · have days : endOfMonthDay year month =
        if month = 4 ∨ month = 6 ∨ month = 9 ∨ month = 11 then 30 else 31 := by
      rw [endOfMonthDay, if_neg february]
    rw [days]
    simp only [dayNumber]
    interval_cases month <;> omega

theorem dayNumber_nextYear (year : ℤ) :
    dayNumber ⟨year + 1, 1, 1⟩ = dayNumber ⟨year, 12, 1⟩ + endOfMonthDay year 12 := by
  have december : endOfMonthDay year 12 = 31 := rfl
  rw [december]
  simp only [dayNumber]
  omega

/-- A month begins behind the last day of the month before. -/
theorem firstDay_succ (number : ℤ) :
    firstDay (number + 1) = firstDay number + monthLength number := by
  rw [firstDay, firstDay, monthLength]
  by_cases december : number % 12 = 11
  · have year : (number + 1) / 12 = number / 12 + 1 := by omega
    have month : (number + 1) % 12 = 0 := by omega
    rw [year, month, december]
    exact dayNumber_nextYear _
  · have year : (number + 1) / 12 = number / 12 := by omega
    have month : (number + 1) % 12 = number % 12 + 1 := by omega
    rw [year, month]
    exact dayNumber_nextMonth _ (by omega) (by omega)

/-- A month is over before a later one begins. -/
theorem firstDay_le {earlier later : ℤ} (less : earlier + 1 ≤ later) :
    firstDay earlier + monthLength earlier ≤ firstDay later := by
  induction later, less using Int.leInduction with
  | base => exact (firstDay_succ earlier).ge
  | succ later _ ih =>
      have positive : 28 ≤ monthLength later := endOfMonthDay_pos _ _
      rw [firstDay_succ]
      omega

theorem Valid.monthNumber_div {date : Date} (valid : Valid date) :
    monthNumber date / 12 = date.year := by
  have lower := valid.month_pos
  have upper := valid.month_le
  rw [monthNumber]
  omega

theorem Valid.monthNumber_mod {date : Date} (valid : Valid date) :
    monthNumber date % 12 + 1 = date.month := by
  have lower := valid.month_pos
  have upper := valid.month_le
  rw [monthNumber]
  omega

/-- The day number of a date is that of its month and its day. -/
theorem dayNumber_eq {date : Date} (valid : Valid date) :
    dayNumber date = firstDay (monthNumber date) + date.day - 1 := by
  rw [firstDay, valid.monthNumber_div, valid.monthNumber_mod, dayNumber, dayNumber]
  ring

theorem dayNumber_lt_of_month {earlier later : Date} (validEarlier : Valid earlier)
    (validLater : Valid later) (less : monthNumber earlier < monthNumber later) :
    dayNumber earlier < dayNumber later := by
  have between := firstDay_le less
  have inMonth : earlier.day ≤ monthLength (monthNumber earlier) := by
    rw [monthLength, validEarlier.monthNumber_div, validEarlier.monthNumber_mod]
    exact validEarlier.day_le
  have positive := validLater.day_pos
  rw [dayNumber_eq validEarlier, dayNumber_eq validLater]
  omega

/-- Dates are ordered by their years, months and days. -/
theorem dayNumber_lt_iff {earlier later : Date} (validEarlier : Valid earlier)
    (validLater : Valid later) :
    dayNumber earlier < dayNumber later ↔
      monthNumber earlier < monthNumber later ∨
        monthNumber earlier = monthNumber later ∧ earlier.day < later.day := by
  have equal (same : monthNumber earlier = monthNumber later) :
      dayNumber earlier < dayNumber later ↔ earlier.day < later.day := by
    rw [dayNumber_eq validEarlier, dayNumber_eq validLater, same]
    omega
  rcases lt_trichotomy (monthNumber earlier) (monthNumber later) with less | same | greater
  · exact iff_of_true (dayNumber_lt_of_month validEarlier validLater less) (Or.inl less)
  · rw [equal same]
    simp [same]
  · have after := dayNumber_lt_of_month validLater validEarlier greater
    exact iff_of_false after.not_gt (by omega)

/-- Different dates have different day numbers. -/
theorem dayNumber_injective {date other : Date} (valid : Valid date) (otherValid : Valid other)
    (same : dayNumber date = dayNumber other) : date = other := by
  have notBefore := (not_congr (dayNumber_lt_iff valid otherValid)).mp same.not_lt
  have notBehind := (not_congr (dayNumber_lt_iff otherValid valid)).mp same.not_gt
  have sameMonth : monthNumber date = monthNumber other := by omega
  have year : date.year = other.year := by
    rw [← valid.monthNumber_div, ← otherValid.monthNumber_div, sameMonth]
  have month : date.month = other.month := by
    rw [← valid.monthNumber_mod, ← otherValid.monthNumber_mod, sameMonth]
  have day : date.day = other.day := by omega
  cases date
  cases other
  cases year
  cases month
  cases day
  rfl

/-- A date is the date of its day number. -/
theorem fromDayNumber_dayNumber {date : Date} (valid : Valid date) :
    fromDayNumber (dayNumber date) = date :=
  dayNumber_injective (fromDayNumber_valid _) valid (dayNumber_fromDayNumber _)

end Calendar
