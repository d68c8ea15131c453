import Mathlib.Tactic

/-!
# The Gregorian calendar

Days are counted by the Julian day number, which is 0 in the year -4713.  The year of the count
begins in March, so that a leap day is the last day of a year.
-/

namespace Calendar

/-- A year, a month and a day. -/
structure Date where
  year : ℤ
  month : ℤ
  day : ℤ
  deriving DecidableEq, Repr

/-- Is the year a leap year? -/
def isLeapYear (year : ℤ) : Bool :=
  year % 4 = 0 && (decide (year % 100 ≠ 0) || decide (year % 400 = 0))

/-- The last day of a month. -/
def endOfMonthDay (year month : ℤ) : ℤ :=
  if month = 2 then if isLeapYear year then 29 else 28
  else if month = 4 ∨ month = 6 ∨ month = 9 ∨ month = 11 then 30
  else 31

theorem endOfMonthDay_le (year month : ℤ) : endOfMonthDay year month ≤ 31 := by
  simp only [endOfMonthDay]
  split_ifs <;> decide

/-- The day number of a date. -/
def dayNumber (date : Date) : ℤ :=
  let a := (14 - date.month) / 12
  let y := date.year + 4800 - a
  let m := date.month + 12 * a - 3
  date.day + (153 * m + 2) / 5 + 365 * y + y / 4 - y / 100 + y / 400 - 32045

/-- The date of a day number. -/
def fromDayNumber (number : ℤ) : Date :=
  let a := number + 32044
  let b := (4 * a + 3) / 146097
  let c := a - 146097 * b / 4
  let d := (4 * c + 3) / 1461
  let e := c - 1461 * d / 4
  let m := (5 * e + 2) / 153
  { year := 100 * b + d - 4800 + m / 10
    month := m + 3 - 12 * (m / 10)
    day := e - (153 * m + 2) / 5 + 1 }

/-! ## Parts of a day number -/

theorem centuryDays (b : ℤ) : 146097 * b / 4 = 36524 * b + b / 4 := by
  omega

theorem yearDays (d : ℤ) : 1461 * d / 4 = 365 * d + d / 4 := by
  omega

/-- The days of a century before a day.  The last day of a long century is a leap day. -/
theorem century_bounds {a b : ℤ} (lower : 146097 * b ≤ 4 * a + 3)
    (upper : 4 * a + 3 < 146097 * b + 146097) :
    0 ≤ a - 146097 * b / 4 ∧ a - 146097 * b / 4 ≤ 36524 ∧
      (a - 146097 * b / 4 = 36524 → b % 4 = 3) := by
  have split : b = 4 * (b / 4) + b % 4 := (Int.mul_ediv_add_emod b 4).symm
  have notNegative : 0 ≤ b % 4 := Int.emod_nonneg b (by decide)
  have lessThan : b % 4 < 4 := Int.emod_lt_of_pos b (by decide)
  rw [centuryDays]
  generalize b / 4 = q at split ⊢
  generalize b % 4 = r at split notNegative lessThan ⊢
  subst split
  refine ⟨?_, ?_, ?_⟩
  · linarith
  · have quarter : 4 * (a - (36524 * (4 * q + r) + q)) ≤ 4 * 36524 + 3 := by linarith
    omega
  · intro last
    have above : 4 * 36524 + 3 < 146097 + r := by linarith
    omega

/-- The days of a year before a day.  A long year is the last one of four. -/
theorem year_bounds {c d : ℤ} (lower : 1461 * d ≤ 4 * c + 3) (upper : 4 * c + 3 < 1461 * d + 1461)
    (notNegative : 0 ≤ c) (notGreater : c ≤ 36524) :
    0 ≤ d ∧ d ≤ 99 ∧ 0 ≤ c - 1461 * d / 4 ∧ c - 1461 * d / 4 ≤ 365 ∧
      (c - 1461 * d / 4 = 365 → d % 4 = 3 ∧ (d = 99 → c = 36524)) := by
  omega

/-- A day number as century, year of the century and day of the year. -/
structure Parts (number b d e : ℤ) : Prop where
  number_eq : number + 32044 = 36524 * b + b / 4 + (365 * d + d / 4) + e
  d_nonneg : 0 ≤ d
  d_le : d ≤ 99
  e_nonneg : 0 ≤ e
  e_le : e ≤ 365
  leap : e = 365 → d % 4 = 3 ∧ (d = 99 → b % 4 = 3)

theorem exists_parts (number : ℤ) :
    ∃ b d e, Parts number b d e ∧ fromDayNumber number =
      { year := 100 * b + d - 4800 + (5 * e + 2) / 153 / 10
        month := (5 * e + 2) / 153 + 3 - 12 * ((5 * e + 2) / 153 / 10)
        day := e - (153 * ((5 * e + 2) / 153) + 2) / 5 + 1 } := by
  have century := century_bounds (Int.mul_ediv_self_le (x := 4 * (number + 32044) + 3)
    (k := 146097) (by decide)) (Int.lt_mul_ediv_self_add (by decide))
  have year := year_bounds (Int.mul_ediv_self_le (by decide))
    (Int.lt_mul_ediv_self_add (by decide)) century.1 century.2.1
  refine ⟨_, _, _, ⟨?_, year.1, year.2.1, year.2.2.1, year.2.2.2.1, ?_⟩, rfl⟩
  · rw [← centuryDays, ← yearDays]
    ring
  · intro last
    have leap := year.2.2.2.2 last
    exact ⟨leap.1, fun centuryEnd => century.2.2 (leap.2 centuryEnd)⟩

/-- The month of a day of the year. -/
theorem month_bounds {e : ℤ} (notNegative : 0 ≤ e) (notGreater : e ≤ 365) :
    0 ≤ (5 * e + 2) / 153 ∧ (5 * e + 2) / 153 ≤ 11 := by
  omega

/-- The years of a century, counted with their leap days. -/
theorem yearCount {b d : ℤ} (notNegative : 0 ≤ d) (notGreater : d ≤ 99) :
    365 * (100 * b + d) + (100 * b + d) / 4 - (100 * b + d) / 100 + (100 * b + d) / 400 =
      36524 * b + b / 4 + (365 * d + d / 4) := by
  have quarters : (100 * b + d) / 4 = 25 * b + d / 4 := by omega
  have centuries : (100 * b + d) / 100 = b := by omega
  have cycles : (100 * b + d) / 400 = b / 4 := by omega
  rw [quarters, centuries, cycles]
  ring

/-- A day number is the number of its date. -/
theorem dayNumber_fromDayNumber (number : ℤ) : dayNumber (fromDayNumber number) = number := by
  rcases exists_parts number with ⟨b, d, e, parts, date⟩
  have month := month_bounds parts.e_nonneg parts.e_le
  rw [date]
  simp only [dayNumber]
  generalize (5 * e + 2) / 153 = m at month ⊢
  have january : (14 - (m + 3 - 12 * (m / 10))) / 12 = m / 10 := by omega
  have fromMarch : m + 3 - 12 * (m / 10) + 12 * (m / 10) - 3 = m := by ring
  have years : 100 * b + d - 4800 + m / 10 + 4800 - m / 10 = 100 * b + d := by ring
  rw [january, fromMarch, years]
  have count := yearCount (b := b) parts.d_nonneg parts.d_le
  have number_eq := parts.number_eq
  linarith

/-- A date of the calendar. -/
structure Valid (date : Date) : Prop where
  month_pos : 1 ≤ date.month
  month_le : date.month ≤ 12
  day_pos : 1 ≤ date.day
  day_le : date.day ≤ endOfMonthDay date.year date.month

/-- The year that ends with the leap day is a leap year. -/
theorem isLeapYear_of_leapDay {b d : ℤ} (notNegative : 0 ≤ d) (notGreater : d ≤ 99)
    (fourth : d % 4 = 3) (centuryEnd : d = 99 → b % 4 = 3) :
    isLeapYear (100 * b + d - 4800 + 1) = true := by
  have divided : (100 * b + d - 4800 + 1) % 4 = 0 := by omega
  have century : (100 * b + d - 4800 + 1) % 100 ≠ 0 ∨ (100 * b + d - 4800 + 1) % 400 = 0 := by
    by_cases last : d = 99
    · have third := centuryEnd last
      omega
    · omega
  simpa [isLeapYear, divided] using century

/-- A day number has a date of the calendar. -/
theorem fromDayNumber_valid (number : ℤ) : Valid (fromDayNumber number) := by
  rcases exists_parts number with ⟨b, d, e, parts, date⟩
  have month := month_bounds parts.e_nonneg parts.e_le
  have lower : 153 * ((5 * e + 2) / 153) ≤ 5 * e + 2 := Int.mul_ediv_self_le (by decide)
  have upper : 5 * e + 2 < 153 * ((5 * e + 2) / 153) + 153 := Int.lt_mul_ediv_self_add (by decide)
  have e_le := parts.e_le
  rw [date]
  generalize (5 * e + 2) / 153 = m at month lower upper ⊢
  rcases month with ⟨first, last⟩
  by_cases february : m = 11
  · subst february
    have leapDay : e = 365 → isLeapYear (100 * b + d - 4800 + 1) = true := by
      intro same
      have leap := parts.leap same
      exact isLeapYear_of_leapDay parts.d_nonneg parts.d_le leap.1 leap.2
    constructor <;> simp only [endOfMonthDay] <;> norm_num
    · linarith
    · split
      · linarith
      · rename_i notLeap
        have notLast : e ≠ 365 := fun same => notLeap (leapDay same)
        omega
  · constructor <;> simp only [endOfMonthDay] <;> interval_cases m <;> norm_num <;> omega

end Calendar
