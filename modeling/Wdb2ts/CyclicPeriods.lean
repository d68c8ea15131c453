import Wdb2ts.EnableTimePeriod
import Wdb2ts.IsoTimes
import Wdb2ts.Lib.Fallible

/-!
# Enabled periods around the year

A specification of two month-days stands for a cyclic interval of the year.  The period that the
code compares a date with begins in the year of the date, so a period that ends in the next year
misses the days before its second month-day.
-/

namespace Wdb2ts

namespace miutil

/-- The elements from a first one up to a second one, around the end of the order when the second
one comes first. -/
def InCycle {α : Type} [LinearOrder α] (first second point : α) : Prop :=
  if first ≤ second then first ≤ point ∧ point < second else first ≤ point ∨ point < second

instance {α : Type} [LinearOrder α] (first second point : α) :
    Decidable (InCycle first second point) :=
  inferInstanceAs (Decidable
    (if first ≤ second then first ≤ point ∧ point < second else first ≤ point ∨ point < second))

/-- A period that begins before its first element agrees with the cyclic interval outside of the
elements in between and of those before the second one. -/
theorem inCycle_iff_begin_le {α : Type} [LinearOrder α] {first second begin_ point : α}
    (less : second < first) (behind : second ≤ begin_) (early : begin_ ≤ first) :
    (InCycle first second point ↔ begin_ ≤ point) ↔
      second ≤ point ∧ ¬(begin_ ≤ point ∧ point < first) := by
  rw [InCycle, if_neg less.not_ge]
  constructor
  · intro agree
    have notBefore : second ≤ point := by
      by_contra before
      have inPeriod := agree.mp (Or.inr (not_le.mp before))
      exact before (behind.trans inPeriod)
    refine ⟨notBefore, fun between => ?_⟩
    rcases agree.mpr between.1 with inside | before
    · exact inside.not_gt between.2
    · exact before.not_ge notBefore
  · rintro ⟨notBefore, notBetween⟩
    constructor
    · intro inside
      rcases inside with behindFirst | before
      · exact early.trans behindFirst
      · exact absurd before notBefore.not_gt
    · intro inPeriod
      exact Or.inl (not_lt.mp fun less => notBetween ⟨inPeriod, less⟩)

/-- A month and a day, in the order of the year. -/
abbrev MonthDay := ℤ ×ₗ ℤ

/-- The month and the day of a date. -/
def monthDay (date : Calendar.Date) : MonthDay := toLex (date.month, date.day)

/-- Dates of one year are in the order of their month-days. -/
theorem dayNumber_lt_iff_monthDay {date other : Calendar.Date} (valid : Calendar.Valid date)
    (otherValid : Calendar.Valid other) (sameYear : date.year = other.year) :
    Calendar.dayNumber date < Calendar.dayNumber other ↔ monthDay date < monthDay other := by
  rw [Calendar.dayNumber_lt_iff valid otherValid, Calendar.monthNumber, Calendar.monthNumber,
    monthDay, monthDay, Prod.Lex.toLex_lt_toLex, sameYear]
  omega

namespace EnableTimePeriod

variable {period : EnableTimePeriod}

/-- The first month-day in a year. -/
def first (period : EnableTimePeriod) (year : ℤ) : MonthDay :=
  toLex (period.fromMonth, min period.fromDay (Calendar.endOfMonthDay year period.fromMonth))

/-- The second month-day in a year. -/
def second (period : EnableTimePeriod) (year : ℤ) : MonthDay :=
  toLex (period.toMonth, min period.toDay (Calendar.endOfMonthDay year period.toMonth))

/-- On a date a period is enabled exactly when the date lies in its cyclic interval. -/
def CorrectOn (period : EnableTimePeriod) (t : PTime) (date : Calendar.Date) : Prop :=
  period.isEnabled t date =
    .ok (decide (InCycle (period.first date.year) (period.second date.year) (monthDay date)))

/-- A period of two month-days. -/
structure IsMonthDays (period : EnableTimePeriod) : Prop where
  fromDay_pos : 1 ≤ period.fromDay
  fromDay_le : period.fromDay ≤ 31
  fromMonth_pos : 1 ≤ period.fromMonth
  fromMonth_le : period.fromMonth ≤ 12
  toDay_pos : 1 ≤ period.toDay
  toDay_le : period.toDay ≤ 31
  toMonth_pos : 1 ≤ period.toMonth
  toMonth_le : period.toMonth ≤ 12

/-- An accepted specification, other than that of all days, has two month-days. -/
theorem isMonthDays_of_parse {text : Bytes} (accepted : 0 < (parse text).fromDay) :
    (parse text).IsMonthDays := by
  dsimp only [parse] at accepted ⊢
  split at accepted
  · exact absurd accepted (by decide)
  next notAll =>
  rw [if_neg notAll]
  split at accepted
  · split at accepted
    · split at accepted
      · next ranges =>
          simp only [inRange, Bool.and_eq_true, decide_eq_true_eq] at ranges
          rw [if_pos (by simpa only [inRange, Bool.and_eq_true, decide_eq_true_eq] using ranges)]
          obtain ⟨⟨⟨⟨fromPos, fromLe⟩, fromMonthPos⟩, fromMonthLe⟩,
            ⟨⟨toPos, toLe⟩, toMonthPos⟩, toMonthLe⟩ := ranges
          exact ⟨fromPos, fromLe, fromMonthPos, fromMonthLe, toPos, toLe, toMonthPos, toMonthLe⟩
      · exact absurd accepted (by decide)
    · exact absurd accepted (by decide)
  · exact absurd accepted (by decide)

/-! ## Month-days in a year -/

/-- The date of a month-day in a year. -/
theorem valid_snapped {year month day : ℤ} (monthPos : 1 ≤ month) (monthLe : month ≤ 12)
    (dayPos : 1 ≤ day) :
    Calendar.Valid ⟨year, month, min day (Calendar.endOfMonthDay year month)⟩ where
  month_pos := monthPos
  month_le := monthLe
  day_pos := le_min dayPos (by have := Calendar.endOfMonthDay_pos year month; omega)
  day_le := min_le_right _ _

/-- The two month-days are in the order of the specification. -/
theorem second_le_first (outer : period.outer = true) (year : ℤ) :
    period.second year ≤ period.first year := by
  simp only [EnableTimePeriod.outer, Bool.or_eq_true, Bool.and_eq_true, decide_eq_true_eq] at outer
  rw [first, second, Prod.Lex.toLex_le_toLex]
  rcases outer with later | ⟨same, later⟩
  · exact Or.inl later
  · exact Or.inr ⟨same.symm, same ▸ min_le_min_right _ later.le⟩

theorem first_le_second (inner : period.outer = false) (year : ℤ) :
    period.first year ≤ period.second year := by
  simp only [EnableTimePeriod.outer, Bool.or_eq_false_iff, Bool.and_eq_false_iff,
    decide_eq_false_iff_not, not_lt] at inner
  rw [first, second, Prod.Lex.toLex_le_toLex]
  rcases lt_or_eq_of_le inner.1 with earlier | same
  · exact Or.inl earlier
  · exact Or.inr ⟨same, same ▸ min_le_min_right _ (inner.2.resolve_left (not_not.mpr same))⟩

/-! ## Periods of dates -/

/-- A date is in a period, or the period is empty. -/
theorem isNull_or_contains {begin_ end_ date : Calendar.Date} {microseconds : ℤ}
    (isDate : PTime.date microseconds = .ok date) :
    let p := DatePeriod.create (PTime.ofDate begin_ 0) (PTime.ofDate end_ 0)
    (p.isNull || p.contains (startOfDate (.ticks microseconds))) =
      decide (Calendar.dayNumber end_ ≤ Calendar.dayNumber begin_ ∨
        Calendar.dayNumber begin_ ≤ Calendar.dayNumber date ∧
          Calendar.dayNumber date < Calendar.dayNumber end_) := by
  have number := (PTime.date_eq_ok isDate).2.2.2
  simp only [DatePeriod.create, DatePeriod.isNull, DatePeriod.contains, PTime.ofDate, PTime.sub,
    startOfDate, PTime.startOfDay, PTime.ticks_lt_ticks, PTime.ticks_le_ticks]
  rw [← Bool.decide_and, ← Bool.decide_or, decide_eq_decide, number]
  simp only [PTime.dayLength]
  omega

/-- The first day of the period that begins in a year and ends in another one. -/
def begins (period : EnableTimePeriod) (year toYear : ℤ) : Calendar.Date :=
  ⟨year, period.fromMonth,
    min period.fromDay (Calendar.endOfMonthDay toYear period.fromMonth)⟩

/-- The day behind the period that begins in a year and ends in another one. -/
def ends (period : EnableTimePeriod) (year toYear : ℤ) : Calendar.Date :=
  ⟨toYear, period.toMonth, min period.toDay (Calendar.endOfMonthDay year period.toMonth)⟩

/-- There is a period exactly when its first day and the day behind it exist. -/
theorem periodBetween_eq_ok_iff (monthDays : period.IsMonthDays) {year toYear : ℤ}
    (lower : 1400 ≤ year) (upper : year ≤ 9999) (notEarlier : year ≤ toYear) {p : DatePeriod} :
    period.periodBetween year toYear = .ok p ↔
      toYear ≤ 9999 ∧ Calendar.Valid (period.begins year toYear) ∧
        Calendar.Valid (period.ends year toYear) ∧
          p = DatePeriod.create (PTime.ofDate (period.begins year toYear) 0)
            (PTime.ofDate (period.ends year toYear) 0) := by
  constructor
  · intro found
    rw [periodBetween] at found
    obtain ⟨dTo, isTo, found⟩ := Fallible.exists_of_bind_eq_ok found
    obtain ⟨dFrom, isFrom, found⟩ := Fallible.exists_of_bind_eq_ok found
    obtain ⟨-, -, -, rfl⟩ := PTime.gregorianDate_eq_ok_iff.mp isTo
    obtain ⟨-, toUpper, -, rfl⟩ := PTime.gregorianDate_eq_ok_iff.mp isFrom
    obtain ⟨begin_, isBegin, found⟩ := Fallible.exists_of_bind_eq_ok found
    obtain ⟨end_, isEnd, found⟩ := Fallible.exists_of_bind_eq_ok found
    obtain ⟨-, -, beginValid, rfl⟩ := PTime.gregorianDate_eq_ok_iff.mp isBegin
    obtain ⟨-, -, endValid, rfl⟩ := PTime.gregorianDate_eq_ok_iff.mp isEnd
    cases found
    exact ⟨toUpper, beginValid, endValid, rfl⟩
  · rintro ⟨toUpper, beginValid, endValid, rfl⟩
    have toLower : 1400 ≤ toYear := lower.trans notEarlier
    have toMonth : PTime.gregorianDate year period.toMonth 1 = .ok ⟨year, period.toMonth, 1⟩ :=
      PTime.gregorianDate_eq_ok_iff.mpr ⟨lower, upper,
        ⟨monthDays.toMonth_pos, monthDays.toMonth_le, le_rfl,
          (by decide : (1 : ℤ) ≤ 28).trans (Calendar.endOfMonthDay_pos _ _)⟩, rfl⟩
    have fromMonth : PTime.gregorianDate toYear period.fromMonth 1 =
        .ok ⟨toYear, period.fromMonth, 1⟩ :=
      PTime.gregorianDate_eq_ok_iff.mpr ⟨toLower, toUpper,
        ⟨monthDays.fromMonth_pos, monthDays.fromMonth_le, le_rfl,
          (by decide : (1 : ℤ) ≤ 28).trans (Calendar.endOfMonthDay_pos _ _)⟩, rfl⟩
    have isBegin := PTime.gregorianDate_eq_ok_iff.mpr ⟨lower, upper, beginValid, rfl⟩
    have isEnd := PTime.gregorianDate_eq_ok_iff.mpr ⟨toLower, toUpper, endValid, rfl⟩
    rw [periodBetween, toMonth, fromMonth]
    simp only [bind, Except.bind, isBegin, isEnd]
    rfl

/-- What the code computes for a period of two month-days. -/
theorem isEnabled_eq_ok_iff (monthDays : period.IsMonthDays) {microseconds : ℤ}
    {date : Calendar.Date} (isDate : PTime.date microseconds = .ok date) {toYear : ℤ}
    (isToYear : toYear = if period.outer then date.year + 1 else date.year) {enabled : Bool} :
    period.isEnabled (.ticks microseconds) date = .ok enabled ↔
      toYear ≤ 9999 ∧ Calendar.Valid (period.begins date.year toYear) ∧
        Calendar.Valid (period.ends date.year toYear) ∧
          enabled = decide
            (Calendar.dayNumber (period.ends date.year toYear) ≤
                Calendar.dayNumber (period.begins date.year toYear) ∨
              Calendar.dayNumber (period.begins date.year toYear) ≤ Calendar.dayNumber date ∧
                Calendar.dayNumber date < Calendar.dayNumber (period.ends date.year toYear)) := by
  obtain ⟨lower, upper, -, -⟩ := PTime.date_eq_ok isDate
  have positive := monthDays.fromDay_pos
  have isValid : period.valid = true := by
    rw [valid, decide_eq_true_eq]
    omega
  have between : period.enabledPeriod date = period.periodBetween date.year toYear := by
    rw [enabledPeriod, if_neg (by omega), if_neg (by omega), isToYear]
    split <;> rfl
  have notEarlier : date.year ≤ toYear := by
    rw [isToYear]
    split <;> omega
  rw [isEnabled, isValid, between]
  constructor
  · intro found
    obtain ⟨p, isPeriod, found⟩ := Fallible.exists_of_bind_eq_ok found
    obtain ⟨toUpper, beginValid, endValid, rfl⟩ :=
      (periodBetween_eq_ok_iff monthDays lower upper notEarlier).mp isPeriod
    refine ⟨toUpper, beginValid, endValid, ?_⟩
    rw [← isNull_or_contains isDate]
    exact (Except.ok.inj found).symm
  · rintro ⟨toUpper, beginValid, endValid, rfl⟩
    rw [(periodBetween_eq_ok_iff monthDays lower upper notEarlier).mpr
      ⟨toUpper, beginValid, endValid, rfl⟩, ← isNull_or_contains isDate]
    rfl

/-! ## Leap days -/

theorem endOfMonthDay_of_ne {month : ℤ} (notFebruary : month ≠ 2) (year other : ℤ) :
    Calendar.endOfMonthDay year month = Calendar.endOfMonthDay other month := by
  rw [Calendar.endOfMonthDay, Calendar.endOfMonthDay, if_neg notFebruary, if_neg notFebruary]

theorem endOfMonthDay_february (year : ℤ) :
    Calendar.endOfMonthDay year 2 = if Calendar.isLeapYear year then 29 else 28 := rfl

theorem not_isLeapYear_succ {year : ℤ} (leap : Calendar.isLeapYear year = true) :
    Calendar.isLeapYear (year + 1) = false := by
  simp only [Calendar.isLeapYear, Bool.and_eq_true, decide_eq_true_eq] at leap
  simp only [Calendar.isLeapYear, Bool.and_eq_false_iff, decide_eq_false_iff_not]
  omega

/-- The last day of a month in a year exists in another year unless it is a leap day. -/
theorem valid_snapped_iff {year other month day : ℤ} (monthPos : 1 ≤ month) (monthLe : month ≤ 12)
    (dayPos : 1 ≤ day) :
    Calendar.Valid ⟨other, month, min day (Calendar.endOfMonthDay year month)⟩ ↔
      (month = 2 → 28 < day → Calendar.isLeapYear year = true →
        Calendar.isLeapYear other = true) := by
  by_cases february : month = 2
  · subst february
    constructor
    · intro valid _ leapDay leap
      have exists_ : min day (Calendar.endOfMonthDay year 2) ≤ Calendar.endOfMonthDay other 2 :=
        valid.day_le
      by_contra noLeap
      rw [endOfMonthDay_february, endOfMonthDay_february, if_pos leap, if_neg noLeap] at exists_
      omega
    · intro leaps
      refine ⟨monthPos, monthLe, le_min dayPos ?_, ?_⟩
      · exact (by decide : (1 : ℤ) ≤ 28).trans (Calendar.endOfMonthDay_pos _ _)
      · rw [endOfMonthDay_february, endOfMonthDay_february]
        cases leap : Calendar.isLeapYear year with
        | false =>
            simp only [Bool.false_eq_true, if_false]
            split <;> omega
        | true =>
            by_cases leapDay : 28 < day
            · simp [leaps rfl leapDay leap]
            · simp only [if_true]
              split <;> omega
  · rw [endOfMonthDay_of_ne february year other]
    exact iff_of_true (valid_snapped monthPos monthLe dayPos)
      fun isFebruary => absurd isFebruary february

/-! ## Periods in one year -/

/-- A period that ends in its year is the interval between its month-days. -/
theorem correctOn_of_inner (monthDays : period.IsMonthDays) {microseconds : ℤ}
    {date : Calendar.Date} (isDate : PTime.date microseconds = .ok date)
    (differ : period.first date.year ≠ period.second date.year) (inner : period.outer = false) :
    period.CorrectOn (.ticks microseconds) date := by
  obtain ⟨-, upper, dateValid, -⟩ := PTime.date_eq_ok isDate
  have beginValid : Calendar.Valid (period.begins date.year date.year) :=
    valid_snapped monthDays.fromMonth_pos monthDays.fromMonth_le monthDays.fromDay_pos
  have endValid : Calendar.Valid (period.ends date.year date.year) :=
    valid_snapped monthDays.toMonth_pos monthDays.toMonth_le monthDays.toDay_pos
  have less := lt_of_le_of_ne (first_le_second inner date.year) differ
  have behindBegin := dayNumber_lt_iff_monthDay dateValid beginValid rfl
  have beforeEnd := dayNumber_lt_iff_monthDay dateValid endValid rfl
  have beginBeforeEnd := (dayNumber_lt_iff_monthDay beginValid endValid rfl).mpr less
  have isToYear : date.year = if period.outer then date.year + 1 else date.year := by
    rw [inner]
    rfl
  rw [CorrectOn, isEnabled_eq_ok_iff monthDays isDate isToYear]
  refine ⟨upper, beginValid, endValid, ?_⟩
  rw [decide_eq_decide, InCycle, if_pos less.le, or_iff_right beginBeforeEnd.not_ge, beforeEnd,
    ← not_lt, ← not_lt, behindBegin]
  rfl

/-! ## Periods that go on in the next year -/

/-- What a period that ends in the next year needs to be right on a date: the date is not in the
part that belongs to the period of the year before, and the leap days do not matter. -/
structure RightOn (period : EnableTimePeriod) (date : Calendar.Date) : Prop where
  notInEnd : period.second date.year ≤ monthDay date
  notLastYear : date.year < 9999
  endExists : period.toMonth = 2 → 28 < period.toDay → Calendar.isLeapYear date.year = false
  beginExists : period.fromMonth = 2 → 28 < period.fromDay →
    Calendar.isLeapYear (date.year + 1) = false
  notBeforeLeapDay : period.fromMonth = 2 → 28 < period.fromDay →
    Calendar.isLeapYear date.year = true → monthDay date ≠ toLex (2, 28)

/-- The first day of a period that ends in the next year exists unless it would be a leap day of
that year. -/
theorem valid_begins_iff (monthDays : period.IsMonthDays) (year : ℤ) :
    Calendar.Valid (period.begins year (year + 1)) ↔
      (period.fromMonth = 2 → 28 < period.fromDay → Calendar.isLeapYear (year + 1) = false) := by
  rw [begins, valid_snapped_iff monthDays.fromMonth_pos monthDays.fromMonth_le
    monthDays.fromDay_pos]
  constructor
  · intro leaps february leapDay
    by_contra leap
    have leapNext := (Bool.not_eq_false _).mp leap
    exact leap (not_isLeapYear_succ (leaps february leapDay leapNext))
  · intro noLeap february leapDay leap
    exact absurd leap (Bool.eq_false_iff.mp (noLeap february leapDay))

/-- The day behind a period that ends in the next year exists unless it would be a leap day of
this year. -/
theorem valid_ends_iff (monthDays : period.IsMonthDays) (year : ℤ) :
    Calendar.Valid (period.ends year (year + 1)) ↔
      (period.toMonth = 2 → 28 < period.toDay → Calendar.isLeapYear year = false) := by
  rw [ends, valid_snapped_iff monthDays.toMonth_pos monthDays.toMonth_le monthDays.toDay_pos]
  constructor
  · intro leaps february leapDay
    by_contra leap
    have leapYear := (Bool.not_eq_false _).mp leap
    have leapNext := leaps february leapDay leapYear
    rw [not_isLeapYear_succ leapYear] at leapNext
    cases leapNext
  · intro noLeap february leapDay leap
    exact absurd leap (Bool.eq_false_iff.mp (noLeap february leapDay))

/-- The first day of a period that ends in the next year is the first month-day, or the day before
it when that is a leap day. -/
theorem monthDay_begins (monthDays : period.IsMonthDays) {year : ℤ}
    (valid : Calendar.Valid (period.begins year (year + 1))) :
    monthDay (period.begins year (year + 1)) =
      if period.fromMonth = 2 ∧ 28 < period.fromDay ∧ Calendar.isLeapYear year then
        toLex (2, 28) else period.first year := by
  have noLeap := (valid_begins_iff monthDays year).mp valid
  rw [monthDay, begins, first]
  by_cases february : period.fromMonth = 2
  · by_cases leapDay : 28 < period.fromDay
    · have nextFebruary : Calendar.endOfMonthDay (year + 1) 2 = 28 := by
        rw [endOfMonthDay_february, noLeap february leapDay]
        rfl
      by_cases leap : Calendar.isLeapYear year = true
      · rw [if_pos ⟨february, leapDay, leap⟩, february, nextFebruary, min_eq_right leapDay.le]
      · rw [if_neg fun leapYear => leap leapYear.2.2, february, nextFebruary,
          endOfMonthDay_february, if_neg leap]
    · have small (year : ℤ) :
          min period.fromDay (Calendar.endOfMonthDay year period.fromMonth) = period.fromDay :=
        min_eq_left ((not_lt.mp leapDay).trans (Calendar.endOfMonthDay_pos _ _))
      rw [if_neg fun leapYear => leapDay leapYear.2.1, small, small]
  · rw [if_neg fun leapYear => february leapYear.1, endOfMonthDay_of_ne february]

/-- There is no month-day between the last two days of a leap year's February. -/
theorem lt_leapDay_iff (point : MonthDay) : point < toLex (2, 29) ↔ point ≤ toLex (2, 28) := by
  rw [← toLex_ofLex point, Prod.Lex.toLex_lt_toLex, Prod.Lex.toLex_le_toLex]
  omega

/-- A first month-day on a leap day is its last day of February. -/
theorem first_leapDay {year : ℤ} (february : period.fromMonth = 2) (leapDay : 28 < period.fromDay)
    (leap : Calendar.isLeapYear year = true) : period.first year = toLex (2, 29) := by
  rw [first, february, endOfMonthDay_february, if_pos leap, min_eq_right (by omega)]

/-- The days of a year on which a period that ends in the next year is enabled too early: the day
before a leap day. -/
theorem begins_le_and_lt_first_iff (monthDays : period.IsMonthDays) {year : ℤ}
    (valid : Calendar.Valid (period.begins year (year + 1))) (point : MonthDay) :
    monthDay (period.begins year (year + 1)) ≤ point ∧ point < period.first year ↔
      period.fromMonth = 2 ∧ 28 < period.fromDay ∧ Calendar.isLeapYear year = true ∧
        point = toLex (2, 28) := by
  rw [monthDay_begins monthDays valid]
  split
  · next leapYear =>
      obtain ⟨february, leapDay, leap⟩ := leapYear
      rw [first_leapDay february leapDay leap, lt_leapDay_iff]
      constructor
      · intro between
        exact ⟨february, leapDay, leap, le_antisymm between.2 between.1⟩
      · rintro ⟨-, -, -, rfl⟩
        exact ⟨le_rfl, le_rfl⟩
  · next noLeapYear =>
      constructor
      · intro between
        exact absurd between.2 between.1.not_gt
      · rintro ⟨february, leapDay, leap, -⟩
        exact absurd ⟨february, leapDay, leap⟩ noLeapYear

/-- The first day of a period that ends in the next year is between the two month-days. -/
theorem second_le_begins (monthDays : period.IsMonthDays) {year : ℤ}
    (valid : Calendar.Valid (period.begins year (year + 1)))
    (less : period.second year < period.first year) :
    period.second year ≤ monthDay (period.begins year (year + 1)) := by
  rw [monthDay_begins monthDays valid]
  split
  · next leapYear =>
      rw [first_leapDay leapYear.1 leapYear.2.1 leapYear.2.2] at less
      exact (lt_leapDay_iff _).mp less
  · exact less.le

theorem begins_le_first (monthDays : period.IsMonthDays) {year : ℤ}
    (valid : Calendar.Valid (period.begins year (year + 1))) :
    monthDay (period.begins year (year + 1)) ≤ period.first year := by
  rw [monthDay_begins monthDays valid]
  split
  · next leapYear =>
      rw [first_leapDay leapYear.1 leapYear.2.1 leapYear.2.2]
      exact ((lt_leapDay_iff _).mpr le_rfl).le
  · exact le_rfl

/-- A period that ends in the next year is right on a date exactly when `RightOn` holds. -/
theorem correctOn_iff_of_outer (monthDays : period.IsMonthDays) {microseconds : ℤ}
    {date : Calendar.Date} (isDate : PTime.date microseconds = .ok date)
    (differ : period.first date.year ≠ period.second date.year) (outer : period.outer = true) :
    period.CorrectOn (.ticks microseconds) date ↔ period.RightOn date := by
  obtain ⟨-, upper, dateValid, -⟩ := PTime.date_eq_ok isDate
  have less := lt_of_le_of_ne (second_le_first outer date.year) differ.symm
  have isToYear : date.year + 1 = if period.outer then date.year + 1 else date.year := by
    rw [outer]
    rfl
  have agree (beginValid : Calendar.Valid (period.begins date.year (date.year + 1)))
      (endValid : Calendar.Valid (period.ends date.year (date.year + 1))) :
      decide (InCycle (period.first date.year) (period.second date.year) (monthDay date)) =
          decide
            (Calendar.dayNumber (period.ends date.year (date.year + 1)) ≤
                Calendar.dayNumber (period.begins date.year (date.year + 1)) ∨
              Calendar.dayNumber (period.begins date.year (date.year + 1)) ≤
                  Calendar.dayNumber date ∧
                Calendar.dayNumber date <
                  Calendar.dayNumber (period.ends date.year (date.year + 1))) ↔
        period.second date.year ≤ monthDay date ∧
          ¬(period.fromMonth = 2 ∧ 28 < period.fromDay ∧
            Calendar.isLeapYear date.year = true ∧ monthDay date = toLex (2, 28)) := by
    have behindBegin := dayNumber_lt_iff_monthDay dateValid beginValid rfl
    have nextYear (earlier : Calendar.Date) (earlierValid : Calendar.Valid earlier)
        (sameYear : earlier.year = date.year) : Calendar.dayNumber earlier <
          Calendar.dayNumber (period.ends date.year (date.year + 1)) := by
      refine Calendar.dayNumber_lt_of_month earlierValid endValid ?_
      have laterMonth := earlierValid.month_le
      have earlierMonth := endValid.month_pos
      dsimp only [Calendar.monthNumber, ends] at earlierMonth ⊢
      omega
    rw [decide_eq_decide, or_iff_right (nextYear _ beginValid rfl).not_ge,
      and_iff_left (nextYear date dateValid rfl), ← not_lt, behindBegin, not_lt,
      inCycle_iff_begin_le less (second_le_begins monthDays beginValid less)
        (begins_le_first monthDays beginValid),
      begins_le_and_lt_first_iff monthDays beginValid]
  rw [CorrectOn, isEnabled_eq_ok_iff monthDays isDate isToYear]
  constructor
  · rintro ⟨toUpper, beginValid, endValid, same⟩
    obtain ⟨notInEnd, notBefore⟩ := (agree beginValid endValid).mp same
    exact {
      notInEnd := notInEnd
      notLastYear := by omega
      endExists := (valid_ends_iff monthDays date.year).mp endValid
      beginExists := (valid_begins_iff monthDays date.year).mp beginValid
      notBeforeLeapDay := fun february leapDay leap isBefore =>
        notBefore ⟨february, leapDay, leap, isBefore⟩ }
  · intro right
    have beginValid := (valid_begins_iff monthDays date.year).mpr right.beginExists
    have endValid := (valid_ends_iff monthDays date.year).mpr right.endExists
    have notLastYear := right.notLastYear
    refine ⟨by omega, beginValid, endValid, (agree beginValid endValid).mpr ⟨right.notInEnd, ?_⟩⟩
    rintro ⟨february, leapDay, leap, isBefore⟩
    exact right.notBeforeLeapDay february leapDay leap isBefore

/-! ## Specifications of month-days -/

/-- The period of an accepted specification with different month-days is right on a date exactly
when it ends in its year or `RightOn` holds. -/
theorem isEnabled_iff {text : Bytes} (accepted : 0 < (parse text).fromDay) {microseconds : ℤ}
    {date : Calendar.Date} (isDate : PTime.date microseconds = .ok date)
    (differ : (parse text).first date.year ≠ (parse text).second date.year) :
    (parse text).CorrectOn (.ticks microseconds) date ↔
      ((parse text).outer = true → (parse text).RightOn date) := by
  have monthDays := isMonthDays_of_parse accepted
  cases outer : (parse text).outer with
  | false =>
      exact iff_of_true (correctOn_of_inner monthDays isDate differ outer)
        fun isOuter => absurd isOuter Bool.false_ne_true
  | true =>
      rw [correctOn_iff_of_outer monthDays isDate differ outer]
      exact ⟨fun right _ => right, fun right => right rfl⟩

/-- The first of June 2014, at midnight. -/
def firstOfJune : ℤ := 1401580800000000

theorem isEnabled_iff_summer :
    (parse (Bytes.str "May-1/Aug-1")).CorrectOn (.ticks firstOfJune) ⟨2014, 6, 1⟩ ↔
      ((parse (Bytes.str "May-1/Aug-1")).outer = true →
        (parse (Bytes.str "May-1/Aug-1")).RightOn ⟨2014, 6, 1⟩) :=
  isEnabled_iff (by decide +kernel) (by decide +kernel) (by decide +kernel)

/-- The fifteenth of January 2014, at midnight. -/
def middleOfJanuary : ℤ := 1389744000000000

/-- A date before the second month-day is not in the period that begins in its year. -/
theorem isEnabled_missesYearBefore :
    PTime.date middleOfJanuary = .ok ⟨2014, 1, 15⟩ ∧
      (parse (Bytes.str "Aug-1/May-1")).first 2014 = toLex (8, 1) ∧
      (parse (Bytes.str "Aug-1/May-1")).second 2014 = toLex (5, 1) ∧
      InCycle (toLex (8, 1) : MonthDay) (toLex (5, 1)) (monthDay ⟨2014, 1, 15⟩) ∧
      (parse (Bytes.str "Aug-1/May-1")).isEnabled (.ticks middleOfJanuary) ⟨2014, 1, 15⟩ =
        .ok false := by
  decide +kernel

end EnableTimePeriod

end miutil

end Wdb2ts
