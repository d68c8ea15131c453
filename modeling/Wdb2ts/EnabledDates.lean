import Wdb2ts.CyclicPeriods

/-!
# The dates of enabled periods

A period of two month-days is computed from four dates of the year of the reference time and of
the next year.  The day of a month-day is fitted to its month in one of the years, and the date is
built in the other one.
-/

namespace Wdb2ts

namespace miutil

namespace EnableTimePeriod

variable {period : EnableTimePeriod}

/-- The period and the test of a time are computed without an exception. -/
def NeverThrows (period : EnableTimePeriod) (t : PTime) (refTime : Calendar.Date) : Prop :=
  (∃ p, period.enabledPeriod refTime = .ok p) ∧ ∃ enabled, period.isEnabled t refTime = .ok enabled

/-- What a period that ends in the next year needs for its dates to exist: the next year is in the
range, and no fitted day is a leap day of the other year. -/
structure DatesExist (period : EnableTimePeriod) (year : ℤ) : Prop where
  notLastYear : year < 9999
  endExists : period.toMonth = 2 → 28 < period.toDay → Calendar.isLeapYear year = false
  beginExists : period.fromMonth = 2 → 28 < period.fromDay →
    Calendar.isLeapYear (year + 1) = false

/-- The test of a time throws only when the period does. -/
theorem neverThrows_iff_enabledPeriod (valid : period.valid = true) (t : PTime)
    (refTime : Calendar.Date) :
    period.NeverThrows t refTime ↔ ∃ p, period.enabledPeriod refTime = .ok p := by
  refine ⟨And.left, ?_⟩
  rintro ⟨p, isPeriod⟩
  refine ⟨⟨p, isPeriod⟩, p.isNull || p.contains (startOfDate t), ?_⟩
  rw [isEnabled, valid, isPeriod]
  rfl

/-- A period that ends in the year in which it begins has its dates in all years. -/
theorem exists_periodBetween_same (monthDays : period.IsMonthDays) {year : ℤ}
    (lower : 1400 ≤ year) (upper : year ≤ 9999) : ∃ p, period.periodBetween year year = .ok p := by
  refine ⟨_, (periodBetween_eq_ok_iff monthDays lower upper le_rfl).mpr ⟨upper, ?_, ?_, rfl⟩⟩
  · exact valid_snapped monthDays.fromMonth_pos monthDays.fromMonth_le monthDays.fromDay_pos
  · exact valid_snapped monthDays.toMonth_pos monthDays.toMonth_le monthDays.toDay_pos

theorem exists_periodBetween_next_iff (monthDays : period.IsMonthDays) {year : ℤ}
    (lower : 1400 ≤ year) (upper : year ≤ 9999) :
    (∃ p, period.periodBetween year (year + 1) = .ok p) ↔ period.DatesExist year := by
  have notEarlier : year ≤ year + 1 := by omega
  constructor
  · rintro ⟨p, isPeriod⟩
    obtain ⟨nextUpper, beginValid, endValid, -⟩ :=
      (periodBetween_eq_ok_iff monthDays lower upper notEarlier).mp isPeriod
    exact {
      notLastYear := by omega
      endExists := (valid_ends_iff monthDays year).mp endValid
      beginExists := (valid_begins_iff monthDays year).mp beginValid }
  · intro exist
    have notLastYear := exist.notLastYear
    exact ⟨_, (periodBetween_eq_ok_iff monthDays lower upper notEarlier).mpr ⟨by omega,
      (valid_begins_iff monthDays year).mpr exist.beginExists,
      (valid_ends_iff monthDays year).mpr exist.endExists, rfl⟩⟩

/-- An accepted specification never throws exactly when it is that of all days, it ends in the
year in which it begins, or its dates exist. -/
theorem neverThrows_iff {text : Bytes} (accepted : (parse text).valid = true)
    {refTime : Calendar.Date} (lower : 1400 ≤ refTime.year) (upper : refTime.year ≤ 9999)
    (t : PTime) :
    (parse text).NeverThrows t refTime ↔
      (0 < (parse text).fromDay → (parse text).outer = true →
        (parse text).DatesExist refTime.year) := by
  have notNegative : ¬(parse text).fromDay < 0 := by
    rw [valid, decide_eq_true_eq] at accepted
    omega
  rw [neverThrows_iff_enabledPeriod accepted, enabledPeriod, if_neg notNegative]
  by_cases allDays : (parse text).fromDay = 0
  · rw [if_pos allDays]
    exact iff_of_true ⟨_, rfl⟩ fun positive => absurd allDays positive.ne'
  · have positive : 0 < (parse text).fromDay := by omega
    have monthDays := isMonthDays_of_parse positive
    rw [if_neg allDays]
    cases outer : (parse text).outer with
    | false =>
        rw [if_neg Bool.false_ne_true]
        exact iff_of_true (exists_periodBetween_same monthDays lower upper)
          fun _ isOuter => absurd isOuter Bool.false_ne_true
    | true =>
        rw [if_pos rfl, exists_periodBetween_next_iff monthDays lower upper]
        exact ⟨fun exist _ _ => exist, fun exist => exist positive rfl⟩

theorem neverThrows_iff_winter :
    (parse (Bytes.str "Oct-1/Feb-28")).NeverThrows (.ticks firstOfJune) ⟨2014, 6, 1⟩ ↔
      (0 < (parse (Bytes.str "Oct-1/Feb-28")).fromDay →
        (parse (Bytes.str "Oct-1/Feb-28")).outer = true →
          (parse (Bytes.str "Oct-1/Feb-28")).DatesExist 2014) :=
  neverThrows_iff (by decide +kernel) (by decide) (by decide) _

/-- In a leap year a period up to the end of February ends on a leap day of the next year. -/
theorem not_neverThrows_leapDay :
    (parse (Bytes.str "Oct-1/Feb-29")).valid = true ∧
      (parse (Bytes.str "Oct-1/Feb-29")).enabledPeriod ⟨2012, 6, 1⟩ =
        .error (Bytes.str "Day of month is not valid for year") ∧
      ¬(parse (Bytes.str "Oct-1/Feb-29")).NeverThrows (.ticks firstOfJune) ⟨2012, 6, 1⟩ := by
  have throws : (parse (Bytes.str "Oct-1/Feb-29")).enabledPeriod ⟨2012, 6, 1⟩ =
      .error (Bytes.str "Day of month is not valid for year") := by
    decide +kernel
  refine ⟨by decide +kernel, throws, ?_⟩
  rintro ⟨⟨p, isPeriod⟩, -⟩
  rw [throws] at isPeriod
  cases isPeriod

end EnableTimePeriod

end miutil

end Wdb2ts
