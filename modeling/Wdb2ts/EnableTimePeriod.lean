import Mathlib.Data.Prod.Lex
import Wdb2ts.Lib.CalendarOrder
import Wdb2ts.PtimeUtil

/-!
# Enabled periods of the year

An `EnableTimePeriod` enables the days from a month-day to another one, which may be in the next
year.  A day behind the end of its month is its last day.
-/

namespace Wdb2ts

namespace miutil

/-! ## Specifications -/

/-- An `EnableTimePeriod`.  All days are enabled when `fromDay` is 0, and no day when it is
negative. -/
structure EnableTimePeriod where
  fromDay : ℤ
  fromMonth : ℤ
  toDay : ℤ
  toMonth : ℤ
  deriving DecidableEq, Repr

/-- `tolower` in the C locale. -/
def toLower (byte : Byte) : Byte :=
  if 65 ≤ byte.val ∧ byte.val ≤ 90 then Bytes.ofNat (byte.val + 32) else byte

/-- `getMonth`, with `strcasecmp`: the number of a month, or 0. -/
def getMonth (month : Bytes) : ℤ :=
  match months.findIdx? fun name => name.map toLower = (cString month).map toLower with
  | some i => i + 1
  | none => 0

namespace EnableTimePeriod

/-- `EnableTimePeriod()`. -/
def all : EnableTimePeriod := ⟨0, -1, -1, -1⟩

/-- `EnableTimePeriod( -1 )`. -/
def invalid : EnableTimePeriod := ⟨-1, -1, -1, -1⟩

/-- A month-day of `parse`: the month, and the day if it is a number. -/
def parseMonthDay (spec : List Bytes) : Option (ℤ × ℤ) :=
  match spec with
  | [month, day] => (lexicalCastInt (trim day)).map fun number => (getMonth (trim month), number)
  | _ => none

/-- The month and the day are in their ranges. -/
def inRange (monthDay : ℤ × ℤ) : Bool :=
  1 ≤ monthDay.2 && monthDay.2 ≤ 31 && 1 ≤ monthDay.1 && monthDay.1 ≤ 12

/-- `EnableTimePeriod::parse`. -/
def parse (duration_ : Bytes) : EnableTimePeriod :=
  let duration := trim duration_
  if duration.map toLower = Bytes.str "all" then all
  else
    match duration.splitOn (Bytes.chr '/') with
    | [from_, to_] =>
        match parseMonthDay ((trim from_).splitOn (Bytes.chr '-')),
          parseMonthDay ((trim to_).splitOn (Bytes.chr '-')) with
        | some first, some second =>
            if inRange first && inRange second then ⟨first.2, first.1, second.2, second.1⟩
            else invalid
        | _, _ => invalid
    | _ => invalid

/-- `EnableTimePeriod::valid`. -/
def valid (period : EnableTimePeriod) : Bool := period.fromDay > -1

/-! ## Periods of dates -/

/-- The `date` of a time, as the time at which it begins. -/
def startOfDate : PTime → PTime
  | .ticks microseconds => PTime.startOfDay microseconds
  | special => special

/-- A `date_period`, with its first and its last date. -/
structure DatePeriod where
  begin_ : PTime
  last_ : PTime
  deriving DecidableEq, Repr

/-- `date_period( begin, end )`. -/
def DatePeriod.create (begin_ end_ : PTime) : DatePeriod := ⟨begin_, end_.sub PTime.dayLength⟩

/-- `date_period::is_null`. -/
def DatePeriod.isNull (period : DatePeriod) : Bool := period.last_ < period.begin_

/-- `date_period::contains`. -/
def DatePeriod.contains (period : DatePeriod) (point : PTime) : Bool :=
  period.begin_ ≤ point && point ≤ period.last_

/-- The second month-day is in the next year. -/
def outer (period : EnableTimePeriod) : Bool :=
  period.fromMonth > period.toMonth ||
    period.fromMonth = period.toMonth && period.fromDay > period.toDay

/-- The period from the first month-day of a year to the second one of the same or the next year.
The end of the month of the first one is looked up in the year of the second one, and the other
way around. -/
def periodBetween (period : EnableTimePeriod) (year toYear : ℤ) : Except Bytes DatePeriod := do
  let dTo ← PTime.gregorianDate year period.toMonth 1
  let dFrom ← PTime.gregorianDate toYear period.fromMonth 1
  let tDay := min period.toDay (Calendar.endOfMonthDay dTo.year dTo.month)
  let fDay := min period.fromDay (Calendar.endOfMonthDay dFrom.year dFrom.month)
  let begin_ ← PTime.gregorianDate year period.fromMonth fDay
  let end_ ← PTime.gregorianDate toYear period.toMonth tDay
  return DatePeriod.create (PTime.ofDate begin_ 0) (PTime.ofDate end_ 0)

/-- `EnableTimePeriod::enabledPeriod`, or the text of the exception of a date that does not
exist. -/
def enabledPeriod (period : EnableTimePeriod) (refTime : Calendar.Date) :
    Except Bytes DatePeriod :=
  if period.fromDay < 0 then return DatePeriod.create .posInfinity .negInfinity
  else if period.fromDay = 0 then return DatePeriod.create .negInfinity .posInfinity
  else if period.outer then period.periodBetween refTime.year (refTime.year + 1)
  else period.periodBetween refTime.year refTime.year

/-- `EnableTimePeriod::isEnabled`. -/
def isEnabled (period : EnableTimePeriod) (t : PTime) (refTime : Calendar.Date) :
    Except Bytes Bool :=
  if !period.valid then return false
  else do
    let p ← period.enabledPeriod refTime
    return p.isNull || p.contains (startOfDate t)

end EnableTimePeriod

end miutil

end Wdb2ts
