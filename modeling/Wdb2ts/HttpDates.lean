import Wdb2ts.IsoTimes
import Wdb2ts.Lib.CalendarOrder

/-!
# HTTP dates

The text of a time with its weekday, as in `Fri, 16 Mar 2007 08:13:37 GMT`, and what is read from
the texts of this form.  The fields of a date are checked without its month, so a day that the
month does not have throws.
-/

namespace Wdb2ts

namespace PTime

/-- A date in the range of the years is that of a time of its day. -/
theorem date_ofDate {date_ : Calendar.Date} (year_ge : 1400 ≤ date_.year)
    (year_le : date_.year ≤ 9999) (valid : Calendar.Valid date_) {duration : ℤ}
    (notNegative : 0 ≤ duration) (less : duration < dayLength) :
    date ((Calendar.dayNumber date_ - epochDay) * dayLength + duration) = .ok date_ := by
  have sameDay : ((Calendar.dayNumber date_ - epochDay) * dayLength + duration) / dayLength +
      epochDay = Calendar.dayNumber date_ := by
    simp only [dayLength] at less ⊢
    omega
  simp only [date, sameDay, Calendar.fromDayNumber_dayNumber valid]
  exact gregorianDate_eq_ok_iff.mpr ⟨year_ge, year_le, valid, rfl⟩

end PTime

namespace miutil

/-- The format of `rfc1123date`. -/
def rfc1123Text (sday : Bytes) (day : ℕ) (smon : Bytes) (year h m s : ℕ) : Bytes :=
  sday ++ (Bytes.str ", " ++ (zeroPadded 2 day ++ (Bytes.str " " ++ (smon ++ (Bytes.str " " ++
    (zeroPadded 4 year ++ (Bytes.str " " ++ (zeroPadded 2 h ++ (Bytes.str ":" ++
      (zeroPadded 2 m ++ (Bytes.str ":" ++ (zeroPadded 2 s ++ Bytes.str " GMT"))))))))))))

/-- `rfc1123date` of a time. -/
def rfc1123dateOf : PTime → Except Bytes Bytes
  | .ticks microseconds => do
      let d ← PTime.date microseconds
      let t := PTime.secondsOfDay microseconds
      match weekDays[((Calendar.dayNumber d + 1) % 7).toNat]?, months[(d.month - 1).toNat]? with
      | some day, some mon =>
          return rfc1123Text day d.day.toNat mon d.year.toNat (t / 3600) (t / 60 % 60) (t % 60)
      | _, _ => return []
  | _ => .ok []

/-- A text of three bytes without blanks. -/
structure IsName (word : Bytes) : Prop where
  length_eq : word.length = 3
  noBlank : ∀ byte ∈ word, isSpace byte = false
  noEnd : ∀ byte ∈ word, byte ≠ Bytes.chr (Char.ofNat 0)

instance : DecidablePred IsName := fun word =>
  decidable_of_iff (word.length = 3 ∧ (word.all fun byte => !isSpace byte) = true ∧
    (word.all fun byte => byte != Bytes.chr (Char.ofNat 0)) = true)
    ⟨fun parts => ⟨parts.1, by simpa using parts.2.1, by simpa using parts.2.2⟩,
      fun isName => ⟨isName.length_eq, by simpa using isName.noBlank,
        by simpa using isName.noEnd⟩⟩

/-- The fields of a text `Www, DD Mon YYYY hh:mm:ss GMT`. -/
structure HttpDate where
  sday : Bytes
  day : ℕ
  smon : Bytes
  year : ℕ
  h : ℕ
  m : ℕ
  s : ℕ
  isDayName : IsName sday
  isMonthName : IsName smon
  day_lt : day < 100
  year_ge : 1400 ≤ year
  year_le : year ≤ 9999
  h_lt : h < 100
  m_lt : m < 100
  s_lt : s < 60

namespace HttpDate

/-- The text of the fields. -/
def text (httpDate : HttpDate) : Bytes :=
  rfc1123Text httpDate.sday httpDate.day httpDate.smon httpDate.year httpDate.h httpDate.m
    httpDate.s

/-- The date of the fields, for a number of a month that is counted from 0. -/
def date (httpDate : HttpDate) (mon : ℕ) : Calendar.Date :=
  ⟨httpDate.year, mon + 1, httpDate.day⟩

/-- The time of the fields, for a number of a month. -/
def time (httpDate : HttpDate) (mon : ℕ) : PTime :=
  PTime.ofDate (httpDate.date mon) (PTime.timeDuration httpDate.h httpDate.m httpDate.s)

/-- The fields stand for a time: its date exists and falls on the weekday, and its clock time is
valid. -/
def Denotes (httpDate : HttpDate) (time : PTime) : Prop :=
  ∃ mon weekDay, months.findIdx? (· = httpDate.smon) = some mon ∧
    weekDays.findIdx? (· = httpDate.sday) = some weekDay ∧
    Calendar.Valid (httpDate.date mon) ∧
    (Calendar.dayNumber (httpDate.date mon) + 1) % 7 = weekDay ∧
    httpDate.h ≤ 23 ∧ httpDate.m ≤ 59 ∧ time = httpDate.time mon

/-- The text is read as the time of its fields, or as no time. -/
structure IsRead (httpDate : HttpDate) : Prop where
  denoted : ∀ time, httpDate.Denotes time → rfc1123date httpDate.text = .ok time
  notDenoted : (¬∃ time, httpDate.Denotes time) → rfc1123date httpDate.text = .ok .notADateTime

/-- The day is one of the month, unless a name is unknown or a number is too large. -/
def DayInMonth (httpDate : HttpDate) : Prop :=
  ∀ mon weekDay, months.findIdx? (· = httpDate.smon) = some mon →
    weekDays.findIdx? (· = httpDate.sday) = some weekDay → httpDate.day ≤ 31 →
    httpDate.h ≤ 23 → httpDate.m ≤ 59 →
    1 ≤ httpDate.day ∧ httpDate.day ≤ Calendar.endOfMonthDay httpDate.year (mon + 1)

end HttpDate

/-! ## Scanning -/

theorem scanWord_append {word : Bytes} (isName : IsName word) (rest : Bytes) :
    scanWord 3 (word ++ rest) = some (word, rest) := by
  have starts : (word ++ rest).dropWhile isSpace = word ++ rest := by
    apply Bytes.dropWhile_of_head?
    intro byte first
    have length := isName.length_eq
    have noBlank := isName.noBlank
    cases word with
    | nil => exact absurd length (by decide)
    | cons other others =>
        cases first
        exact noBlank byte List.mem_cons_self
  have isWord : (word.takeWhile fun byte => !isSpace byte) = word := by
    rw [List.takeWhile_eq_self_iff]
    intro byte member
    rw [isName.noBlank byte member]
    rfl
  have notEmpty : word.isEmpty = false := by
    rw [List.isEmpty_eq_false_iff]
    rintro rfl
    exact absurd isName.length_eq (by decide)
  simp only [scanWord, starts, List.take_left' isName.length_eq, isWord, notEmpty,
    Bool.false_eq_true, if_false, List.drop_left]

theorem scanField_append {width number : ℕ} (positive : 0 < width) (fits : number < 10 ^ width)
    (rest : Bytes) :
    scanField width (zeroPadded width number ++ rest) = some ((number : ℤ), rest) := by
  have digits : ∀ byte ∈ zeroPadded width number, isDigit byte = true :=
    fun _ member => isDigit_of_mem_zeroPadded member
  have length := length_zeroPadded positive fits
  obtain ⟨first, others, isNumber, isFirst⟩ := zeroPadded_eq_cons positive fits
  have starts : (zeroPadded width number ++ rest).dropWhile isSpace =
      zeroPadded width number ++ rest := by
    rw [isNumber]
    apply Bytes.dropWhile_of_head?
    rintro byte ⟨⟩
    exact isSpace_of_isDigit isFirst
  have noSign : ((zeroPadded width number ++ rest).take (min width 1)).filter
      (fun byte => byte = Bytes.chr '-' ∨ byte = Bytes.chr '+') = [] := by
    rw [List.take_append_of_le_length (length.symm ▸ min_le_left width 1)]
    exact filter_sign_take digits _
  have isDigits : (zeroPadded width number).takeWhile isDigit = zeroPadded width number :=
    List.takeWhile_eq_self_iff.mpr digits
  have notEmpty : (zeroPadded width number).isEmpty = false := by
    rw [isNumber]
    rfl
  have noMinus : ¬([] : Bytes) = [Bytes.chr '-'] := List.cons_ne_nil _ _ ∘ Eq.symm
  simp only [scanField, starts, noSign, List.length_nil, List.drop_zero, List.take_left' length,
    isDigits, notEmpty, Bool.false_eq_true, if_false, if_neg noMinus, zero_add, List.drop_left,
    decimalNumber_zeroPadded]

namespace HttpDate

variable (httpDate : HttpDate)

/-- The text has no end of a string. -/
theorem cString_text : cString httpDate.text = httpDate.text := by
  have digits (width number : ℕ) :
      ∀ byte ∈ zeroPadded width number, byte ≠ Bytes.chr (Char.ofNat 0) := by
    intro byte member
    exact noEnd_of_isDigit (isDigit_of_mem_zeroPadded member)
  have literals : ∀ literal ∈ [Bytes.str ", ", Bytes.str " ", Bytes.str ":", Bytes.str " GMT"],
      ∀ byte ∈ literal, byte ≠ Bytes.chr (Char.ofNat 0) := by
    decide +kernel
  simp only [List.forall_mem_cons] at literals
  rw [cString, List.takeWhile_eq_self_iff]
  intro byte member
  rw [decide_eq_true_eq]
  simp only [text, rfc1123Text, List.mem_append] at member
  rcases member with m | m | m | m | m | m | m | m | m | m | m | m | m | m
  · exact httpDate.isDayName.noEnd byte m
  · exact literals.1 byte m
  · exact digits _ _ byte m
  · exact literals.2.1 byte m
  · exact httpDate.isMonthName.noEnd byte m
  · exact literals.2.1 byte m
  · exact digits _ _ byte m
  · exact literals.2.1 byte m
  · exact digits _ _ byte m
  · exact literals.2.2.1 byte m
  · exact digits _ _ byte m
  · exact literals.2.2.1 byte m
  · exact digits _ _ byte m
  · exact literals.2.2.2.1 byte m

/-- The fields are scanned. -/
theorem scanRfc1123_text : scanRfc1123 httpDate.text =
    some ⟨httpDate.sday, httpDate.day, httpDate.smon, httpDate.year, httpDate.h, httpDate.m,
      httpDate.s, Bytes.str "GMT"⟩ := by
  have year_le := httpDate.year_le
  have seconds := httpDate.s_lt
  have year_lt : httpDate.year < 10 ^ 4 := by omega
  have s_lt : httpDate.s < 10 ^ 2 := by omega
  have comma (rest : Bytes) :
      scanByte (Bytes.chr ',') (Bytes.str ", " ++ rest) = some (Bytes.str " " ++ rest) := rfl
  have colon (rest : Bytes) : scanByte (Bytes.chr ':') (Bytes.str ":" ++ rest) = some rest := rfl
  have blankWord (width : ℕ) (rest : Bytes) :
      scanWord width (Bytes.str " " ++ rest) = scanWord width rest := rfl
  have blankField (width : ℕ) (rest : Bytes) :
      scanField width (Bytes.str " " ++ rest) = scanField width rest := rfl
  have gmt : scanWord 3 (Bytes.str " GMT") = some (Bytes.str "GMT", []) := by decide +kernel
  rw [scanRfc1123, cString_text]
  simp only [text, rfc1123Text, Option.bind_eq_bind, Option.bind_some, comma, colon, gmt,
    blankWord, blankField, scanWord_append httpDate.isDayName,
    scanWord_append httpDate.isMonthName, scanField_append two_pos httpDate.day_lt,
    scanField_append four_pos year_lt, scanField_append two_pos httpDate.h_lt,
    scanField_append two_pos httpDate.m_lt, scanField_append two_pos s_lt]
  rfl

/-- The date of a day of the month. -/
theorem valid_date_iff {mon : ℕ} (isMonth : months.findIdx? (· = httpDate.smon) = some mon) :
    Calendar.Valid (httpDate.date mon) ↔
      1 ≤ httpDate.day ∧ (httpDate.day : ℤ) ≤ Calendar.endOfMonthDay httpDate.year (mon + 1) := by
  have mon_lt : mon < 12 := (List.findIdx?_eq_some_iff_getElem.mp isMonth).1
  constructor
  · intro valid
    have day_pos := valid.day_pos
    simp only [date] at day_pos
    exact ⟨by omega, valid.day_le⟩
  · rintro ⟨day_pos, day_le⟩
    constructor
    case day_le => exact day_le
    all_goals
      simp only [date]
      omega

/-- A date that exists is built. -/
theorem gregorianDate_date {mon : ℕ} (valid : Calendar.Valid (httpDate.date mon)) :
    PTime.gregorianDate httpDate.year (mon + 1) httpDate.day = .ok (httpDate.date mon) := by
  have year_ge := httpDate.year_ge
  have year_le := httpDate.year_le
  exact PTime.gregorianDate_eq_ok_iff.mpr ⟨by omega, by omega, valid, rfl⟩

/-- The clock time of the fields is a time of day. -/
theorem clock_bounds (h_le : httpDate.h ≤ 23) (m_le : httpDate.m ≤ 59) :
    0 ≤ PTime.timeDuration httpDate.h httpDate.m httpDate.s ∧
      PTime.timeDuration httpDate.h httpDate.m httpDate.s < PTime.dayLength := by
  have s_lt := httpDate.s_lt
  rw [PTime.timeDuration_natCast, PTime.dayLength]
  omega

/-- What is read from a text with known names and small numbers. -/
theorem rfc1123date_text {mon weekDay : ℕ}
    (isMonth : months.findIdx? (· = httpDate.smon) = some mon)
    (isWeekDay : weekDays.findIdx? (· = httpDate.sday) = some weekDay)
    (day_le : httpDate.day ≤ 31) (h_le : httpDate.h ≤ 23) (m_le : httpDate.m ≤ 59) :
    rfc1123date httpDate.text =
      (PTime.gregorianDate httpDate.year (mon + 1) httpDate.day).map fun _ =>
        if (weekDay : ℤ) ≠ (Calendar.dayNumber (httpDate.date mon) + 1) % 7 then .notADateTime
        else httpDate.time mon := by
  have s_lt := httpDate.s_lt
  rw [rfc1123date, scanRfc1123_text]
  simp only [isMonth, isWeekDay]
  rw [if_neg (by simp), if_neg (by omega)]
  cases isDate : PTime.gregorianDate httpDate.year (mon + 1) httpDate.day with
  | error message => rfl
  | ok day =>
      obtain ⟨year_ge, year_le, valid, rfl⟩ := PTime.gregorianDate_eq_ok_iff.mp isDate
      obtain ⟨notNegative, less⟩ := httpDate.clock_bounds h_le m_le
      simp only [bind, Except.bind, pure, Except.pure, PTime.ofDate, PTime.dayOfWeek,
        PTime.date_ofDate year_ge year_le valid notNegative less, Except.map]
      rfl

/-- A text with an unknown name or a number that is too large is not read as a time. -/
theorem rfc1123date_text_notADateTime
    (outside : months.findIdx? (· = httpDate.smon) = none ∨
      weekDays.findIdx? (· = httpDate.sday) = none ∨ 31 < httpDate.day ∨ 23 < httpDate.h ∨
        59 < httpDate.m) :
    rfc1123date httpDate.text = .ok .notADateTime := by
  rw [rfc1123date, scanRfc1123_text]
  dsimp only
  rw [if_neg (by simp)]
  split
  · next mon weekDay isMonth isWeekDay =>
      rw [isMonth, isWeekDay] at outside
      rw [if_pos]
      rcases outside with none | none | tooLarge
      · cases none
      · cases none
      · omega
  · rfl

/-- A text is read as its time, or as no time, exactly when its day is one of the month. -/
theorem isRead_iff : httpDate.IsRead ↔ httpDate.DayInMonth := by
  constructor
  · intro isRead mon weekDay isMonth isWeekDay day_le h_le m_le
    rw [← httpDate.valid_date_iff isMonth]
    by_contra notValid
    have notDenoted : ¬∃ time, httpDate.Denotes time := by
      rintro ⟨time, other, -, isOther, -, valid, -⟩
      rw [isMonth] at isOther
      cases isOther
      exact notValid valid
    have reads := isRead.notDenoted notDenoted
    rw [httpDate.rfc1123date_text isMonth isWeekDay day_le h_le m_le] at reads
    cases isDate : PTime.gregorianDate httpDate.year (mon + 1) httpDate.day with
    | error message =>
        rw [isDate] at reads
        cases reads
    | ok day =>
        obtain ⟨-, -, valid, rfl⟩ := PTime.gregorianDate_eq_ok_iff.mp isDate
        exact notValid valid
  · intro dayInMonth
    constructor
    · rintro time ⟨mon, weekDay, isMonth, isWeekDay, valid, falls, h_le, m_le, rfl⟩
      have day_le : (httpDate.day : ℤ) ≤ 31 := valid.day_le.trans (Calendar.endOfMonthDay_le _ _)
      rw [httpDate.rfc1123date_text isMonth isWeekDay (by omega) h_le m_le,
        httpDate.gregorianDate_date valid, Except.map, if_neg (not_not.mpr falls.symm)]
    · intro notDenoted
      cases isMonth : months.findIdx? (· = httpDate.smon) with
      | none => exact httpDate.rfc1123date_text_notADateTime (Or.inl isMonth)
      | some mon =>
          cases isWeekDay : weekDays.findIdx? (· = httpDate.sday) with
          | none => exact httpDate.rfc1123date_text_notADateTime (Or.inr (Or.inl isWeekDay))
          | some weekDay =>
              by_cases tooLarge : 31 < httpDate.day ∨ 23 < httpDate.h ∨ 59 < httpDate.m
              · exact httpDate.rfc1123date_text_notADateTime (Or.inr (Or.inr tooLarge))
              · simp only [not_or, not_lt] at tooLarge
                obtain ⟨day_le, h_le, m_le⟩ := tooLarge
                have valid := (httpDate.valid_date_iff isMonth).mpr
                  (dayInMonth mon weekDay isMonth isWeekDay day_le h_le m_le)
                have elsewhere : (weekDay : ℤ) ≠
                    (Calendar.dayNumber (httpDate.date mon) + 1) % 7 := by
                  intro falls
                  exact notDenoted ⟨_, mon, weekDay, isMonth, isWeekDay, valid, falls.symm, h_le,
                    m_le, rfl⟩
                rw [httpDate.rfc1123date_text isMonth isWeekDay day_le h_le m_le,
                  httpDate.gregorianDate_date valid, Except.map, if_pos elsewhere]

end HttpDate

/-! ## Round trips -/

/-- The names of the tables are names, and are found at their places. -/
theorem findIdx?_months : ∀ mon < 12, ∃ name, months[mon]? = some name ∧ IsName name ∧
    months.findIdx? (· = name) = some mon := by
  decide +kernel

theorem findIdx?_weekDays : ∀ weekDay < 7, ∃ name, weekDays[weekDay]? = some name ∧ IsName name ∧
    weekDays.findIdx? (· = name) = some weekDay := by
  decide +kernel

/-- A whole second with a date is written as a text of its fields. -/
theorem rfc1123dateOf_eq {microseconds : ℤ} (wholeSecond : microseconds % 1000000 = 0)
    (hasDate : ∃ date, PTime.date microseconds = .ok date) :
    ∃ httpDate : HttpDate, rfc1123dateOf (.ticks microseconds) = .ok httpDate.text ∧
      httpDate.Denotes (.ticks microseconds) := by
  obtain ⟨d, isDate⟩ := hasDate
  obtain ⟨year_ge, year_le, valid, -⟩ := PTime.date_eq_ok isDate
  have month_pos := valid.month_pos
  have month_le := valid.month_le
  have day_pos := valid.day_pos
  have day_le := valid.day_le.trans (Calendar.endOfMonthDay_le _ _)
  have seconds := PTime.secondsOfDay_lt microseconds
  obtain ⟨smon, isMonth, monthName, monthFound⟩ := findIdx?_months (d.month - 1).toNat (by omega)
  obtain ⟨sday, isWeekDay, dayName, weekDayFound⟩ :=
    findIdx?_weekDays ((Calendar.dayNumber d + 1) % 7).toNat (by omega)
  let httpDate : HttpDate :=
    { sday, smon
      day := d.day.toNat
      year := d.year.toNat
      h := PTime.secondsOfDay microseconds / 3600
      m := PTime.secondsOfDay microseconds / 60 % 60
      s := PTime.secondsOfDay microseconds % 60
      isDayName := dayName
      isMonthName := monthName
      day_lt := by omega
      year_ge := by omega
      year_le := by omega
      h_lt := by omega
      m_lt := by omega
      s_lt := by omega }
  have isDay : httpDate.date (d.month - 1).toNat = d := by
    simp only [HttpDate.date, httpDate]
    rw [Int.toNat_of_nonneg (by omega), Int.toNat_of_nonneg (by omega),
      Int.toNat_of_nonneg (by omega), sub_add_cancel]
  have isClock : PTime.timeDuration httpDate.h httpDate.m httpDate.s =
      PTime.secondsOfDay microseconds * 1000000 := by
    rw [PTime.timeDuration_natCast]
    simp only [httpDate]
    omega
  refine ⟨httpDate, ?_, (d.month - 1).toNat, ((Calendar.dayNumber d + 1) % 7).toNat, monthFound,
    weekDayFound, ?_, ?_, ?_, ?_, ?_⟩
  · simp only [rfc1123dateOf, isDate, isMonth, isWeekDay, bind, Except.bind]
    rfl
  · rw [isDay]
    exact valid
  · rw [isDay, Int.toNat_of_nonneg (by omega)]
  · simp only [httpDate]
    omega
  · simp only [httpDate]
    omega
  · rw [HttpDate.time, isDay, isClock, PTime.ofDate_date isDate wholeSecond]

/-- A text that stands for a time has a day of its month. -/
theorem HttpDate.dayInMonth_of_denotes {httpDate : HttpDate} {time : PTime}
    (denotes : httpDate.Denotes time) : httpDate.DayInMonth := by
  obtain ⟨mon, weekDay, isMonth, -, valid, -⟩ := denotes
  intro other _ isOther _ _ _ _
  rw [isMonth] at isOther
  cases isOther
  exact (httpDate.valid_date_iff isMonth).mp valid

/-- Every whole second is read back from its text, and a text of the form of HTTP dates is read
right exactly when its day is one of the month. -/
theorem httpDates_iff (httpDate : HttpDate) :
    (∀ microseconds, microseconds % 1000000 = 0 → (∃ date, PTime.date microseconds = .ok date) →
      ∃ text, rfc1123dateOf (.ticks microseconds) = .ok text ∧
        rfc1123date text = .ok (.ticks microseconds)) ∧
      (httpDate.IsRead ↔ httpDate.DayInMonth) := by
  refine ⟨?_, httpDate.isRead_iff⟩
  intro microseconds wholeSecond hasDate
  obtain ⟨written, isText, denotes⟩ := rfc1123dateOf_eq wholeSecond hasDate
  have isRead := written.isRead_iff.mpr (HttpDate.dayInMonth_of_denotes denotes)
  exact ⟨written.text, isText, isRead.denoted _ denotes⟩

/-- The 31st of April throws. -/
theorem not_isRead_endOfApril :
    ∃ httpDate : HttpDate, httpDate.text = Bytes.str "Tue, 31 Apr 2012 12:00:00 GMT" ∧
      rfc1123date httpDate.text = .error (Bytes.str "Day of month is not valid for year") ∧
      ¬httpDate.IsRead := by
  let httpDate : HttpDate :=
    { sday := Bytes.str "Tue", day := 31, smon := Bytes.str "Apr", year := 2012
      h := 12, m := 0, s := 0
      isDayName := by decide +kernel
      isMonthName := by decide +kernel
      day_lt := by decide
      year_ge := by decide
      year_le := by decide
      h_lt := by decide
      m_lt := by decide
      s_lt := by decide }
  have throws : rfc1123date httpDate.text =
      .error (Bytes.str "Day of month is not valid for year") := by
    decide +kernel
  refine ⟨httpDate, by decide +kernel, throws, ?_⟩
  intro isRead
  by_cases denoted : ∃ time, httpDate.Denotes time
  · obtain ⟨time, denotes⟩ := denoted
    have reads := isRead.denoted time denotes
    rw [throws] at reads
    cases reads
  · have reads := isRead.notDenoted denoted
    rw [throws] at reads
    cases reads

end miutil

end Wdb2ts
