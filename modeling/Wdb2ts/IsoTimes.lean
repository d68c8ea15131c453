import Wdb2ts.PtimeUtil

/-!
# ISO times

A text of a date-time is a relation of its own between the table of the parts, their numbers and
the text.  The decoder reads the numbers of every such text, with any separators of the table.
-/

namespace Wdb2ts

namespace PTime

theorem gregorianDate_eq_ok_iff {year month day : ℤ} {date : Calendar.Date} :
    gregorianDate year month day = .ok date ↔
      1400 ≤ year ∧ year ≤ 9999 ∧ Calendar.Valid ⟨year, month, day⟩ ∧ date = ⟨year, month, day⟩ := by
  simp only [gregorianDate]
  constructor
  · intro result
    split_ifs at result with wrongYear wrongMonth wrongDay tooLate
    cases result
    rw [not_or, not_lt, not_lt] at wrongYear wrongMonth wrongDay
    exact ⟨wrongYear.1, wrongYear.2,
      ⟨wrongMonth.1, wrongMonth.2, wrongDay.1, not_lt.mp tooLate⟩, rfl⟩
  · rintro ⟨yearLower, yearUpper, valid, rfl⟩
    have months := valid.month_pos
    have monthsUpper := valid.month_le
    have days := valid.day_pos
    have daysUpper := valid.day_le
    have atMost := Calendar.endOfMonthDay_le year month
    simp only at months monthsUpper days daysUpper
    rw [if_neg (by omega), if_neg (by omega), if_neg (by omega), if_neg (by omega)]

theorem date_eq_ok {microseconds : ℤ} {day : Calendar.Date} (found : date microseconds = .ok day) :
    1400 ≤ day.year ∧ day.year ≤ 9999 ∧ Calendar.Valid day ∧
      Calendar.dayNumber day = microseconds / dayLength + epochDay := by
  rcases gregorianDate_eq_ok_iff.mp found with ⟨year_ge, year_le, valid, rfl⟩
  exact ⟨year_ge, year_le, valid, Calendar.dayNumber_fromDayNumber _⟩

/-- The date and the time of day of a whole second are the time. -/
theorem ofDate_date {microseconds : ℤ} {day : Calendar.Date} (found : date microseconds = .ok day)
    (wholeSecond : microseconds % 1000000 = 0) :
    ofDate day (secondsOfDay microseconds * 1000000) = .ticks microseconds := by
  rw [ofDate, (date_eq_ok found).2.2.2]
  congr 1
  simp only [secondsOfDay, dayLength]
  omega

theorem secondsOfDay_lt (microseconds : ℤ) : secondsOfDay microseconds < 86400 := by
  simp only [secondsOfDay, dayLength]
  omega

@[simp] theorem timeDuration_natCast (hours minutes seconds : ℕ) :
    timeDuration hours minutes seconds = (hours * 3600 + minutes * 60 + seconds) * 1000000 := by
  rw [timeDuration, if_neg (by omega)]

theorem timeDuration_zero : timeDuration 0 0 0 = 0 := rfl

end PTime

namespace miutil

/-! ## Texts of a table -/

/-- The text of the numbers of a table.  A number fills the width of its entry, and only separators
of the entry stand behind it. -/
inductive Written : List Def → List ℕ → Bytes → Prop
  | nil : Written [] [] []
  | cons {entry : Def} {entries : List Def} {number : ℕ} {numbers : List ℕ} {sep text : Bytes}
      (fits : number < 10 ^ entry.numberOfChars) (separators : ∀ byte ∈ sep, byte ∈ entry.nextSep)
      (others : Written entries numbers text) :
      Written (entry :: entries) (number :: numbers)
        (zeroPadded entry.numberOfChars number ++ sep ++ text)

/-- The width fits into the buffer of `getInt`, and no separator is a digit. -/
structure Def.WellFormed (entry : Def) : Prop where
  positive : 0 < entry.numberOfChars
  noOverflow : entry.numberOfChars ≤ 9
  noDigit : ∀ byte ∈ entry.nextSep, isDigit byte = false

/-- The part may end before the rest of a text. -/
def Def.EndsBefore (entry : Def) (rest : Bytes) : Prop :=
  (rest = [] → entry.mustHaveNext = false) ∧ ∀ byte, rest.head? = some byte → byte ∉ entry.nextSep

theorem defs_wellFormed : ∀ entry ∈ defs, entry.WellFormed := by
  have checked : defs.all (fun entry => 0 < entry.numberOfChars ∧ entry.numberOfChars ≤ 9 ∧
      entry.nextSep.all fun byte => !isDigit byte) = true := by
    decide
  intro entry member
  have here := of_decide_eq_true (List.all_eq_true.mp checked entry member)
  refine ⟨here.1, here.2.1, fun byte inSep => ?_⟩
  simpa using List.all_eq_true.mp here.2.2 byte inSep

variable (isoTime : Bytes)

theorem getIntLoop_digits {digits : Bytes} (allDigits : ∀ byte ∈ digits, isDigit byte = true)
    (rest buf : Bytes) :
    getIntLoop isoTime digits.length (digits ++ rest) buf =
      .ok (decimalNumber (buf ++ digits) 0, rest) := by
  induction digits generalizing buf with
  | nil => simp [getIntLoop]
  | cons byte others ih =>
      have here := allDigits byte List.mem_cons_self
      rw [List.length_cons, List.cons_append, getIntLoop, if_pos here,
        ih (fun other member => allDigits other (List.mem_cons_of_mem byte member)),
        List.append_assoc, List.singleton_append]

/-- `getInt` reads as many digits as it is told to. -/
theorem getInt_digits {digits : Bytes} {width : ℕ} (length : digits.length = width)
    (noOverflow : width ≤ 9) (allDigits : ∀ byte ∈ digits, isDigit byte = true) (rest : Bytes) :
    getInt isoTime (digits ++ rest) width = .ok ((decimalNumber digits 0 : ℤ), rest) := by
  have loop := getIntLoop_digits isoTime allDigits rest []
  rw [length, List.nil_append] at loop
  rw [getInt, if_neg (not_lt.mpr noOverflow), loop]

/-- `getInt` reads a padded number and stops behind it. -/
theorem getInt_zeroPadded {width number : ℕ} (positive : 0 < width) (noOverflow : width ≤ 9)
    (fits : number < 10 ^ width) (rest : Bytes) :
    getInt isoTime (zeroPadded width number ++ rest) width = .ok ((number : ℤ), rest) := by
  rw [getInt_digits isoTime (length_zeroPadded positive fits) noOverflow
    (fun _ member => isDigit_of_mem_zeroPadded member), decimalNumber_zeroPadded]

theorem zeroPadded_eq_cons {width number : ℕ} (positive : 0 < width) (fits : number < 10 ^ width) :
    ∃ byte rest, zeroPadded width number = byte :: rest ∧ isDigit byte = true := by
  have length := length_zeroPadded positive fits
  cases digits : zeroPadded width number with
  | nil =>
      rw [digits] at length
      exact absurd length positive.ne
  | cons byte rest =>
      have member : byte ∈ zeroPadded width number := by
        rw [digits]
        exact List.mem_cons_self
      exact ⟨byte, rest, rfl, isDigit_of_mem_zeroPadded member⟩

/-- The text of a table starts with a digit. -/
theorem Written.eq_cons {entry : Def} {entries : List Def} {numbers : List ℕ} {text : Bytes}
    (written : Written (entry :: entries) numbers text) (positive : 0 < entry.numberOfChars) :
    ∃ byte rest, text = byte :: rest ∧ isDigit byte = true := by
  cases written with
  | cons fits separators others =>
      rcases zeroPadded_eq_cons positive fits with ⟨byte, rest, digits, isDigit⟩
      exact ⟨byte, _, by rw [digits, List.cons_append, List.cons_append], isDigit⟩

/-- The separators behind a number are skipped. -/
theorem dropWhile_separators {entry : Def} {sep rest : Bytes}
    (separators : ∀ byte ∈ sep, byte ∈ entry.nextSep) (ends : entry.EndsBefore rest) :
    (sep ++ rest).dropWhile entry.nextSep.contains = rest := by
  rw [List.dropWhile_append_of_pos fun byte member =>
    List.contains_iff_mem.mpr (separators byte member)]
  apply Bytes.dropWhile_of_head?
  intro byte first
  rw [← Bool.not_eq_true, List.contains_iff_mem]
  exact ends.2 byte first

/-- One round of the loop over the table. -/
theorem decodeParts_digits {entry : Def} {digits sep rest : Bytes}
    (length : digits.length = entry.numberOfChars) (noOverflow : entry.numberOfChars ≤ 9)
    (allDigits : ∀ byte ∈ digits, isDigit byte = true)
    (separators : ∀ byte ∈ sep, byte ∈ entry.nextSep) (ends : entry.EndsBefore rest)
    (others : List Def) :
    decodeParts isoTime (entry :: others) (digits ++ (sep ++ rest)) =
      if rest = [] then .ok ((decimalNumber digits 0 : ℤ) :: others.map fun _ => 0, [])
      else (decodeParts isoTime others rest).map fun parts =>
        ((decimalNumber digits 0 : ℤ) :: parts.1, parts.2) := by
  have next := dropWhile_separators separators ends
  simp only [decodeParts, getInt_digits isoTime length noOverflow allDigits]
  by_cases last : rest = []
  · subst last
    rw [List.append_nil] at next ⊢
    by_cases nothing : sep = []
    · simp [bind, Except.bind, pure, Except.pure, nothing, ends.1 rfl]
    · simp [bind, Except.bind, pure, Except.pure, nothing, next, ends.1 rfl]
  · simp only [bind, Except.bind, next, List.isEmpty_iff, List.append_eq_nil_iff, last, and_false,
      if_false]
    cases decodeParts isoTime others rest <;> rfl

/-- One round of the loop over the table with a padded number. -/
theorem decodeParts_cons {entry : Def} {number : ℕ} {sep rest : Bytes}
    (wellFormed : entry.WellFormed) (fits : number < 10 ^ entry.numberOfChars)
    (separators : ∀ byte ∈ sep, byte ∈ entry.nextSep) (ends : entry.EndsBefore rest)
    (others : List Def) :
    decodeParts isoTime (entry :: others)
        (zeroPadded entry.numberOfChars number ++ (sep ++ rest)) =
      if rest = [] then .ok ((number : ℤ) :: others.map fun _ => 0, [])
      else (decodeParts isoTime others rest).map fun parts => ((number : ℤ) :: parts.1, parts.2) := by
  rw [decodeParts_digits isoTime (length_zeroPadded wellFormed.positive fits) wellFormed.noOverflow
    (fun _ member => isDigit_of_mem_zeroPadded member) separators ends, decimalNumber_zeroPadded]

/-- The loop over the table reads the numbers of a text. -/
theorem decodeParts_written {entries : List Def} {numbers : List ℕ} {text : Bytes}
    (written : Written entries numbers text) (wellFormed : ∀ entry ∈ entries, entry.WellFormed)
    (rest : Bytes) (ends : ∀ entry, entries.getLast? = some entry → entry.EndsBefore rest) :
    decodeParts isoTime entries (text ++ rest) =
      .ok (numbers.map (Nat.cast : ℕ → ℤ), rest) := by
  induction written with
  | nil => rfl
  | @cons entry entries number numbers sep text fits separators others ih =>
      have here := wellFormed entry List.mem_cons_self
      rw [List.append_assoc, List.append_assoc]
      cases entries with
      | nil =>
          cases others
          rw [List.nil_append, decodeParts_cons isoTime here fits separators (ends entry rfl)]
          split
          · rename_i last
            rw [last]
            rfl
          · rfl
      | cons entry' entries' =>
          have wellFormed' : ∀ other ∈ entry' :: entries', other.WellFormed :=
            fun other member => wellFormed other (List.mem_cons_of_mem entry member)
          rcases others.eq_cons (wellFormed' entry' List.mem_cons_self).positive with
            ⟨byte, after, starts, digit⟩
          have endsHere : entry.EndsBefore (text ++ rest) := by
            rw [starts]
            refine ⟨fun nothing => (by cases nothing), fun first same member => ?_⟩
            cases same
            rw [here.noDigit byte member] at digit
            cases digit
          have notLast : text ++ rest ≠ [] := by simp [starts]
          rw [decodeParts_cons isoTime here fits separators endsHere, if_neg notLast,
            ih wellFormed' (fun other last => ends other (by rw [List.getLast?_cons_cons, last]))]
          rfl

/-! ## UTC offsets -/

/-- The sign of an UTC offset. -/
inductive Sign where
  | plus
  | minus
  deriving DecidableEq, Repr

namespace Sign

def byte : Sign → Byte
  | plus => Bytes.chr '+'
  | minus => Bytes.chr '-'

def factor : Sign → ℤ
  | plus => 1
  | minus => -1

end Sign

/-- An UTC offset: `SHH`, or `SHHMM` with minutes. -/
structure UtcOffset where
  sign : Sign
  hours : ℕ
  minutes : Option ℕ
  hours_lt : hours < 24
  minutes_lt : ∀ number, minutes = some number → number < 60

namespace UtcOffset

variable (offset : UtcOffset)

def text : Bytes :=
  offset.sign.byte :: (zeroPadded 2 offset.hours ++ match offset.minutes with
    | none => []
    | some minutes => zeroPadded 2 minutes)

/-- The offset with its sign, in microseconds. -/
def signed : ℤ :=
  offset.sign.factor * ((offset.hours * 3600 + (offset.minutes.getD 0 : ℕ) * 60) * 1000000)

/-- There is no hour that carries the minus sign to the minutes. -/
def LosesSign : Prop :=
  offset.sign = .minus ∧ offset.hours = 0 ∧ offset.minutes.getD 0 ≠ 0

theorem endsBefore : ∀ entry, defs.getLast? = some entry → entry.EndsBefore offset.text := by
  intro entry last
  cases last
  refine ⟨fun nothing => (by cases nothing), fun byte first => ?_⟩
  cases first
  cases offset.sign <;> decide

theorem digitNext_zeroPadded {number : ℕ} (fits : number < 10 ^ 2) (rest : Bytes) :
    digitNext (zeroPadded 2 number ++ rest) = true := by
  rcases zeroPadded_eq_cons (by decide) fits with ⟨byte, others, digits, digit⟩
  rw [digits, List.cons_append]
  simpa [digitNext] using digit

/-- The decoder of an offset behind its sign. -/
theorem decodeOffset_sign (sign : Sign) {rest : Bytes} (digit : digitNext rest = true) :
    decodeOffset isoTime (sign.byte :: rest) = do
      let (hours, rest) ← getInt isoTime rest 2
      if digitNext rest then
        let (minuteOffset, _) ← getInt isoTime rest 2
        return (hours * sign.factor, minuteOffset)
      else return (hours * sign.factor, 0) := by
  have notZulu : ¬(sign.byte = Bytes.chr 'z' ∨ sign.byte = Bytes.chr 'Z') := by
    cases sign <;> decide
  have isSign : sign.byte = Bytes.chr '+' ∨ sign.byte = Bytes.chr '-' ∨
      isDigit sign.byte = true := by
    cases sign <;> decide
  have notDigit : isDigit sign.byte = false := by
    cases sign <;> decide
  have factor : (if ¬isDigit sign.byte = true ∧ sign.byte = Bytes.chr '-' then -1 else 1) =
      sign.factor := by
    cases sign <;> decide
  rw [decodeOffset, if_neg notZulu, if_pos isSign, factor]
  simp only [notDigit, digit, Bool.false_eq_true, if_false, not_true]

theorem decodeOffset_text :
    decodeOffset isoTime offset.text =
      .ok (offset.hours * offset.sign.factor, (offset.minutes.getD 0 : ℕ)) := by
  have hoursFit : offset.hours < 10 ^ 2 := lt_trans offset.hours_lt (by decide)
  rw [text, decodeOffset_sign isoTime offset.sign (digitNext_zeroPadded hoursFit _),
    getInt_zeroPadded isoTime (by decide) (by decide) hoursFit]
  cases minutes : offset.minutes with
  | none => rfl
  | some number =>
      have minutesFit : number < 10 ^ 2 :=
        lt_trans (offset.minutes_lt number minutes) (by decide)
      have minutesNext := digitNext_zeroPadded minutesFit []
      have minutesRead := getInt_zeroPadded isoTime (by decide) (by decide) minutesFit []
      rw [List.append_nil] at minutesNext minutesRead
      simp [bind, Except.bind, pure, Except.pure, minutesNext, minutesRead]

/-- The duration of a decoded offset has the sign of the text unless the sign is lost. -/
theorem timeDuration_eq_signed_iff :
    PTime.timeDuration (offset.hours * offset.sign.factor) (offset.minutes.getD 0 : ℕ) 0 =
      offset.signed ↔ ¬offset.LosesSign := by
  have minutes_nonneg : (0 : ℤ) ≤ (offset.minutes.getD 0 : ℕ) := Int.natCast_nonneg _
  simp only [signed, LosesSign]
  generalize offset.minutes.getD 0 = minutes at minutes_nonneg ⊢
  cases offset.sign with
  | plus =>
      rw [Sign.factor, PTime.timeDuration, if_neg (by omega)]
      simp
  | minus =>
      rw [Sign.factor, PTime.timeDuration]
      by_cases noHours : offset.hours = 0
      · rw [noHours, if_neg (by omega)]
        simp only [true_and, ne_eq, not_not]
        omega
      · rw [if_pos (by omega), mul_neg_one, abs_neg, abs_of_nonneg (by omega),
          abs_of_nonneg minutes_nonneg]
        simp [noHours]

end UtcOffset

/-! ## Date-times -/

/-- A text that starts with a digit is no name of a time and has no blanks in front. -/
theorem ptimeFromIsoString_digit (universalTime : ℤ) (text : Bytes)
    (digit : digitNext text = true) :
    ptimeFromIsoString universalTime text = decodeIsoTime text text := by
  have notName : ∀ name : Bytes, digitNext name = false → text ≠ name := by
    rintro name noDigit rfl
    rw [noDigit] at digit
    cases digit
  rw [ptimeFromIsoString, if_neg (notName _ (by decide)), if_neg (notName _ (by decide)),
    if_neg (notName _ (by decide)), if_neg (notName _ (by decide)), if_neg (notName _ (by decide)),
    if_neg (notName _ (by decide)), if_neg (notName _ (by decide))]
  cases text with
  | nil => cases digit
  | cons first rest =>
      have isDigit : isDigit first = true := digit
      have notBlank : first ≠ Bytes.chr ' ' := by
        rintro rfl
        exact absurd isDigit (by decide)
      rw [List.dropWhile_cons, if_neg (by simpa using notBlank)]
      exact if_pos isDigit

/-- A date-time as text, with a date of the calendar. -/
structure WrittenTime where
  year : ℕ
  month : ℕ
  day : ℕ
  hour : ℕ
  minute : ℕ
  second : ℕ
  text : Bytes
  written : Written defs [year, month, day, hour, minute, second] text
  year_ge : 1400 ≤ year
  valid : Calendar.Valid ⟨year, month, day⟩

namespace WrittenTime

variable (writtenTime : WrittenTime)

/-- The written time. -/
def time : PTime :=
  PTime.ofDate ⟨writtenTime.year, writtenTime.month, writtenTime.day⟩
    ((writtenTime.hour * 3600 + writtenTime.minute * 60 + writtenTime.second) * 1000000)

theorem year_le : writtenTime.year ≤ 9999 := by
  have written := writtenTime.written
  generalize writtenTime.text = text at written
  cases written with
  | cons fits separators others => exact Nat.le_of_lt_succ fits

/-- The decoder reads a written time and subtracts the offset behind it. -/
theorem ptimeFromIsoString_append (universalTime : ℤ) {rest : Bytes}
    (ends : ∀ entry, defs.getLast? = some entry → entry.EndsBefore rest)
    {hourOffset minuteOffset : ℤ}
    (offset : ∀ isoTime, decodeOffset isoTime rest = .ok (hourOffset, minuteOffset)) :
    ptimeFromIsoString universalTime (writtenTime.text ++ rest) =
      .ok (writtenTime.time.sub (PTime.timeDuration hourOffset minuteOffset 0)) := by
  have parts := decodeParts_written (writtenTime.text ++ rest) writtenTime.written
    defs_wellFormed rest ends
  have date : PTime.gregorianDate writtenTime.year writtenTime.month writtenTime.day =
      .ok ⟨writtenTime.year, writtenTime.month, writtenTime.day⟩ := by
    rw [PTime.gregorianDate_eq_ok_iff]
    have year_ge := writtenTime.year_ge
    have year_le := writtenTime.year_le
    exact ⟨by omega, by omega, writtenTime.valid, rfl⟩
  have decoded : decodeIsoTime (writtenTime.text ++ rest) (writtenTime.text ++ rest) =
      .ok (writtenTime.time.sub (PTime.timeDuration hourOffset minuteOffset 0)) := by
    rw [decodeIsoTime, parts]
    simp only [offset, bind, Except.bind, List.map_cons, List.getD_cons_zero, List.getD_cons_succ,
      date, PTime.timeDuration_natCast]
    rfl
  rcases writtenTime.written.eq_cons (by decide) with ⟨first, others, starts, digit⟩
  rw [ptimeFromIsoString_digit universalTime _ (by rw [starts]; exact digit), decoded]

/-- The offset behind a written time is applied with its sign unless the sign is lost. -/
theorem ptimeFromIsoString_offset_iff (universalTime : ℤ) (offset : UtcOffset) :
    ptimeFromIsoString universalTime (writtenTime.text ++ offset.text) =
      .ok (writtenTime.time.sub offset.signed) ↔ ¬offset.LosesSign := by
  rw [writtenTime.ptimeFromIsoString_append universalTime offset.endsBefore
    fun isoTime => offset.decodeOffset_text isoTime, ← offset.timeDuration_eq_signed_iff]
  simp only [time, PTime.ofDate, PTime.sub, Except.ok.injEq, PTime.ticks.injEq, sub_right_inj]

end WrittenTime

/-! ## Round trips -/

/-- A whole second with a date, or an infinity. -/
def WholeSecond : PTime → Prop
  | .ticks microseconds =>
      microseconds % 1000000 = 0 ∧ ∃ day, PTime.date microseconds = .ok day
  | .notADateTime => False
  | _ => True

/-- The text of `isotimeString` without a mark is a text of the table. -/
theorem written_of_seconds {day : Calendar.Date} (year_le : day.year ≤ 9999)
    (valid : Calendar.Valid day) (useTseparator : Bool) {seconds : ℕ} (lessThan : seconds < 86400) :
    Written defs [day.year.toNat, day.month.toNat, day.day.toNat, seconds / 3600,
      seconds / 60 % 60, seconds % 60]
      (zeroPadded 4 day.year.toNat ++ Bytes.str "-" ++ (zeroPadded 2 day.month.toNat ++
        Bytes.str "-" ++ (zeroPadded 2 day.day.toNat ++
        (if useTseparator then Bytes.str "T" else Bytes.str " ") ++
        (zeroPadded 2 (seconds / 3600) ++ Bytes.str ":" ++ (zeroPadded 2 (seconds / 60 % 60) ++
        Bytes.str ":" ++ (zeroPadded 2 (seconds % 60) ++ [] ++ [])))))) := by
  have month_le := valid.month_le
  have day_le := valid.day_le.trans (Calendar.endOfMonthDay_le _ _)
  have yearFits : day.year.toNat < 10 ^ 4 := by omega
  have monthFits : day.month.toNat < 10 ^ 2 := by omega
  have dayFits : day.day.toNat < 10 ^ 2 := by omega
  have hourFits : seconds / 3600 < 10 ^ 2 := by omega
  have minuteFits : seconds / 60 % 60 < 10 ^ 2 := by omega
  have secondFits : seconds % 60 < 10 ^ 2 := by omega
  have daySep : ∀ byte ∈ if useTseparator then Bytes.str "T" else Bytes.str " ",
      byte ∈ Bytes.str "T " := by
    intro byte member
    cases useTseparator
    · exact List.mem_cons_of_mem _ member
    · exact List.mem_append_left (Bytes.str " ") member
  exact .cons yearFits (fun _ member => member) (.cons monthFits (fun _ member => member)
    (.cons dayFits daySep (.cons hourFits (fun _ member => member)
    (.cons minuteFits (fun _ member => member)
    (.cons secondFits (fun _ member => absurd member List.not_mem_nil) .nil)))))

/-- The time that `isotimeString` writes without a mark. -/
def WrittenTime.ofSeconds {day : Calendar.Date} (year_ge : 1400 ≤ day.year)
    (year_le : day.year ≤ 9999) (valid : Calendar.Valid day) (useTseparator : Bool) {seconds : ℕ}
    (lessThan : seconds < 86400) : WrittenTime where
  year := day.year.toNat
  month := day.month.toNat
  day := day.day.toNat
  hour := seconds / 3600
  minute := seconds / 60 % 60
  second := seconds % 60
  text := _
  written := written_of_seconds year_le valid useTseparator lessThan
  year_ge := by omega
  valid := by
    have month_pos := valid.month_pos
    have day_pos := valid.day_pos
    rw [Int.toNat_of_nonneg (by omega), Int.toNat_of_nonneg (by omega),
      Int.toNat_of_nonneg (by omega)]
    exact valid

theorem WrittenTime.ofSeconds_time {day : Calendar.Date} (year_ge : 1400 ≤ day.year)
    (year_le : day.year ≤ 9999) (valid : Calendar.Valid day) (useTseparator : Bool) {seconds : ℕ}
    (lessThan : seconds < 86400) :
    (ofSeconds year_ge year_le valid useTseparator lessThan).time =
      PTime.ofDate day (seconds * 1000000) := by
  have month_pos := valid.month_pos
  have day_pos := valid.day_pos
  simp only [time, ofSeconds]
  rw [Int.toNat_of_nonneg (by omega), Int.toNat_of_nonneg (by omega),
    Int.toNat_of_nonneg (by omega)]
  congr 2
  omega

/-- A written time is read back. -/
theorem ptimeFromIsoString_isotimeString (universalTime : ℤ) {time : PTime}
    (wholeSecond : WholeSecond time) (useTseparator markAsZulu : Bool) :
    ∃ text, isotimeString time useTseparator markAsZulu = .ok text ∧
      ptimeFromIsoString universalTime text = .ok time := by
  cases time with
  | negInfinity => exact ⟨_, rfl, rfl⟩
  | posInfinity => exact ⟨_, rfl, rfl⟩
  | notADateTime => exact wholeSecond.elim
  | ticks microseconds =>
      rcases wholeSecond with ⟨whole, day, found⟩
      rcases PTime.date_eq_ok found with ⟨year_ge, year_le, valid, -⟩
      have lessThan := PTime.secondsOfDay_lt microseconds
      let writtenTime := WrittenTime.ofSeconds year_ge year_le valid useTseparator lessThan
      let mark := if markAsZulu then Bytes.str "Z" else []
      have text : isotimeString (.ticks microseconds) useTseparator markAsZulu =
          .ok (writtenTime.text ++ mark) := by
        simp only [isotimeString, found, writtenTime, WrittenTime.ofSeconds, List.append_assoc,
          List.append_nil]
        rfl
      have ends : ∀ entry, defs.getLast? = some entry → entry.EndsBefore mark := by
        intro entry last
        cases last
        refine ⟨fun _ => rfl, fun byte first => ?_⟩
        cases markAsZulu <;> cases first
        decide
      have offset : ∀ isoTime, decodeOffset isoTime mark = .ok (0, 0) := by
        intro isoTime
        cases markAsZulu <;> rfl
      refine ⟨_, text, ?_⟩
      rw [writtenTime.ptimeFromIsoString_append universalTime ends offset,
        WrittenTime.ofSeconds_time, PTime.ofDate_date found whole, PTime.timeDuration_zero,
        PTime.sub_zero]

/-- The bytes of a date and its time of day. -/
def dateBytes : Bytes := Bytes.str "0123456789-:TZ"

theorem mem_dateBytes_of_isDigit : ∀ byte : Byte, isDigit byte = true → byte ∈ dateBytes := by
  decide +kernel

/-- The text of a time has a date, which starts with a digit, and only bytes of dates. -/
theorem isotimeString_ticks {microseconds : ℤ} {markAsZulu : Bool} {text : Bytes}
    (written : isotimeString (.ticks microseconds) true markAsZulu = .ok text) :
    (∃ day, PTime.date microseconds = .ok day) ∧ digitNext text = true ∧
      ∀ byte ∈ text, byte ∈ dateBytes := by
  rw [isotimeString] at written
  cases found : PTime.date microseconds with
  | error what =>
      rw [found] at written
      cases written
  | ok day =>
      rw [found] at written
      cases written
      have year_le := (PTime.date_eq_ok found).2.1
      have yearFits : day.year.toNat < 10 ^ 4 := by omega
      have numbered (width number : ℕ) {sep rest : Bytes} (inSep : ∀ byte ∈ sep, byte ∈ dateBytes)
          (inRest : ∀ byte ∈ rest, byte ∈ dateBytes) :
          ∀ byte ∈ zeroPadded width number ++ sep ++ rest, byte ∈ dateBytes := by
        intro byte member
        rcases List.mem_append.mp member with inFront | isRest
        · rcases List.mem_append.mp inFront with isNumber | isSep
          · exact mem_dateBytes_of_isDigit byte (isDigit_of_mem_zeroPadded isNumber)
          · exact inSep byte isSep
        · exact inRest byte isRest
      have minus : ∀ byte ∈ Bytes.str "-", byte ∈ dateBytes := by decide +kernel
      have colon : ∀ byte ∈ Bytes.str ":", byte ∈ dateBytes := by decide +kernel
      have separator : ∀ byte ∈ Bytes.str "T", byte ∈ dateBytes := by decide +kernel
      have mark : ∀ byte ∈ if markAsZulu then Bytes.str "Z" else [], byte ∈ dateBytes := by
        cases markAsZulu <;> decide +kernel
      have nothing : ∀ byte ∈ ([] : Bytes), byte ∈ dateBytes :=
        fun _ member => absurd member List.not_mem_nil
      have second := numbered 2 (PTime.secondsOfDay microseconds % 60) nothing mark
      rw [List.append_nil] at second
      refine ⟨⟨day, rfl⟩, ?_, numbered _ _ minus (numbered _ _ minus (numbered _ _ separator
        (numbered _ _ colon (numbered _ _ colon second))))⟩
      obtain ⟨byte, rest, digits, digit⟩ := zeroPadded_eq_cons (by decide) yearFits
      rw [digits]
      simpa [digitNext] using digit

theorem exists_isotimeString {microseconds : ℤ} {day : Calendar.Date}
    (found : PTime.date microseconds = .ok day) (useTseparator markAsZulu : Bool) :
    ∃ text, isotimeString (.ticks microseconds) useTseparator markAsZulu = .ok text := by
  rw [isotimeString, found]
  exact ⟨_, rfl⟩

/-- The text of a time is that of its second. -/
theorem isotimeString_floor (microseconds : ℤ) (useTseparator markAsZulu : Bool) :
    isotimeString (.ticks (microseconds / 1000000 * 1000000)) useTseparator markAsZulu =
      isotimeString (.ticks microseconds) useTseparator markAsZulu := by
  have sameDay : microseconds / 1000000 * 1000000 / PTime.dayLength =
      microseconds / PTime.dayLength := by
    rw [PTime.dayLength]
    omega
  have sameSeconds : PTime.secondsOfDay (microseconds / 1000000 * 1000000) =
      PTime.secondsOfDay microseconds := by
    rw [PTime.secondsOfDay, PTime.secondsOfDay, PTime.dayLength]
    omega
  rw [isotimeString, isotimeString, PTime.date, PTime.date, sameDay, sameSeconds]

/-- Times are read back from their text with any flags, and the offset behind a date-time is
subtracted with its sign exactly when the sign is not lost. -/
theorem isoTimes_iff (universalTime : ℤ) :
    (∀ time, WholeSecond time → ∀ useTseparator markAsZulu,
      ∃ text, isotimeString time useTseparator markAsZulu = .ok text ∧
        ptimeFromIsoString universalTime text = .ok time) ∧
      ∀ (writtenTime : WrittenTime) (offset : UtcOffset),
        ptimeFromIsoString universalTime (writtenTime.text ++ offset.text) =
          .ok (writtenTime.time.sub offset.signed) ↔ ¬offset.LosesSign :=
  ⟨fun _ wholeSecond useTseparator markAsZulu =>
    ptimeFromIsoString_isotimeString universalTime wholeSecond useTseparator markAsZulu,
    fun writtenTime offset => writtenTime.ptimeFromIsoString_offset_iff universalTime offset⟩

/-- Half an hour behind UTC is taken as half an hour ahead of it. -/
theorem minusThirtyMinutes_ahead :
    let isoTime := Bytes.str "2008-10-18T18:00:00-0030"
    let time := PTime.ofDate ⟨2008, 10, 18⟩ (PTime.timeDuration 18 0 0)
    ptimeFromIsoString 0 isoTime = .ok (time.sub (PTime.timeDuration 0 30 0)) ∧
      ptimeFromIsoString 0 isoTime ≠ .ok (time.sub (-PTime.timeDuration 0 30 0)) := by
  decide +kernel

end miutil

end Wdb2ts
