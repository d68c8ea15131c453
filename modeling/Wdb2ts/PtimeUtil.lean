import Wdb2ts.Decimal
import Wdb2ts.PTime
import Wdb2ts.Lib.Calendar

/-!
# Times as text

`isotimeString` writes a time, and `ptimeFromIsoString` reads it with a cursor that runs through a
table of the parts.  The cursor is the text that is left.  All exceptions are `logic_error`s, of
which the model has the text.
-/

namespace Wdb2ts

/-! ## Dates and durations -/

namespace PTime

/-- The microseconds of a day. -/
def dayLength : ℤ := 86400000000

/-- The day number of 1970-01-01. -/
def epochDay : ℤ := 2440588

/-- `time_duration(hours, minutes, seconds)`.  It is negative when one of its parts is. -/
def timeDuration (hours minutes seconds : ℤ) : ℤ :=
  if hours < 0 ∨ minutes < 0 ∨ seconds < 0 then
    -((|hours| * 3600 + |minutes| * 60 + |seconds|) * 1000000)
  else (hours * 3600 + minutes * 60 + seconds) * 1000000

/-- `boost::gregorian::date`. -/
def gregorianDate (year month day : ℤ) : Except Bytes Calendar.Date :=
  if year < 1400 ∨ 9999 < year then .error (Bytes.str "Year is out of valid range: 1400..9999")
  else if month < 1 ∨ 12 < month then .error (Bytes.str "Month number is out of range 1..12")
  else if day < 1 ∨ 31 < day then .error (Bytes.str "Day of month value is out of range 1..31")
  else if Calendar.endOfMonthDay year month < day then
    .error (Bytes.str "Day of month is not valid for year")
  else .ok ⟨year, month, day⟩

/-- `ptime(date, time_duration)`. -/
def ofDate (date : Calendar.Date) (duration : ℤ) : PTime :=
  .ticks ((Calendar.dayNumber date - epochDay) * dayLength + duration)

/-- `ptime::date`. -/
def date (microseconds : ℤ) : Except Bytes Calendar.Date :=
  let date := Calendar.fromDayNumber (microseconds / dayLength + epochDay)
  gregorianDate date.year date.month date.day

/-- `ptime::time_of_day`, in whole seconds. -/
def secondsOfDay (microseconds : ℤ) : ℕ := (microseconds % dayLength / 1000000).toNat

/-- The start of the day of a time. -/
def startOfDay (microseconds : ℤ) : PTime := .ticks (microseconds / dayLength * dayLength)

/-- `day_of_week` of the date of a time, with 0 for Sunday. -/
def dayOfWeek (microseconds : ℤ) : Except Bytes ℤ :=
  (date microseconds).map fun date => (Calendar.dayNumber date + 1) % 7

end PTime

/-! ## Scanning -/

/-- `sscanf` with `%s` and a width. -/
def scanWord (width : ℕ) (text : Bytes) : Option (Bytes × Bytes) :=
  let rest := text.dropWhile isSpace
  let word := (rest.take width).takeWhile fun byte => !isSpace byte
  if word.isEmpty then none else some (word, rest.drop word.length)

/-- `sscanf` with `%d` and a width. -/
def scanField (width : ℕ) (text : Bytes) : Option (ℤ × Bytes) :=
  let rest := text.dropWhile isSpace
  let sign := (rest.take (min width 1)).filter fun byte =>
    byte = Bytes.chr '-' ∨ byte = Bytes.chr '+'
  let digits := ((rest.take width).drop sign.length).takeWhile isDigit
  if digits.isEmpty then none
  else
    let number : ℤ := decimalNumber digits 0
    some (if sign = [Bytes.chr '-'] then -number else number,
      rest.drop (sign.length + digits.length))

/-- `sscanf` with a byte of the format. -/
def scanByte (byte : Byte) : Bytes → Option Bytes
  | [] => none
  | other :: rest => if other = byte then some rest else none

namespace miutil

/-- The names of the months, as `rfc1123date` compares them. -/
def months : List Bytes :=
  ["Jan", "Feb", "Mar", "Apr", "May", "Jun", "Jul", "Aug", "Sep", "Oct", "Nov", "Dec"].map
    Bytes.str

/-- The names of the days of a week. -/
def weekDays : List Bytes := ["Sun", "Mon", "Tue", "Wed", "Thu", "Fri", "Sat"].map Bytes.str

/-- The variables that `rfc1123date` scans. -/
structure Rfc1123 where
  sday : Bytes
  day : ℤ
  smon : Bytes
  year : ℤ
  h : ℤ
  m : ℤ
  s : ℤ
  gmt : Bytes

/-- The format `%3s, %02d %3s %04d %02d:%02d:%02d %3s`. -/
def scanRfc1123 (text : Bytes) : Option Rfc1123 := do
  let (sday, rest) ← scanWord 3 (cString text)
  let rest ← scanByte (Bytes.chr ',') rest
  let (day, rest) ← scanField 2 rest
  let (smon, rest) ← scanWord 3 rest
  let (year, rest) ← scanField 4 rest
  let (h, rest) ← scanField 2 rest
  let rest ← scanByte (Bytes.chr ':') rest
  let (m, rest) ← scanField 2 rest
  let rest ← scanByte (Bytes.chr ':') rest
  let (s, rest) ← scanField 2 rest
  let (gmt, _) ← scanWord 3 rest
  return { sday, day, smon, year, h, m, s, gmt }

/-- `rfc1123date`. -/
def rfc1123date (rfc1123 : Bytes) : Except Bytes PTime :=
  match scanRfc1123 rfc1123 with
  | none => .ok .notADateTime
  | some scanned =>
      if scanned.gmt ≠ Bytes.str "GMT" then .ok .notADateTime
      else
        match months.findIdx? (· = scanned.smon), weekDays.findIdx? (· = scanned.sday) with
        | some mon, some weekDay =>
            if scanned.day < 0 ∨ 31 < scanned.day ∨ scanned.h < 0 ∨ 23 < scanned.h ∨
                scanned.m < 0 ∨ 59 < scanned.m ∨ scanned.s < 0 ∨ 60 < scanned.s then
              .ok .notADateTime
            else do
              let day ← PTime.gregorianDate scanned.year (mon + 1) scanned.day
              match PTime.ofDate day (PTime.timeDuration scanned.h scanned.m scanned.s) with
              | .ticks microseconds =>
                  let dayOfWeek ← PTime.dayOfWeek microseconds
                  return if (weekDay : ℤ) ≠ dayOfWeek then .notADateTime else .ticks microseconds
              | special => return special
        | _, _ => .ok .notADateTime

/-! ## Writing -/

/-- `isotimeString`. -/
def isotimeString (pt : PTime) (useTseparator markAsZulu : Bool) : Except Bytes Bytes :=
  match pt with
  | .negInfinity => .ok (Bytes.str "-infinity")
  | .posInfinity => .ok (Bytes.str "infinity")
  | .notADateTime => .ok []
  | .ticks microseconds => do
      let d ← PTime.date microseconds
      let t := PTime.secondsOfDay microseconds
      return zeroPadded 4 d.year.toNat ++ Bytes.str "-" ++ (zeroPadded 2 d.month.toNat ++
        Bytes.str "-" ++ (zeroPadded 2 d.day.toNat ++
        (if useTseparator then Bytes.str "T" else Bytes.str " ") ++ (zeroPadded 2 (t / 3600) ++
        Bytes.str ":" ++ (zeroPadded 2 (t / 60 % 60) ++ Bytes.str ":" ++
        (zeroPadded 2 (t % 60) ++ if markAsZulu then Bytes.str "Z" else [])))))

/-! ## Reading -/

/-- An entry of the table `def`. -/
structure Def where
  numberOfChars : ℕ
  nextSep : Bytes
  mustHaveNext : Bool

/-- The table `def` of year, month, day, hour, minute and second. -/
def defs : List Def :=
  [⟨4, Bytes.str "-", true⟩, ⟨2, Bytes.str "-", true⟩, ⟨2, Bytes.str "T ", false⟩,
    ⟨2, Bytes.str ":", false⟩, ⟨2, Bytes.str ":", false⟩, ⟨2, Bytes.str " ", false⟩]

/-- The loop of `getInt`, with the digits that are in the buffer. -/
def getIntLoop (timebuf : Bytes) : ℕ → Bytes → Bytes → Except Bytes (ℤ × Bytes)
  | 0, rest, buf => .ok (decimalNumber buf 0, rest)
  | _ + 1, [], _ =>
      .error (Bytes.str "Invalid timeformat (to few characters). Index: " ++
        printNat timebuf.length)
  | count + 1, byte :: rest, buf =>
      if isDigit byte then getIntLoop timebuf count rest (buf ++ [byte])
      else
        .error (Bytes.str "Invalid timeformat (expect a digit). Index: " ++
          printNat (timebuf.length - (byte :: rest).length))

/-- `getInt`. -/
def getInt (timebuf rest : Bytes) (numberOfChar : ℕ) : Except Bytes (ℤ × Bytes) :=
  if 9 < numberOfChar then .error (Bytes.str "Buffer owerflow.")
  else getIntLoop timebuf numberOfChar rest []

/-- The loop over the table.  A part that is not reached is 0. -/
def decodeParts (isoTime : Bytes) : List Def → Bytes → Except Bytes (List ℤ × Bytes)
  | [], rest => .ok ([], rest)
  | entry :: others, rest => do
      let (number, rest) ← getInt isoTime rest entry.numberOfChars
      if rest.isEmpty then
        if entry.mustHaveNext then
          throw (Bytes.str "Invalid timeformat (" ++ isoTime ++
            Bytes.str "). Expect more characters.")
        else return (number :: others.map fun _ => 0, [])
      else
        let next := rest.dropWhile entry.nextSep.contains
        if next.isEmpty then
          if entry.mustHaveNext then
            throw (Bytes.str "Invalid timeformat (" ++ isoTime ++ Bytes.str "),  decoded: '" ++
              isoTime.take (isoTime.length - rest.length) ++ Bytes.str "'.")
          else return (number :: others.map fun _ => 0, [])
        else
          let (numbers, rest) ← decodeParts isoTime others next
          return (number :: numbers, rest)

/-- Is there a digit at the cursor? -/
def digitNext (rest : Bytes) : Bool := (rest.head?.map isDigit).getD false

/-- The UTC offset part: its hours and its minutes. -/
def decodeOffset (isoTime : Bytes) : Bytes → Except Bytes (ℤ × ℤ)
  | [] => .ok (0, 0)
  | ch :: after =>
      if ch = Bytes.chr 'z' ∨ ch = Bytes.chr 'Z' then .ok (0, 0)
      else if ch = Bytes.chr '+' ∨ ch = Bytes.chr '-' ∨ isDigit ch then do
        let sign : ℤ := if ¬isDigit ch ∧ ch = Bytes.chr '-' then -1 else 1
        let rest := if isDigit ch then ch :: after else after
        if ¬digitNext rest then
          throw (Bytes.str "Invallid timeformat, expecting UTC offset")
        let (hours, rest) ← getInt isoTime rest 2
        let hourOffset := hours * sign
        if digitNext rest then
          let (minuteOffset, _) ← getInt isoTime rest 2
          return (hourOffset, minuteOffset)
        else return (hourOffset, 0)
      else .ok (0, 0)

/-- The decoding of a text that starts with a digit. -/
def decodeIsoTime (isoTime start : Bytes) : Except Bytes PTime := do
  let (numbers, rest) ← decodeParts isoTime defs start
  let (hourOffset, minuteOffset) ← decodeOffset isoTime rest
  let number := fun index : ℕ => numbers.getD index 0
  let date ← PTime.gregorianDate (number 0) (number 1) (number 2)
  let td := PTime.timeDuration (number 3) (number 4) (number 5)
  return (PTime.ofDate date td).sub (PTime.timeDuration hourOffset minuteOffset 0)

/-- `ptimeFromIsoString`, at a time of the clock. -/
def ptimeFromIsoString (universalTime : ℤ) (isoTime : Bytes) : Except Bytes PTime :=
  if isoTime = Bytes.str "infinity" then .ok .posInfinity
  else if isoTime = Bytes.str "-infinity" then .ok .negInfinity
  else if isoTime = Bytes.str "epoch" then
    .ok (PTime.ofDate ⟨1970, 1, 1⟩ (PTime.timeDuration 0 0 0))
  else if isoTime = Bytes.str "now" then .ok (.ticks universalTime)
  else if isoTime = Bytes.str "today" then .ok (PTime.startOfDay universalTime)
  else if isoTime = Bytes.str "tomorrow" then
    .ok (PTime.startOfDay (universalTime + PTime.hours 24))
  else if isoTime = Bytes.str "yesterday" then
    .ok (PTime.startOfDay (universalTime - PTime.hours 24))
  else
    match isoTime.dropWhile fun byte => byte = Bytes.chr ' ' with
    | [] => .error (Bytes.str "No timestring to decode.")
    | first :: rest =>
        if isDigit first then decodeIsoTime isoTime (first :: rest)
        else do
          let pt ← rfc1123date isoTime
          if pt.isSpecial then
            throw (Bytes.str "Invalid timeformat '" ++ isoTime ++ Bytes.str "'.")
          return pt

end miutil

end Wdb2ts
