import Wdb2ts.IntervalText
import Wdb2ts.Lib.CalendarOrder

/-!
# The reads of the CSV export

An export of whole seconds reads every second of its interval once, in pieces of at most a day.  It
ends for every end of the interval but `-infinity`, from which no day leads on.
-/

namespace Wdb2ts

/-! ## Times with a date -/

namespace PTime

/-- The year of a time. -/
def year (microseconds : ℤ) : ℤ :=
  (Calendar.fromDayNumber (microseconds / dayLength + epochDay)).year

theorem exists_date_iff (microseconds : ℤ) :
    (∃ day, date microseconds = .ok day) ↔ 1400 ≤ year microseconds ∧ year microseconds ≤ 9999 := by
  constructor
  · rintro ⟨day, found⟩
    obtain ⟨lower, upper, -, -⟩ := gregorianDate_eq_ok_iff.mp found
    exact ⟨lower, upper⟩
  · rintro ⟨lower, upper⟩
    exact ⟨_, gregorianDate_eq_ok_iff.mpr
      ⟨lower, upper, Calendar.fromDayNumber_valid _, rfl⟩⟩

theorem year_mono {earlier later : ℤ} (le : earlier ≤ later) : year earlier ≤ year later := by
  by_contra greater
  have earlierValid := Calendar.fromDayNumber_valid (earlier / dayLength + epochDay)
  have laterValid := Calendar.fromDayNumber_valid (later / dayLength + epochDay)
  have months : Calendar.monthNumber (Calendar.fromDayNumber (later / dayLength + epochDay)) <
      Calendar.monthNumber (Calendar.fromDayNumber (earlier / dayLength + epochDay)) := by
    have lower := earlierValid.month_pos
    have upper := laterValid.month_le
    rw [year, year] at greater
    rw [Calendar.monthNumber, Calendar.monthNumber]
    omega
  have days := Calendar.dayNumber_lt_of_month laterValid earlierValid months
  rw [Calendar.dayNumber_fromDayNumber, Calendar.dayNumber_fromDayNumber] at days
  have dayLe : earlier / dayLength ≤ later / dayLength := Int.ediv_le_ediv (by decide) le
  omega

/-- The times between two times with a date have one. -/
theorem exists_date_between {first last between : ℤ} (hasFirst : ∃ day, date first = .ok day)
    (hasLast : ∃ day, date last = .ok day) (behind : first ≤ between) (before : between ≤ last) :
    ∃ day, date between = .ok day := by
  rw [exists_date_iff] at *
  exact ⟨hasFirst.1.trans (year_mono behind), (year_mono before).trans hasLast.2⟩

/-- A time with a date is before a later time without one. -/
theorem lt_of_no_date {first dated undated : ℤ} (hasFirst : ∃ day, date first = .ok day)
    (hasDate : ∃ day, date dated = .ok day) (none : ¬∃ day, date undated = .ok day)
    (behind : first ≤ undated) : dated < undated := by
  by_contra notBefore
  exact none (exists_date_between hasFirst hasDate behind (not_lt.mp notBefore))

/-- The first time behind the times with a date. -/
def endOfDates : ℤ := (Calendar.dayNumber ⟨10000, 1, 1⟩ - epochDay) * dayLength

theorem lt_endOfDates {microseconds : ℤ} (hasDate : ∃ day, date microseconds = .ok day) :
    microseconds < endOfDates := by
  have upper := ((exists_date_iff microseconds).mp hasDate).2
  have endYear : year endOfDates = 10000 := by decide +kernel
  by_contra notBefore
  have later := year_mono (not_lt.mp notBefore)
  omega

end PTime

namespace EncodeCSV

/-! ## Reads of an interval -/

/-- The reads of whole seconds: they are ascending and disjoint, at most a day long, and hold
exactly the seconds of an interval. -/
structure ReadsDaily (first last : ℤ) (reads : List (PTime × PTime)) : Prop where
  ascending : reads.Pairwise fun earlier later => earlier.2 < later.1
  atMostOneDay : ∀ read ∈ reads, read.1 ≤ read.2 ∧ read.2 ≤ read.1.add PTime.dayLength
  exact : ∀ second : ℤ,
    (∃ read ∈ reads, read.1 ≤ .ticks (PTime.seconds second) ∧
      .ticks (PTime.seconds second) ≤ read.2) ↔
        first ≤ PTime.seconds second ∧ PTime.seconds second ≤ last

/-- The reads so far hold the seconds before a time. -/
structure ReadsUpTo (first next : ℤ) (reads : List (PTime × PTime)) : Prop where
  daily : ReadsDaily first (next - 1) reads
  before : ∀ read ∈ reads, read.2 < .ticks next

variable {first from_ nextTo to_ : ℤ} {reads : List (PTime × PTime)}

theorem readsUpTo_nil (first : ℤ) : ReadsUpTo first first [] where
  daily := {
    ascending := List.Pairwise.nil
    atMostOneDay := nofun
    exact := by
      intro second
      constructor
      · rintro ⟨read, member, -⟩
        cases member
      · rintro ⟨lower, upper⟩
        omega }
  before := nofun

/-- A read of at most a day is added, and the next one begins a second later. -/
theorem ReadsUpTo.append (upTo : ReadsUpTo first from_ reads) (notEarlier : first ≤ from_)
    (fromWhole : from_ % 1000000 = 0) (toWhole : nextTo % 1000000 = 0) (ordered : from_ ≤ nextTo)
    (oneDay : nextTo ≤ from_ + PTime.dayLength) :
    ReadsUpTo first (nextTo + PTime.seconds 1) (reads ++ [(.ticks from_, .ticks nextTo)]) where
  daily := {
    ascending := by
      rw [List.pairwise_append]
      refine ⟨upTo.daily.ascending, List.pairwise_singleton _ _, ?_⟩
      intro earlier member later isLast
      rw [List.mem_singleton.mp isLast]
      exact upTo.before earlier member
    atMostOneDay := by
      intro read member
      rcases List.mem_append.mp member with old | isLast
      · exact upTo.daily.atMostOneDay read old
      · rw [List.mem_singleton.mp isLast]
        exact ⟨PTime.ticks_le_ticks.mpr ordered, PTime.ticks_le_ticks.mpr oneDay⟩
    exact := by
      intro second
      have old := upTo.daily.exact second
      simp only [List.mem_append, List.mem_singleton, or_and_right, exists_or, exists_eq_left, old,
        PTime.ticks_le_ticks]
      simp only [PTime.seconds]
      omega }
  before := by
    intro read member
    rcases List.mem_append.mp member with old | isLast
    · refine (upTo.before read old).trans_le (PTime.ticks_le_ticks.mpr ?_)
      rw [PTime.seconds]
      omega
    · rw [List.mem_singleton.mp isLast]
      refine PTime.ticks_lt_ticks.mpr ?_
      rw [PTime.seconds]
      omega

/-- The reads up to the second behind a whole second are those of the interval. -/
theorem ReadsUpTo.readsDaily (upTo : ReadsUpTo first (to_ + PTime.seconds 1) reads)
    (toWhole : to_ % 1000000 = 0) : ReadsDaily first to_ reads where
  ascending := upTo.daily.ascending
  atMostOneDay := upTo.daily.atMostOneDay
  exact := by
    intro second
    rw [upTo.daily.exact second]
    simp only [PTime.seconds]
    omega

/-- The reads of a day do not go beyond its last one. -/
theorem ReadsDaily.exists_read (daily : ReadsDaily first to_ reads) (ordered : first ≤ to_)
    (toWhole : to_ % 1000000 = 0) : ∃ read ∈ reads, .ticks to_ ≤ read.2 := by
  have isSecond : PTime.seconds (to_ / 1000000) = to_ := by
    rw [PTime.seconds]
    omega
  obtain ⟨read, member, -, behind⟩ :=
    (daily.exact (to_ / 1000000)).mpr ⟨isSecond.symm ▸ ordered, isSecond.le⟩
  exact ⟨read, member, isSecond ▸ behind⟩

/-! ## Rounds -/

variable {F : Type} [TextFunctions F]

/-- The database answers every query. -/
def Answers (perform : Perform) : Prop := ∀ query, ∃ rows, perform query = .ok rows

/-- The query has a place to read at. -/
def CanRead (webQuery : WciWebQuery F) : Prop := ∃ text, webQuery.wciReadQuery = .ok text

/-- The end of the interval that a round reads. -/
def clamped (to_ nextTo : PTime) : PTime := if nextTo > to_ then to_ else nextTo

variable {perform : Perform} {hasReftime : Bool} {webQuery : WciWebQuery F}

/-- Whether a query has a place does not depend on its times. -/
theorem canRead_decodeTimes (canRead : CanRead webQuery) (hasReftime : Bool) (text : Bytes) :
    CanRead (decodeTimes hasReftime text webQuery).2 := by
  obtain ⟨query, isQuery⟩ := canRead
  have hasPlace : (!webQuery.isPolygon &&
      (!webQuery.latitude.valid_ || !webQuery.longitude.valid_)) = false := by
    by_contra noPlace
    rw [WciWebQuery.wciReadQuery, if_pos (Bool.not_eq_false _ ▸ noPlace)] at isQuery
    cases isQuery
  refine ⟨WciWebQuery.readText (decodeTimes hasReftime text webQuery).2, ?_⟩
  rw [WciWebQuery.wciReadQuery, if_neg]
  rw [Bool.not_eq_true]
  cases hasReftime <;> exact hasPlace

/-- An interval of texts of times is decoded to the times. -/
theorem times_decodeTimes (hasReftime : Bool) (webQuery : WciWebQuery F)
    {fromText toText ind : Bytes} {fromTime toTime : PTime}
    (isFrom : UrlParamTimeSpec.IsTimeText F fromText fromTime)
    (isTo : UrlParamTimeSpec.IsTimeText F toText toTime)
    (isInd : ind = Bytes.str "exact" ∨ ind = Bytes.str "inside") :
    let decoded := decodeTimes hasReftime
      (fromText ++ Bytes.str "," ++ toText ++ Bytes.str "," ++ ind) webQuery
    (timeSpec hasReftime decoded.2).fromTime = fromTime ∧
      (timeSpec hasReftime decoded.2).toTime = toTime ∧
      ((fromTime = toTime → ind = Bytes.str "exact") → decoded.1 = none) := by
  obtain ⟨isProtocol1, decodes⟩ := UrlParamTimeSpec.decode_interval isFrom isTo isInd
    (timeSpec hasReftime webQuery)
  have times := UrlParamTimeSpec.times_select isProtocol1 ⟨fromText, toText, ind⟩
    (UrlParamTimeSpec.withTimes fromTime toTime ind (timeSpec hasReftime webQuery))
  have spec : timeSpec hasReftime (decodeTimes hasReftime
      (fromText ++ Bytes.str "," ++ toText ++ Bytes.str "," ++ ind) webQuery).2 =
        ((timeSpec hasReftime webQuery).decode F
          (fromText ++ Bytes.str "," ++ toText ++ Bytes.str "," ++ ind)).2 := by
    cases hasReftime <;> rfl
  dsimp only
  rw [spec, decodes]
  refine ⟨times.1, times.2, fun meaning => ?_⟩
  rw [decodeTimes, decodes]
  exact UrlParamTimeSpec.select_eq_none isProtocol1 meaning

/-- The text of an interval is made of the texts of its ends. -/
theorem exists_intervalText {from_ nextTo : PTime} {fromText toText : Bytes}
    (fromWritten : miutil.isotimeString from_ true true = .ok fromText)
    (toWritten : miutil.isotimeString nextTo true true = .ok toText) :
    ∃ ind, intervalText from_ nextTo =
        .ok (fromText ++ Bytes.str "," ++ toText ++ Bytes.str "," ++ ind) ∧
      (ind = Bytes.str "exact" ∨ ind = Bytes.str "inside") ∧
      (from_ = nextTo → ind = Bytes.str "exact") := by
  rw [intervalText, fromWritten, toWritten]
  by_cases same : from_ = nextTo
  · refine ⟨Bytes.str "exact", ?_, Or.inl rfl, fun _ => rfl⟩
    simp only [if_pos same]
    rfl
  · refine ⟨Bytes.str "inside", ?_, Or.inr rfl, fun isSame => absurd isSame same⟩
    simp only [if_neg same]
    rfl

variable {state : LoopState F} {to_ : PTime}

theorem round_eq (perform : Perform) (hasReftime : Bool) (to_ : PTime) (state : LoopState F) :
    round perform hasReftime to_ state =
      match intervalText state.from_ (clamped to_ state.nextTo) with
      | .error what => .inr (state.throw what)
      | .ok text =>
          match (clamped to_ state.nextTo).addDay with
          | .error what => .inr (state.throw what)
          | .ok next =>
              readInterval perform hasReftime to_ text
                ((clamped to_ state.nextTo).add (PTime.seconds 1)) next state := rfl

/-- A round whose ends have texts, with a code that has a meaning, reads their times. -/
theorem round_reads (hasReftime : Bool) (answers : Answers perform)
    (canRead : CanRead state.webQuery_) {fromText toText : Bytes} {fromTime toTime next : PTime}
    (fromWritten : miutil.isotimeString state.from_ true true = .ok fromText)
    (toWritten : miutil.isotimeString (clamped to_ state.nextTo) true true = .ok toText)
    (isFrom : UrlParamTimeSpec.IsTimeText F fromText fromTime)
    (isTo : UrlParamTimeSpec.IsTimeText F toText toTime)
    (meaning : fromTime = toTime → state.from_ = clamped to_ state.nextTo)
    (nextDay : (clamped to_ state.nextTo).addDay = .ok next) :
    ∃ webQuery out, CanRead webQuery ∧
      round perform hasReftime to_ state =
        if (clamped to_ state.nextTo).add (PTime.seconds 1) ≤ to_ then
          .inl ⟨webQuery, (clamped to_ state.nextTo).add (PTime.seconds 1), next,
            state.reads ++ [(fromTime, toTime)], out⟩
        else .inr ⟨state.reads ++ [(fromTime, toTime)], out, none⟩ := by
  obtain ⟨ind, isText, isInd, same⟩ := exists_intervalText fromWritten toWritten
  obtain ⟨fromDecoded, toDecoded, accepted⟩ :=
    times_decodeTimes hasReftime state.webQuery_ isFrom isTo isInd
  have notThrown := accepted fun sameTime => same (meaning sameTime)
  obtain ⟨query, isQuery⟩ := canRead_decodeTimes canRead hasReftime
    (fromText ++ Bytes.str "," ++ toText ++ Bytes.str "," ++ ind)
  obtain ⟨rows, answered⟩ := answers (query ++ Bytes.str " order by validto;")
  refine ⟨_, state.out ++ rows, ⟨query, isQuery⟩, ?_⟩
  rw [round_eq, isText, nextDay]
  dsimp only
  rw [readInterval]
  cases decoded : decodeTimes hasReftime
      (fromText ++ Bytes.str "," ++ toText ++ Bytes.str "," ++ ind) state.webQuery_ with
  | mk thrown webQuery =>
      rw [decoded] at fromDecoded toDecoded notThrown isQuery
      dsimp only at fromDecoded toDecoded notThrown isQuery
      subst notThrown
      simp only [isQuery, answered, fromDecoded, toDecoded]

/-- The interval that a text is decoded to. -/
def readOf (hasReftime : Bool) (text : Bytes) (webQuery : WciWebQuery F) : PTime × PTime :=
  let spec := timeSpec hasReftime (decodeTimes hasReftime text webQuery).2
  (spec.fromTime, spec.toTime)

/-- What the part of a round behind the text does: it throws, or reads the interval of the text. -/
theorem readInterval_cases (perform : Perform) (hasReftime : Bool) (to_ : PTime) (text : Bytes)
    (from_ nextTo : PTime) (state : LoopState F) :
    Sum.elim
      (fun next => next.from_ = from_ ∧ next.nextTo = nextTo ∧ from_ ≤ to_ ∧
        next.reads = state.reads ++ [readOf hasReftime text state.webQuery_])
      (fun outcome => outcome.reads = state.reads ∨
        outcome.reads = state.reads ++ [readOf hasReftime text state.webQuery_])
      (readInterval perform hasReftime to_ text from_ nextTo state) := by
  rw [readInterval, readOf]
  cases decodeTimes hasReftime text state.webQuery_ with
  | mk thrown webQuery =>
      cases thrown with
      | some what => exact Or.inl rfl
      | none =>
          dsimp only
          cases webQuery.wciReadQuery with
          | error what => exact Or.inl rfl
          | ok query =>
              dsimp only
              cases perform (query ++ Bytes.str " order by validto;") with
              | error what => exact Or.inr rfl
              | ok rows =>
                  dsimp only
                  split
                  · next goesOn => exact ⟨rfl, rfl, goesOn, rfl⟩
                  · exact Or.inr rfl

/-- The seconds that a round reads between two times. -/
def readSeconds (from_ last : ℤ) : PTime × PTime :=
  (.ticks (from_ / 1000000 * 1000000), .ticks (last / 1000000 * 1000000))

/-- What a round does between two times: it throws, or reads their seconds. -/
theorem round_cases (perform : Perform) (hasReftime : Bool)
    (readsIsoTimes : UrlParamTimeSpec.ReadsIsoTimes F) {from_ last : ℤ}
    (isFrom : state.from_ = .ticks from_) (isLast : clamped to_ state.nextTo = .ticks last) :
    Sum.elim
      (fun next => (∃ day, PTime.date last = .ok day) ∧
        next.from_ = .ticks (last + PTime.seconds 1) ∧
        next.nextTo = .ticks (last + PTime.dayLength) ∧ next.from_ ≤ to_ ∧
        next.reads = state.reads ++ [readSeconds from_ last])
      (fun outcome => outcome.reads = state.reads ∨
        (∃ day, PTime.date last = .ok day) ∧
          outcome.reads = state.reads ++ [readSeconds from_ last])
      (round perform hasReftime to_ state) := by
  rw [round_eq, intervalText]
  cases fromWritten : miutil.isotimeString state.from_ true true with
  | error what => exact Or.inl rfl
  | ok fromText =>
      cases toWritten : miutil.isotimeString (clamped to_ state.nextTo) true true with
      | error what => exact Or.inl rfl
      | ok toText =>
          obtain ⟨ind, isText, isInd, -⟩ := exists_intervalText fromWritten toWritten
          rw [intervalText, fromWritten, toWritten] at isText
          rw [isFrom] at fromWritten
          rw [isLast] at toWritten
          obtain ⟨day, found⟩ := (miutil.isotimeString_ticks toWritten).1
          have nextDay : PTime.addDay (.ticks last) = .ok (.ticks (last + PTime.dayLength)) := by
            rw [PTime.addDay, found]
            rfl
          obtain ⟨fromDecoded, toDecoded, -⟩ :=
            times_decodeTimes hasReftime state.webQuery_
              (UrlParamTimeSpec.isTimeText_ticks readsIsoTimes fromWritten)
              (UrlParamTimeSpec.isTimeText_ticks readsIsoTimes toWritten) isInd
          have reads := readInterval_cases perform hasReftime to_
            (fromText ++ Bytes.str "," ++ toText ++ Bytes.str "," ++ ind)
            (.ticks (last + PTime.seconds 1)) (.ticks (last + PTime.dayLength)) state
          rw [readOf, fromDecoded, toDecoded] at reads
          rw [isText, isLast, nextDay]
          dsimp only
          change Sum.elim _ _ (readInterval perform hasReftime to_ _
            (.ticks (last + PTime.seconds 1)) (.ticks (last + PTime.dayLength)) state)
          cases outcome : readInterval perform hasReftime to_
              (fromText ++ Bytes.str "," ++ toText ++ Bytes.str "," ++ ind)
              (.ticks (last + PTime.seconds 1)) (.ticks (last + PTime.dayLength)) state with
          | inl next =>
              rw [outcome] at reads
              obtain ⟨nextFrom, nextNext, goesOn, nextReads⟩ := reads
              exact ⟨⟨day, found⟩, nextFrom, nextNext, nextFrom.symm ▸ goesOn, nextReads⟩
          | inr result =>
              rw [outcome] at reads
              exact reads.imp_right fun isRead => ⟨⟨day, found⟩, isRead⟩

/-! ## Ends of the loop -/

/-- A finite end of a piece stays one, or becomes the end of the interval. -/
theorem exists_clamped (notBegin : to_ ≠ .negInfinity) (nextTo : ℤ) :
    ∃ last, clamped to_ (.ticks nextTo) = .ticks last ∧ (last = nextTo ∨ to_ = .ticks last) := by
  rw [clamped]
  split
  · next later =>
      cases to_ with
      | ticks last => exact ⟨last, rfl, Or.inr rfl⟩
      | negInfinity => exact absurd rfl notBegin
      | notADateTime => exact absurd later (by simp [PTime.le_iff_leb, PTime.leb, ← not_le])
      | posInfinity => exact absurd later (by simp [PTime.le_iff_leb, PTime.leb, ← not_le])
  · exact ⟨nextTo, rfl, Or.inl rfl⟩

/-- Both ends of the next piece are finite. -/
def Finite (state : LoopState F) : Prop :=
  ∃ from_ nextTo, state.from_ = .ticks from_ ∧ state.nextTo = .ticks nextTo

/-- The time that is left for dates. -/
def timeLeft (state : LoopState F) : ℕ :=
  match state.nextTo with
  | .ticks nextTo => (PTime.endOfDates + PTime.dayLength - nextTo).toNat
  | _ => 0

/-- The loop ends for every end of the interval but `-infinity`. -/
theorem exists_outcome (perform : Perform) (hasReftime : Bool)
    (readsIsoTimes : UrlParamTimeSpec.ReadsIsoTimes F) (notBegin : to_ ≠ .negInfinity)
    (finite : Finite state) :
    ∃ fuel outcome, WhileLoop.runUntil (round perform hasReftime to_) fuel state =
      some outcome := by
  have rounds (state : LoopState F) (finite : Finite state) :
      WhileLoop.Round Finite timeLeft (fun _ => True) state
        (round perform hasReftime to_ state) := by
    obtain ⟨from_, nextTo, isFrom, isNext⟩ := finite
    obtain ⟨last, isLast, unclamped⟩ := exists_clamped notBegin nextTo
    rw [← isNext] at isLast
    cases outcome : round perform hasReftime to_ state with
    | inr result => trivial
    | inl next =>
        have did := round_cases perform hasReftime readsIsoTimes isFrom isLast
        rw [outcome] at did
        obtain ⟨hasDate, nextFrom, nextNext, goesOn, -⟩ := did
        have before := PTime.lt_endOfDates hasDate
        have same : last = nextTo := by
          refine unclamped.resolve_right ?_
          rintro rfl
          rw [nextFrom, PTime.ticks_le_ticks, PTime.seconds] at goesOn
          omega
        refine ⟨⟨_, _, nextFrom, nextNext⟩, ?_⟩
        simp only [timeLeft, nextNext, isNext, PTime.dayLength, same] at before ⊢
        omega
  obtain ⟨outcome, ran, -⟩ := WhileLoop.runUntil_of_rounds rounds finite
    (Nat.lt_succ_self (timeLeft state))
  exact ⟨_, outcome, ran⟩

theorem clamped_negInfinity (nextTo : PTime) : clamped .negInfinity nextTo = .negInfinity := by
  cases nextTo <;> rfl

/-- The state of an export that goes on forever. -/
structure Endless (state : LoopState F) : Prop where
  canRead : CanRead state.webQuery_
  isFrom : ∃ text time, miutil.isotimeString state.from_ true true = .ok text ∧
    UrlParamTimeSpec.IsTimeText F text time ∧ (time = .negInfinity → state.from_ = .negInfinity)

/-- The loop never ends when the end of the interval is `-infinity`. -/
theorem runUntil_negInfinity (readsIsoTimes : UrlParamTimeSpec.ReadsIsoTimes F)
    (answers : Answers perform) (endless : Endless state) (fuel : ℕ) :
    WhileLoop.runUntil (round perform hasReftime .negInfinity) fuel state = none := by
  have isTo := UrlParamTimeSpec.isTimeText_negInfinity readsIsoTimes
  have goesOn (state : LoopState F) (endless : Endless state) :
      ∃ next, round perform hasReftime .negInfinity state = .inl next ∧ Endless next := by
    obtain ⟨text, time, written, isTime, negInfinity⟩ := endless.isFrom
    have toEnd := clamped_negInfinity state.nextTo
    have toWritten : miutil.isotimeString (clamped .negInfinity state.nextTo) true true =
        .ok (Bytes.str "-infinity") := by
      rw [toEnd]
      rfl
    have nextDay : (clamped .negInfinity state.nextTo).addDay = .ok .negInfinity := by
      rw [toEnd]
      rfl
    have meaning (same : time = .negInfinity) :
        state.from_ = clamped .negInfinity state.nextTo :=
      (negInfinity same).trans toEnd.symm
    obtain ⟨webQuery, out, canRead, reads⟩ := round_reads hasReftime answers endless.canRead
      written toWritten isTime isTo meaning nextDay
    rw [toEnd, if_pos (by rfl)] at reads
    exact ⟨_, reads, canRead, _, _, rfl, isTo, fun _ => rfl⟩
  exact WhileLoop.runUntil_eq_none goesOn endless fuel

/-! ## Seconds that are read -/

/-- The state before the piece from a time on. -/
structure Progress (first last from_ nextTo : ℤ) (state : LoopState F) : Prop where
  canRead : CanRead state.webQuery_
  isFrom : state.from_ = .ticks from_
  isNext : state.nextTo = .ticks nextTo
  fromWhole : from_ % 1000000 = 0
  nextWhole : nextTo % 1000000 = 0
  behind : first ≤ from_
  before : from_ ≤ last
  ordered : from_ ≤ nextTo
  oneDay : nextTo ≤ from_ + PTime.dayLength
  reads : ReadsUpTo first from_ state.reads

/-- A state before some piece. -/
def OnWay (first last : ℤ) (state : LoopState F) : Prop :=
  ∃ from_ nextTo, Progress first last from_ nextTo state

section Progress

variable {first last from_ nextTo : ℤ}

/-- The end of the next piece. -/
theorem Progress.clamped_eq (progress : Progress first last from_ nextTo state) :
    clamped (.ticks last) state.nextTo = .ticks (min nextTo last) := by
  rw [clamped, progress.isNext]
  split
  · next later => rw [min_eq_right (PTime.ticks_lt_ticks.mp later).le]
  · next notLater => rw [min_eq_left (PTime.ticks_le_ticks.mp (not_lt.mp notLater))]

/-- The next piece ends at a whole second. -/
theorem Progress.endWhole (progress : Progress first last from_ nextTo state)
    (lastWhole : last % 1000000 = 0) : min nextTo last % 1000000 = 0 := by
  rcases min_choice nextTo last with same | same
  · rw [same]
    exact progress.nextWhole
  · rw [same]
    exact lastWhole

/-- A round between whole seconds with dates reads the next piece. -/
theorem Progress.round_eq (readsIsoTimes : UrlParamTimeSpec.ReadsIsoTimes F)
    (answers : Answers perform) (lastWhole : last % 1000000 = 0)
    (hasFirst : ∃ day, PTime.date first = .ok day) (hasLast : ∃ day, PTime.date last = .ok day)
    (progress : Progress first last from_ nextTo state) :
    ∃ webQuery out, CanRead webQuery ∧
      EncodeCSV.round perform hasReftime (.ticks last) state =
        if min nextTo last + PTime.seconds 1 ≤ last then
          .inl ⟨webQuery, .ticks (min nextTo last + PTime.seconds 1),
            .ticks (min nextTo last + PTime.dayLength),
            state.reads ++ [(.ticks from_, .ticks (min nextTo last))], out⟩
        else .inr ⟨state.reads ++ [(.ticks from_, .ticks (min nextTo last))], out, none⟩ := by
  have behindEnd := progress.behind.trans progress.ordered
  obtain ⟨fromDay, fromFound⟩ :=
    PTime.exists_date_between hasFirst hasLast progress.behind progress.before
  obtain ⟨endDay, endFound⟩ := PTime.exists_date_between hasFirst hasLast
    (le_min behindEnd (progress.behind.trans progress.before)) (min_le_right _ _)
  obtain ⟨fromText, fromWritten⟩ := miutil.exists_isotimeString fromFound true true
  obtain ⟨toText, toWritten⟩ := miutil.exists_isotimeString endFound true true
  have isFrom := UrlParamTimeSpec.isTimeText_ticks readsIsoTimes fromWritten
  have isTo := UrlParamTimeSpec.isTimeText_ticks readsIsoTimes toWritten
  rw [Int.ediv_mul_cancel_of_emod_eq_zero progress.fromWhole] at isFrom
  rw [Int.ediv_mul_cancel_of_emod_eq_zero (progress.endWhole lastWhole)] at isTo
  have nextDay : PTime.addDay (.ticks (min nextTo last)) =
      .ok (.ticks (min nextTo last + PTime.dayLength)) := by
    rw [PTime.addDay, endFound]
    rfl
  rw [← progress.isFrom] at fromWritten isFrom
  rw [← progress.clamped_eq] at toWritten isTo nextDay
  obtain ⟨webQuery, out, canRead, reads⟩ := round_reads hasReftime answers progress.canRead
    fromWritten toWritten isFrom isTo id nextDay
  rw [progress.clamped_eq, progress.isFrom] at reads
  refine ⟨webQuery, out, canRead, reads.trans ?_⟩
  simp only [PTime.add, PTime.ticks_le_ticks]

/-- A round reads the next piece, and the loop ends behind the last one. -/
theorem OnWay.round (readsIsoTimes : UrlParamTimeSpec.ReadsIsoTimes F)
    (answers : Answers perform) (lastWhole : last % 1000000 = 0)
    (hasFirst : ∃ day, PTime.date first = .ok day) (hasLast : ∃ day, PTime.date last = .ok day)
    (onWay : OnWay first last state) :
    Sum.elim (OnWay first last) (fun outcome => ReadsDaily first last outcome.reads)
      (EncodeCSV.round perform hasReftime (.ticks last) state) := by
  obtain ⟨from_, nextTo, progress⟩ := onWay
  obtain ⟨webQuery, out, canRead, reads⟩ :=
    progress.round_eq readsIsoTimes answers lastWhole hasFirst hasLast
  have endWhole := progress.endWhole lastWhole
  have aboveFrom := le_min progress.ordered progress.before
  have upTo := progress.reads.append progress.behind progress.fromWhole endWhole aboveFrom
    ((min_le_left _ _).trans progress.oneDay)
  rw [reads]
  by_cases goesOn : min nextTo last + PTime.seconds 1 ≤ last
  · rw [if_pos goesOn]
    have behind := progress.behind
    have length : PTime.dayLength = 86400000000 := rfl
    have second : PTime.seconds 1 = 1000000 := rfl
    exact ⟨_, _, {
      canRead := canRead
      isFrom := rfl
      isNext := rfl
      fromWhole := by omega
      nextWhole := by omega
      behind := by omega
      before := goesOn
      ordered := by omega
      oneDay := by omega
      reads := upTo }⟩
  · rw [if_neg goesOn]
    have atLast : min nextTo last = last := by
      have atMost := min_le_right nextTo last
      rw [PTime.seconds] at goesOn
      omega
    rw [atLast] at upTo ⊢
    exact upTo.readsDaily lastWhole

end Progress

/-- The state of an export that has read no second from a time on. -/
structure Before (last : ℤ) (state : LoopState F) : Prop where
  finite : Finite state
  reads : ∀ read ∈ state.reads, read.2 < .ticks last

/-! ## The export -/

/-- The export of an interval ends, and reads every day once when the interval has whole seconds as
its ends. -/
def ExportsDaily (perform : Perform) (webQuery : WciWebQuery F) (first : ℤ) (to_ : PTime) : Prop :=
  ∃ fuel outcome, encode perform fuel webQuery = some outcome ∧
    ∀ last, to_ = .ticks last → first % 1000000 = 0 → last % 1000000 = 0 → first ≤ last →
      ReadsDaily first last outcome.reads

/-- What the ends of an interval need: the end is not `-infinity`, unless the begin has no date, and
two whole seconds in their order have dates. -/
structure Exportable (first : ℤ) (to_ : PTime) : Prop where
  ends : to_ = .negInfinity → ¬∃ day, PTime.date first = .ok day
  dated : ∀ last, to_ = .ticks last → first % 1000000 = 0 → last % 1000000 = 0 → first ≤ last →
    (∃ day, PTime.date first = .ok day) ∧ ∃ day, PTime.date last = .ok day

/-- An accepted query has a place to read at. -/
theorem canRead_of_accept {wciProtocol : ℤ} {queryIn : Bytes}
    (accepted : LocationHandler.accept wciProtocol queryIn = .ok webQuery) :
    CanRead webQuery := by
  rw [LocationHandler.accept, WciWebQuery.decode] at accepted
  cases values : (WciWebQuery.new (F := F) wciProtocol (Bytes.str "*")).decodeValues queryIn with
  | mk thrown query =>
      rw [values] at accepted
      cases thrown with
      | some what => cases accepted
      | none =>
          dsimp only at accepted
          cases read : query.wciReadQuery with
          | error what =>
              rw [read] at accepted
              cases accepted
          | ok text =>
              rw [read] at accepted
              dsimp only at accepted
              split at accepted
              · cases accepted
              · cases accepted
                exact ⟨text, read⟩

/-- An export whose begin has no date throws before it reads. -/
theorem encode_of_no_date {first : ℤ} (isInterval : interval webQuery =
      some (hasReftime, .ticks first, to_)) (noDate : ¬∃ day, PTime.date first = .ok day)
    (fuel : ℕ) : ∃ what, encode perform fuel webQuery = some ⟨[], header, some what⟩ := by
  rw [encode, isInterval]
  dsimp only
  rw [PTime.addDay]
  cases found : PTime.date first with
  | ok day => exact absurd ⟨day, found⟩ noDate
  | error what => exact ⟨what, rfl⟩

/-- The first piece of an export begins at the begin of its interval. -/
theorem encode_of_date {first : ℤ} (isInterval : interval webQuery =
      some (hasReftime, .ticks first, to_)) {day : Calendar.Date}
    (found : PTime.date first = .ok day) (fuel : ℕ) :
    encode perform fuel webQuery = WhileLoop.runUntil (round perform hasReftime to_) fuel
      ⟨webQuery, .ticks first, .ticks (first + PTime.dayLength), [], header⟩ := by
  rw [encode, isInterval]
  dsimp only
  rw [PTime.addDay, found]
  rfl

/-- An export of whole seconds with dates reads every day once. -/
theorem readsDaily_of_dated (readsIsoTimes : UrlParamTimeSpec.ReadsIsoTimes F)
    (answers : Answers perform) (canRead : CanRead webQuery) {first last : ℤ}
    (firstWhole : first % 1000000 = 0) (lastWhole : last % 1000000 = 0) (ordered : first ≤ last)
    (hasFirst : ∃ day, PTime.date first = .ok day) (hasLast : ∃ day, PTime.date last = .ok day)
    {fuel : ℕ} {outcome : Outcome}
    (ran : WhileLoop.runUntil (round perform hasReftime (.ticks last)) fuel
      ⟨webQuery, .ticks first, .ticks (first + PTime.dayLength), [], header⟩ = some outcome) :
    ReadsDaily first last outcome.reads := by
  have length : PTime.dayLength = 86400000000 := rfl
  have starts : Progress first last first (first + PTime.dayLength)
      ⟨webQuery, .ticks first, .ticks (first + PTime.dayLength), [], header⟩ := {
    canRead := canRead
    isFrom := rfl
    isNext := rfl
    fromWhole := firstWhole
    nextWhole := by omega
    behind := le_rfl
    before := ordered
    ordered := by omega
    oneDay := le_rfl
    reads := readsUpTo_nil first }
  have rounds (state : LoopState F) (onWay : OnWay first last state) :
      Sum.elim (OnWay first last) (fun outcome => ReadsDaily first last outcome.reads)
        (round perform hasReftime (.ticks last) state) :=
    onWay.round readsIsoTimes answers lastWhole hasFirst hasLast
  exact WhileLoop.runUntil_of_invariant rounds ⟨_, _, starts⟩ ran

/-- An export reads no second from a time without a date on. -/
theorem reads_before (readsIsoTimes : UrlParamTimeSpec.ReadsIsoTimes F) {first last : ℤ}
    (hasFirst : ∃ day, PTime.date first = .ok day) (noDate : ¬∃ day, PTime.date last = .ok day)
    (ordered : first ≤ last) {fuel : ℕ} {outcome : Outcome}
    (ran : WhileLoop.runUntil (round perform hasReftime (.ticks last)) fuel
      ⟨webQuery, .ticks first, .ticks (first + PTime.dayLength), [], header⟩ = some outcome) :
    ∀ read ∈ outcome.reads, read.2 < .ticks last := by
  have appended {reads : List (PTime × PTime)} (before : ∀ read ∈ reads, read.2 < .ticks last)
      {from_ end_ : ℤ} (hasDate : ∃ day, PTime.date end_ = .ok day) :
      ∀ read ∈ reads ++ [readSeconds from_ end_], read.2 < .ticks last := by
    intro read member
    rcases List.mem_append.mp member with old | isLast
    · exact before read old
    · have less := PTime.lt_of_no_date hasFirst hasDate noDate ordered
      rw [List.mem_singleton.mp isLast, readSeconds, PTime.ticks_lt_ticks]
      omega
  have notBegin : PTime.ticks last ≠ .negInfinity := nofun
  have begins : Before last (⟨webQuery, .ticks first, .ticks (first + PTime.dayLength), [],
      header⟩ : LoopState F) := ⟨⟨_, _, rfl, rfl⟩, nofun⟩
  have rounds (state : LoopState F) (before : Before last state) :
      Sum.elim (Before last) (fun outcome => ∀ read ∈ outcome.reads, read.2 < .ticks last)
        (round perform hasReftime (.ticks last) state) := by
    obtain ⟨from_, nextTo, isFrom, isNext⟩ := before.finite
    obtain ⟨end_, isEnd, -⟩ := exists_clamped notBegin nextTo
    rw [← isNext] at isEnd
    have did := round_cases perform hasReftime readsIsoTimes isFrom isEnd
    cases outcome : round perform hasReftime (.ticks last) state with
    | inl next =>
        rw [outcome] at did
        obtain ⟨hasDate, nextFrom, nextNext, -, reads⟩ := did
        refine ⟨⟨_, _, nextFrom, nextNext⟩, ?_⟩
        rw [reads]
        exact appended before.reads hasDate
    | inr result =>
        rw [outcome] at did
        rw [Sum.elim_inr]
        rcases did with reads | ⟨hasDate, reads⟩
        · rw [reads]
          exact before.reads
        · rw [reads]
          exact appended before.reads hasDate
  exact WhileLoop.runUntil_of_invariant rounds begins ran

/-- The export of an accepted query ends and reads every day once exactly when its interval is
exportable. -/
theorem exportsDaily_iff (readsIsoTimes : UrlParamTimeSpec.ReadsIsoTimes F)
    (answers : Answers perform) {wciProtocol : ℤ} {queryIn : Bytes}
    (accepted : LocationHandler.accept wciProtocol queryIn = .ok webQuery) {first : ℤ}
    (isInterval : interval webQuery = some (hasReftime, .ticks first, to_)) :
    ExportsDaily perform webQuery first to_ ↔ Exportable first to_ := by
  have canRead := canRead_of_accept accepted
  by_cases hasDate : ∃ day, PTime.date first = .ok day
  · obtain ⟨day, found⟩ := hasDate
    rw [ExportsDaily]
    simp only [encode_of_date isInterval found]
    constructor
    · rintro ⟨fuel, outcome, ran, daily⟩
      constructor
      · rintro rfl
        obtain ⟨text, written⟩ := miutil.exists_isotimeString found true true
        have endless : Endless (⟨webQuery, .ticks first, .ticks (first + PTime.dayLength), [],
            header⟩ : LoopState F) := ⟨canRead, text, _, written,
          UrlParamTimeSpec.isTimeText_ticks readsIsoTimes written, nofun⟩
        rw [runUntil_negInfinity readsIsoTimes answers endless] at ran
        cases ran
      · intro last isLast firstWhole lastWhole ordered
        refine ⟨⟨day, found⟩, ?_⟩
        by_contra noDate
        subst isLast
        obtain ⟨read, member, behind⟩ :=
          (daily last rfl firstWhole lastWhole ordered).exists_read ordered lastWhole
        exact absurd behind (reads_before readsIsoTimes ⟨day, found⟩ noDate ordered ran read
          member).not_ge
    · intro exportable
      have finite : Finite (⟨webQuery, .ticks first, .ticks (first + PTime.dayLength), [],
          header⟩ : LoopState F) := ⟨_, _, rfl, rfl⟩
      have notBegin : to_ ≠ .negInfinity := fun isBegin => exportable.ends isBegin ⟨day, found⟩
      obtain ⟨fuel, outcome, ran⟩ := exists_outcome perform hasReftime readsIsoTimes notBegin
        finite
      refine ⟨fuel, outcome, ran, ?_⟩
      intro last isLast firstWhole lastWhole ordered
      obtain ⟨hasFirst, hasLast⟩ := exportable.dated last isLast firstWhole lastWhole ordered
      subst isLast
      exact readsDaily_of_dated readsIsoTimes answers canRead firstWhole lastWhole ordered hasFirst
        hasLast ran
  · constructor
    · rintro ⟨fuel, outcome, ran, daily⟩
      refine ⟨fun _ => hasDate, ?_⟩
      intro last isLast firstWhole lastWhole ordered
      obtain ⟨read, member, -⟩ :=
        (daily last isLast firstWhole lastWhole ordered).exists_read ordered lastWhole
      obtain ⟨what, throws⟩ := encode_of_no_date isInterval hasDate fuel
      rw [throws] at ran
      cases ran
      cases member
    · intro exportable
      obtain ⟨what, throws⟩ := encode_of_no_date isInterval hasDate 0
      refine ⟨0, _, throws, ?_⟩
      intro last isLast firstWhole lastWhole ordered
      exact absurd (exportable.dated last isLast firstWhole lastWhole ordered).1 hasDate

/-- The functions on whole numbers, with the times of clients. -/
@[reducible] def withIsoTimes : TextFunctions ℚ :=
  { wholeNumbers with ptimeFromIsoString := miutil.ptimeFromIsoString 0 }

/-- Accept a query with the functions on whole numbers. -/
def acceptWhole (text : Bytes) : Except Bytes (WciWebQuery ℚ) :=
  @LocationHandler.accept ℚ withIsoTimes 2 text

/-- The interval of an accepted query. -/
def intervalWhole (text : Bytes) : Option (Bool × PTime × PTime) :=
  match acceptWhole text with
  | .error _ => none
  | .ok webQuery => interval webQuery

theorem exists_accepted (text : Bytes) (found : Bool × PTime × PTime)
    (isInterval : intervalWhole text = some found) :
    ∃ webQuery, acceptWhole text = .ok webQuery ∧ interval webQuery = some found := by
  rw [intervalWhole] at isInterval
  cases accepted : acceptWhole text with
  | error what =>
      rw [accepted] at isInterval
      cases isInterval
  | ok webQuery =>
      rw [accepted] at isInterval
      exact ⟨webQuery, rfl, isInterval⟩

/-- The first of January 2014, at midnight. -/
def newYear : ℤ := 1388534400000000

theorem exportsDaily_newYear :
    ∃ webQuery : WciWebQuery ℚ,
      acceptWhole
          (Bytes.str "lat=60;lon=10;reftime=2014-01-01T00:00:00Z,2014-01-02T12:00:00Z") =
        .ok webQuery ∧
      @ExportsDaily ℚ withIsoTimes (fun _ => .ok []) webQuery newYear
        (.ticks (newYear + PTime.hours 36)) := by
  obtain ⟨webQuery, accepted, isInterval⟩ := exists_accepted
    (Bytes.str "lat=60;lon=10;reftime=2014-01-01T00:00:00Z,2014-01-02T12:00:00Z")
    (true, .ticks newYear, .ticks (newYear + PTime.hours 36)) (by decide +kernel)
  have first : PTime.date newYear = .ok ⟨2014, 1, 1⟩ := by decide +kernel
  have last : PTime.date (newYear + PTime.hours 36) = .ok ⟨2014, 1, 2⟩ := by decide +kernel
  refine ⟨webQuery, accepted, (@exportsDaily_iff ℚ withIsoTimes _ _ _ _ (fun _ => ⟨0, rfl⟩)
    (fun _ => ⟨[], rfl⟩) _ _ accepted _ isInterval).mpr ⟨nofun, ?_⟩⟩
  intro end_ isEnd _ _ _
  cases isEnd
  exact ⟨⟨_, first⟩, ⟨_, last⟩⟩

/-- An export up to `-infinity` never ends. -/
theorem encode_neverEnds :
    ∃ webQuery : WciWebQuery ℚ,
      acceptWhole (Bytes.str "lat=60;lon=10;reftime=2014-01-01T00:00:00Z,-infinity") =
          .ok webQuery ∧
        ∀ fuel, @encode ℚ withIsoTimes (fun _ => .ok []) fuel webQuery = none := by
  obtain ⟨webQuery, accepted, isInterval⟩ := exists_accepted
    (Bytes.str "lat=60;lon=10;reftime=2014-01-01T00:00:00Z,-infinity")
    (true, .ticks newYear, .negInfinity) (by decide +kernel)
  have found : PTime.date newYear = .ok ⟨2014, 1, 1⟩ := by decide +kernel
  have readsIsoTimes : @UrlParamTimeSpec.ReadsIsoTimes ℚ withIsoTimes := fun _ => ⟨0, rfl⟩
  obtain ⟨text, written⟩ := miutil.exists_isotimeString found true true
  have endless : @Endless ℚ withIsoTimes
      ⟨webQuery, .ticks newYear, .ticks (newYear + PTime.dayLength), [], header⟩ :=
    @Endless.mk ℚ withIsoTimes _ (@canRead_of_accept ℚ withIsoTimes _ _ _ accepted)
      ⟨text, _, written, @UrlParamTimeSpec.isTimeText_ticks ℚ withIsoTimes readsIsoTimes _ _
        written, nofun⟩
  refine ⟨webQuery, accepted, fun fuel => ?_⟩
  rw [@encode_of_date ℚ withIsoTimes _ _ _ _ _ isInterval _ found]
  exact @runUntil_negInfinity ℚ withIsoTimes _ _ _ readsIsoTimes (fun _ => ⟨[], rfl⟩) endless fuel

end EncodeCSV

end Wdb2ts
