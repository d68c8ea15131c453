import Wdb2ts.Lib.Fallible
import Wdb2ts.Map
import Wdb2ts.ScannedNumbers
import Wdb2ts.WebQuery

/-!
# The fields of a location query

The time window, the data provider, the skip and the level of a location query come from the
values of their own keys.  A value of `to` that ends in `d` or `t` stands for a number of days or
hours behind the next whole hour of the clock.
-/

namespace Wdb2ts

namespace WebQuery

open Fallible

/-! ## Values of `to` -/

/-- The hours of a unit of time. -/
def unitHours (unit : Byte) : Option ℤ :=
  if unit = Bytes.chr 'd' then some 24 else if unit = Bytes.chr 't' then some 1 else none

/-- The first whole hour behind a time. -/
def nextWholeHour (time : ℤ) : ℤ := (time / PTime.hours 1 + 1) * PTime.hours 1

/-- What a value of `to` stands for.  Nothing is said of a number whose hours are not an `int`. -/
structure StandsFor (universalTime : ℤ) (value : Bytes) (time : PTime) : Prop where
  oneUnit : ∀ unit hours, value = [unit] → unitHours unit = some hours →
    time = .ticks (nextWholeHour universalTime + PTime.hours hours)
  number : ∀ unit hours number, value.getLast? = some unit → unitHours unit = some hours →
    BeginsWith value number → FitsInt number → FitsInt (number * hours) →
      time = .ticks (nextWholeHour universalTime + PTime.hours (number * hours))
  noNumber : ∀ unit hours, value.getLast? = some unit → unitHours unit = some hours →
    value ≠ [unit] → (¬∃ number, BeginsWith value number) → time = .posInfinity
  isoTime : (∀ unit ∈ value.getLast?, unitHours unit = none) →
    ∀ isoTime, miutil.ptimeFromIsoString universalTime value = .ok isoTime → time = isoTime
  noTime : (∀ unit ∈ value.getLast?, unitHours unit = none) →
    ∀ what, miutil.ptimeFromIsoString universalTime value = .error what → time = .posInfinity

theorem timeDuration_hours (hours : ℤ) : PTime.timeDuration hours 0 0 = PTime.hours hours := by
  rw [PTime.timeDuration, PTime.hours]
  split
  · next negative =>
      have isNegative : hours < 0 := by
        rcases negative with less | less | less
        · exact less
        · exact absurd less (lt_irrefl 0)
        · exact absurd less (lt_irrefl 0)
      rw [abs_of_neg isNegative, abs_zero]
      ring
  · ring

/-- The next hour is that of the day in which it begins. -/
theorem nextHour_eq (universalTime : ℤ) :
    nextHour universalTime = .ticks (nextWholeHour universalTime) := by
  rw [nextHour]
  simp only [PTime.startOfDay, timeDuration_hours, PTime.add, PTime.ticks.injEq, nextWholeHour,
    PTime.secondsOfDay, PTime.dayLength, PTime.hours]
  omega

theorem nextHour_add (universalTime hours : ℤ) :
    (nextHour universalTime).add (PTime.timeDuration hours 0 0) =
      .ticks (nextWholeHour universalTime + PTime.hours hours) := by
  rw [nextHour_eq, timeDuration_hours, PTime.add]

/-- The last character of a text that is not empty. -/
theorem charAt_lastIndex {text : Bytes} {last : Byte} (isLast : text.getLast? = some last) :
    charAt text (lastIndex text) = .ok last := by
  have notEmpty : text.length ≠ 0 := by
    intro empty
    rw [List.eq_nil_of_length_eq_zero empty] at isLast
    cases isLast
  rw [List.getLast?_eq_getElem?] at isLast
  rw [charAt, lastIndex, if_neg notEmpty, if_neg (by omega), isLast]

theorem toInt32_of_fitsInt {number : ℤ} (fits : FitsInt number) : toInt32 number = number := by
  rw [FitsInt, INT_MIN, INT_MAX] at fits
  rw [toInt32]
  omega

/-- A unit is a day or an hour. -/
theorem isUnit_of_unitHours {unit : Byte} {hours : ℤ} (isUnit : unitHours unit = some hours) :
    unit = Bytes.chr 't' ∨ unit = Bytes.chr 'd' := by
  rw [unitHours] at isUnit
  split at isUnit
  · next isDay => exact Or.inr isDay
  · split at isUnit
    · next isHour => exact Or.inl isHour
    · cases isUnit

theorem not_isUnit_of_unitHours {unit : Byte} (notUnit : unitHours unit = none) :
    ¬(unit = Bytes.chr 't' ∨ unit = Bytes.chr 'd') := by
  rintro (rfl | rfl)
  · exact absurd notUnit (by decide)
  · exact absurd notUnit (by decide)

/-- A number of units that is an `int` is computed without a wrap. -/
theorem hours_of_unitHours {unit : Byte} {hours : ℤ} (isUnit : unitHours unit = some hours)
    {number : ℤ} (fits : FitsInt (number * hours)) :
    (if unit = Bytes.chr 'd' then toInt32 (number * 24) else number) = number * hours := by
  rw [unitHours] at isUnit
  split at isUnit
  · next isDay =>
      cases isUnit
      rw [if_pos isDay, toInt32_of_fitsInt fits]
  · next notDay =>
      split at isUnit
      · cases isUnit
        rw [if_neg notDay, mul_one]
      · cases isUnit

/-- A unit alone is no number. -/
theorem scanInt_unit {unit : Byte} (isUnit : unit = Bytes.chr 't' ∨ unit = Bytes.chr 'd') :
    scanInt [unit] = none := by
  rcases isUnit with rfl | rfl
  · decide
  · decide

section To

variable {universalTime : ℤ} {value : Bytes} {last : Byte}

/-- A value that ends in a unit. -/
theorem decodeTimeduration_unit (universalTime : ℤ) (isLast : value.getLast? = some last)
    (isUnit : last = Bytes.chr 't' ∨ last = Bytes.chr 'd') (valueOnError : PTime) :
    decodeTimeduration universalTime value valueOnError =
      .ok (match if value.length = 1 then some 1 else scanInt value with
        | none => valueOnError
        | some n => .ticks (nextWholeHour universalTime +
            PTime.hours (if last = Bytes.chr 'd' then toInt32 (n * 24) else n))) := by
  rw [decodeTimeduration, charAt_lastIndex isLast]
  simp only [bind, Except.bind, if_pos isUnit, nextHour_add]
  cases if value.length = 1 then some 1 else scanInt value with
  | none => rfl
  | some n => rfl

/-- A value of one unit. -/
theorem standsFor_oneUnit {hours : ℤ} (isUnit : unitHours last = some hours) :
    StandsFor universalTime [last]
      (.ticks (nextWholeHour universalTime + PTime.hours hours)) where
  oneUnit unit other same isOther := by
    cases same
    rw [isUnit] at isOther
    cases isOther
    rfl
  number unit other number same _ begins _ _ := by
    have found := scanInt_of_beginsWith begins
    rw [scanInt_unit (isUnit_of_unitHours isUnit)] at found
    cases found
  noNumber unit other same _ notOne _ := by
    cases same
    exact absurd rfl notOne
  isoTime notUnit _ _ := by
    have none := notUnit last rfl
    rw [isUnit] at none
    cases none
  noTime notUnit _ _ := by
    have none := notUnit last rfl
    rw [isUnit] at none
    cases none

/-- A value of several characters that ends in a unit. -/
theorem standsFor_number {hours : ℤ} (isLast : value.getLast? = some last)
    (isUnit : unitHours last = some hours) (notOne : value.length ≠ 1) :
    StandsFor universalTime value (match scanInt value with
      | none => .posInfinity
      | some n => .ticks (nextWholeHour universalTime +
          PTime.hours (if last = Bytes.chr 'd' then toInt32 (n * 24) else n))) where
  oneUnit unit _ same _ := by
    rw [same] at notOne
    exact absurd rfl notOne
  number unit other number same isOther begins fits hoursFit := by
    rw [isLast] at same
    cases same
    rw [isUnit] at isOther
    cases isOther
    rw [scanInt_of_beginsWith begins, toInt32_toLong fits.1 fits.2]
    dsimp only
    rw [hours_of_unitHours isUnit hoursFit]
  noNumber unit other _ _ _ notBegins := by
    cases found : scanInt value with
    | none => rfl
    | some scanned => exact absurd (exists_beginsWith found) notBegins
  isoTime notUnit _ _ := by
    have none := notUnit last isLast
    rw [isUnit] at none
    cases none
  noTime notUnit _ _ := by
    have none := notUnit last isLast
    rw [isUnit] at none
    cases none

/-- A value that does not end in a unit. -/
theorem standsFor_isoTime (isLast : value.getLast? = some last) (notUnit : unitHours last = none) :
    StandsFor universalTime value (match miutil.ptimeFromIsoString universalTime value with
      | .ok time => time
      | .error _ => .posInfinity) where
  oneUnit unit _ same isUnit := by
    rw [same, List.getLast?_singleton] at isLast
    rw [Option.some.inj isLast, notUnit] at isUnit
    cases isUnit
  number unit _ _ same isUnit _ _ _ := by
    rw [isLast] at same
    cases same
    rw [notUnit] at isUnit
    cases isUnit
  noNumber unit _ same isUnit _ _ := by
    rw [isLast] at same
    cases same
    rw [notUnit] at isUnit
    cases isUnit
  isoTime _ isoTime isTime := by rw [isTime]
  noTime _ what isError := by rw [isError]

/-- A value that is not empty is decoded to what it stands for. -/
theorem decodeTimeduration_standsFor (universalTime : ℤ) (notEmpty : value ≠ []) :
    ∃ time, decodeTimeduration universalTime value .posInfinity = .ok time ∧
      StandsFor universalTime value time := by
  have isLast : value.getLast? = some (value.getLast notEmpty) :=
    List.getLast?_eq_some_getLast notEmpty
  cases isUnit : unitHours (value.getLast notEmpty) with
  | none =>
      refine ⟨_, ?_, standsFor_isoTime isLast isUnit⟩
      rw [decodeTimeduration, charAt_lastIndex isLast]
      simp only [bind, Except.bind, if_neg (not_isUnit_of_unitHours isUnit)]
      cases miutil.ptimeFromIsoString universalTime value with
      | error what => rfl
      | ok time => rfl
  | some hours =>
      have decoded := decodeTimeduration_unit universalTime isLast
        (isUnit_of_unitHours isUnit) .posInfinity
      by_cases one : value.length = 1
      · obtain ⟨unit, rfl⟩ := List.length_eq_one_iff.mp one
        refine ⟨_, decoded, ?_⟩
        have fits : FitsInt (1 * hours) := by
          rcases isUnit_of_unitHours isUnit with same | same
          · rw [same] at isUnit
            cases isUnit
            decide
          · rw [same] at isUnit
            cases isUnit
            decide
        rw [if_pos one]
        dsimp only
        rw [hours_of_unitHours isUnit fits, one_mul]
        exact standsFor_oneUnit isUnit
      · rw [if_neg one] at decoded
        exact ⟨_, decoded, standsFor_number isLast isUnit one⟩

end To

/-! ## Fields -/

/-- The time that a value stands for, if it is one. -/
def isoTime (universalTime : ℤ) (value : Bytes) : PTime :=
  match miutil.ptimeFromIsoString universalTime value with
  | .ok time => time
  | .error _ => .notADateTime

/-- The fields of a location query come from the values of their own keys. -/
structure HasOwnValues (universalTime : ℤ) (urlQuery : UrlQuery) (webQuery : WebQuery) :
    Prop where
  noFrom : urlQuery.params.find? (Bytes.str "from") = none → webQuery.from_ = .notADateTime
  from_ : ∀ value, urlQuery.params.find? (Bytes.str "from") = some value →
    webQuery.from_ = if value = Bytes.str "all" then .negInfinity else isoTime universalTime value
  noTo : urlQuery.params.find? (Bytes.str "to") = none → webQuery.to_ = .notADateTime
  to_ : ∀ value, urlQuery.params.find? (Bytes.str "to") = some value →
    StandsFor universalTime value webQuery.to_
  noRefTime : urlQuery.params.find? (Bytes.str "refTime") = none →
    webQuery.reftime_ = .notADateTime
  dataprovider_ : webQuery.dataprovider_ =
    (urlQuery.params.find? (Bytes.str "dataprovider")).getD []
  noSkip : urlQuery.params.find? (Bytes.str "skip") = none → webQuery.skip_ = 0
  skip_ : ∀ value, urlQuery.params.find? (Bytes.str "skip") = some value →
    (webQuery.isPolygon_ = false → webQuery.skip_ = -1) ∧
      (webQuery.isPolygon_ = true → value = [] → webQuery.skip_ = 0) ∧
      (webQuery.isPolygon_ = true → value ≠ [] →
        ∃ number, lexicalCastInt value = some number ∧ webQuery.skip_ = max number 0)
  noLevel : urlQuery.params.find? (Bytes.str "level") = none → webQuery.level_ = Level.undefined
  level_ : ∀ value, urlQuery.params.find? (Bytes.str "level") = some value →
    decodeLevel value = .ok webQuery.level_

section Fields

variable {universalTime : ℤ} {urlQuery : UrlQuery}

theorem hasParam_of_some {param value : Bytes} (found : urlQuery.params.find? param = some value) :
    urlQuery.hasParam param = true := by
  rw [UrlQuery.hasParam, SortedMap.contains, found]
  rfl

theorem hasParam_of_none {param : Bytes} (missing : urlQuery.params.find? param = none) :
    urlQuery.hasParam param = false := by
  rw [UrlQuery.hasParam, SortedMap.contains, missing]
  rfl

theorem asStringOr_of_some {param value : Bytes}
    (found : urlQuery.params.find? param = some value) (defValue : Bytes) :
    urlQuery.asStringOr param defValue = value := by
  rw [UrlQuery.asStringOr, found]
  rfl

/-- A time is that of its value. -/
theorem asPTimeOr_of_some {param value : Bytes}
    (found : urlQuery.params.find? param = some value) :
    urlQuery.asPTimeOr universalTime param .notADateTime = isoTime universalTime value := by
  rw [UrlQuery.asPTimeOr, UrlQuery.asPTime, UrlQuery.asString, found, isoTime]
  cases value with
  | nil => rfl
  | cons first rest =>
      simp only [bind, Except.bind, List.isEmpty_cons, Bool.false_eq_true, if_false]
      cases miutil.ptimeFromIsoString universalTime (first :: rest) with
      | error what => rfl
      | ok time => rfl

/-- A level indexes its text only when it has characters. -/
theorem decodeLevel_ne_outsideString (value : Bytes) :
    decodeLevel value ≠ .error .outsideString := by
  intro outside
  rw [decodeLevel] at outside
  cases text : miutil.trimstr value miutil.blanks with
  | nil =>
      rw [text] at outside
      cases outside
  | cons first rest =>
      have isFirst : charAt (first :: rest) 0 = .ok first := rfl
      simp only [text, isFirst, bind, Except.bind, List.isEmpty_cons, Bool.false_eq_true, if_false]
        at outside
      split_ifs at outside
      all_goals cases outside

theorem orThrow_ne_outsideString {α : Type} (value : Except Bytes α) :
    orThrow value ≠ .error .outsideString := by
  intro outside
  obtain ⟨what, -, same⟩ := exists_of_mapError_eq_error outside
  cases same

/-- A value of `to` is decoded unless it is empty. -/
theorem exists_decodeTo (universalTime : ℤ)
    (notEmpty : urlQuery.params.find? (Bytes.str "to") ≠ some []) :
    ∃ time, decodeTo universalTime urlQuery = .ok time ∧
      (urlQuery.params.find? (Bytes.str "to") = none → time = .notADateTime) ∧
      ∀ value, urlQuery.params.find? (Bytes.str "to") = some value →
        StandsFor universalTime value time := by
  cases found : urlQuery.params.find? (Bytes.str "to") with
  | none =>
      refine ⟨.notADateTime, ?_, fun _ => rfl, nofun⟩
      rw [decodeTo, hasParam_of_none found, if_neg Bool.false_ne_true]
  | some value =>
      have isText : value ≠ [] := by
        rintro rfl
        exact notEmpty found
      obtain ⟨time, decoded, stands⟩ := decodeTimeduration_standsFor universalTime isText
      refine ⟨time, ?_, nofun, ?_⟩
      · rw [decodeTo, hasParam_of_some found, if_pos rfl, asStringOr_of_some found, decoded]
      · rintro other ⟨⟩
        exact stands

variable {F : Type} [CoordinateReading F] [DecidableLT F]

/-- No string is indexed outside, unless the value of `to` is empty. -/
theorem decodeLocation_ne_outsideString
    (notEmpty : urlQuery.params.find? (Bytes.str "to") ≠ some []) (urlQuery_ : Bytes) :
    decodeLocation F universalTime urlQuery urlQuery_ ≠ .error .outsideString := by
  intro fails
  rw [decodeLocation] at fails
  obtain ⟨time, decoded, -⟩ := exists_decodeTo universalTime notEmpty
  rcases of_bind_eq_error fails with outside | ⟨coordinates, -, fails⟩
  · exact orThrow_ne_outsideString _ outside
  rcases of_bind_eq_error fails with outside | ⟨to_, -, fails⟩
  · rw [decoded] at outside
    cases outside
  rcases of_bind_eq_error fails with outside | ⟨points, -, fails⟩
  · exact orThrow_ne_outsideString _ outside
  rcases of_bind_eq_error fails with outside | ⟨skip_, -, fails⟩
  · exact orThrow_ne_outsideString _ outside
  rcases of_bind_eq_error fails with outside | ⟨level_, -, fails⟩
  · rw [decodeLevelParam] at outside
    split at outside
    · exact decodeLevel_ne_outsideString _ outside
    · cases outside
  rcases of_bind_eq_error fails with outside | ⟨nearestLand_, -, fails⟩
  · exact orThrow_ne_outsideString _ outside
  · cases fails

/-- The skip of a query. -/
theorem decodeSkip_eq {isPolygon : Bool} {skip : ℤ}
    (decoded : decodeSkip isPolygon urlQuery = .ok skip) :
    (urlQuery.params.find? (Bytes.str "skip") = none → skip = 0) ∧
      ∀ value, urlQuery.params.find? (Bytes.str "skip") = some value →
        (isPolygon = false → skip = -1) ∧ (isPolygon = true → value = [] → skip = 0) ∧
          (isPolygon = true → value ≠ [] →
            ∃ number, lexicalCastInt value = some number ∧ skip = max number 0) := by
  rw [decodeSkip] at decoded
  cases found : urlQuery.params.find? (Bytes.str "skip") with
  | none =>
      rw [hasParam_of_none found, if_neg Bool.false_ne_true] at decoded
      cases decoded
      exact ⟨fun _ => rfl, nofun⟩
  | some value =>
      rw [hasParam_of_some found, if_pos rfl] at decoded
      refine ⟨nofun, ?_⟩
      rintro other ⟨⟩
      cases isPolygon with
      | false =>
          cases decoded
          exact ⟨fun _ => rfl, nofun, nofun⟩
      | true =>
          rw [if_pos rfl] at decoded
          obtain ⟨number, isNumber, decoded⟩ := exists_of_bind_eq_ok decoded
          rw [UrlQuery.asIntOr, asStringOr_of_some found] at isNumber
          have isMax : skip = max number 0 := by
            cases decoded
            split
            · next negative => exact (max_eq_right negative.le).symm
            · next notNegative => exact (max_eq_left (not_lt.mp notNegative)).symm
          refine ⟨nofun, fun _ empty => ?_, fun _ notEmpty => ⟨number, ?_, isMax⟩⟩
          · rw [empty] at isNumber
            cases isNumber
            exact isMax
          · cases value with
            | nil => exact absurd rfl notEmpty
            | cons first rest =>
                simp only [List.isEmpty_cons, Bool.false_eq_true, if_false] at isNumber
                cases cast : lexicalCastInt (first :: rest) with
                | none =>
                    rw [cast] at isNumber
                    cases isNumber
                | some value =>
                    rw [cast] at isNumber
                    cases isNumber
                    rfl

/-- The fields of a decoded location query are those of their keys. -/
theorem hasOwnValues_of_decodeLocation
    (notEmpty : urlQuery.params.find? (Bytes.str "to") ≠ some []) {urlQuery_ : Bytes}
    {webQuery : WebQuery}
    (decoded : decodeLocation F universalTime urlQuery urlQuery_ = .ok webQuery) :
    HasOwnValues universalTime urlQuery webQuery := by
  rw [decodeLocation] at decoded
  obtain ⟨time, isTime, noTo, stands⟩ := exists_decodeTo universalTime notEmpty
  obtain ⟨coordinates, -, decoded⟩ := exists_of_bind_eq_ok decoded
  obtain ⟨to_, isTo, decoded⟩ := exists_of_bind_eq_ok decoded
  obtain ⟨points, -, decoded⟩ := exists_of_bind_eq_ok decoded
  obtain ⟨skip_, isSkip, decoded⟩ := exists_of_bind_eq_ok decoded
  obtain ⟨level_, isLevel, decoded⟩ := exists_of_bind_eq_ok decoded
  obtain ⟨nearestLand_, -, decoded⟩ := exists_of_bind_eq_ok decoded
  rw [isTime] at isTo
  cases isTo
  cases decoded
  obtain ⟨noSkip, hasSkip⟩ := decodeSkip_eq (of_mapError_eq_ok isSkip)
  constructor
  case noFrom =>
    intro missing
    simp only [decodeFrom, hasParam_of_none missing, Bool.false_eq_true, if_false]
  case from_ =>
    intro value found
    simp only [decodeFrom, hasParam_of_some found, if_true, asStringOr_of_some found,
      asPTimeOr_of_some found]
  case noTo => exact noTo
  case to_ => exact stands
  case noRefTime =>
    intro missing
    simp only [decodeRefTime, hasParam_of_none missing, Bool.false_eq_true, if_false]
  case dataprovider_ =>
    cases found : urlQuery.params.find? (Bytes.str "dataprovider") with
    | none =>
        simp only [decodeDataprovider, hasParam_of_none found, Bool.false_eq_true, if_false]
        rfl
    | some value =>
        simp only [decodeDataprovider, hasParam_of_some found, if_true, asStringOr_of_some found]
        rfl
  case noSkip => exact noSkip
  case skip_ => exact hasSkip
  case noLevel =>
    intro missing
    rw [decodeLevelParam, hasParam_of_none missing] at isLevel
    cases isLevel
    rfl
  case level_ =>
    intro value found
    rw [decodeLevelParam, hasParam_of_some found, if_pos rfl, asStringOr_of_some found] at isLevel
    exact isLevel

end Fields

/-! ## Queries -/

/-- The parameters of the text of a query. -/
def parameters (queryToDecode : Bytes) : UrlQuery :=
  (UrlQuery.decode queryToDecode false UrlQuery.new).2

theorem eq_ok_of_caught {queryToDecode : Bytes} {decoded : Except QueryFailure WebQuery}
    {webQuery : WebQuery} (isCaught : caught queryToDecode decoded = .location webQuery) :
    decoded = .ok webQuery := by
  cases decoded with
  | error failure =>
      cases failure with
      | exception what => cases isCaught
      | outsideString => cases isCaught
  | ok other =>
      cases isCaught
      rfl

theorem eq_error_of_caught {queryToDecode : Bytes} {decoded : Except QueryFailure WebQuery}
    (isCaught : caught queryToDecode decoded = .outsideString) :
    decoded = .error .outsideString := by
  cases decoded with
  | error failure =>
      cases failure with
      | exception what => cases isCaught
      | outsideString => rfl
  | ok other => cases isCaught

/-- A query ends as the decoding of its location does, unless it has no location. -/
theorem decodeQuery_cases {F : Type} [CoordinateReading F] [DecidableLT F] (universalTime : ℤ)
    (queryToDecode urlPath : Bytes) :
    (∃ what, decodeQuery F universalTime queryToDecode urlPath = .throws what) ∨
      decodeQuery F universalTime queryToDecode urlPath = .status ∨
      ∃ urlQuery_, decodeQuery F universalTime queryToDecode urlPath =
        caught queryToDecode (decodeLocation F universalTime (parameters queryToDecode)
          urlQuery_) := by
  rw [parameters, decodeQuery]
  cases UrlQuery.decode queryToDecode false UrlQuery.new with
  | mk exception urlQuery =>
      cases exception with
      | some exception => exact Or.inl ⟨_, rfl⟩
      | none =>
          dsimp only
          cases urlQuery.hasParam (Bytes.str "status") with
          | true => exact Or.inr (Or.inl rfl)
          | false => exact Or.inr (Or.inr ⟨_, rfl⟩)

/-- A query without an empty value of `to` indexes no string outside, and the fields of a location
query are those of their keys. -/
theorem decodeQuery_hasOwnValues {F : Type} [CoordinateReading F] [DecidableLT F]
    (universalTime : ℤ) {queryToDecode : Bytes} (urlPath : Bytes)
    (notEmpty : (parameters queryToDecode).params.find? (Bytes.str "to") ≠ some []) :
    decodeQuery F universalTime queryToDecode urlPath ≠ .outsideString ∧
      ∀ webQuery, decodeQuery F universalTime queryToDecode urlPath = .location webQuery →
        HasOwnValues universalTime (parameters queryToDecode) webQuery := by
  have ends := decodeQuery_cases (F := F) universalTime queryToDecode urlPath
  constructor
  · intro outside
    rw [outside] at ends
    rcases ends with ⟨what, throws⟩ | isStatus | ⟨urlQuery_, isCaught⟩
    · cases throws
    · cases isStatus
    · exact decodeLocation_ne_outsideString notEmpty urlQuery_
        (eq_error_of_caught isCaught.symm)
  · intro webQuery isLocation
    rw [isLocation] at ends
    rcases ends with ⟨what, throws⟩ | isStatus | ⟨urlQuery_, isCaught⟩
    · cases throws
    · cases isStatus
    · exact hasOwnValues_of_decodeLocation notEmpty (eq_ok_of_caught isCaught.symm)

/-- Coordinates that are whole numbers. -/
instance : CoordinateReading ℚ where
  lexicalCastFloat text := (lexicalCastInt text).map fun number => (number : ℚ)
  decodeLocationList := wholeNumbers.decodeLocationList

/-- The values of a query with a number of days. -/
theorem decodeQuery_hasOwnValues_days :
    decodeQuery ℚ 0 (Bytes.str "long=10;lat=60;from=all;to=2d;level=100m") [] ≠ .outsideString ∧
      ∀ webQuery,
        decodeQuery ℚ 0 (Bytes.str "long=10;lat=60;from=all;to=2d;level=100m") [] =
            .location webQuery →
          HasOwnValues 0 (parameters (Bytes.str "long=10;lat=60;from=all;to=2d;level=100m"))
            webQuery :=
  decodeQuery_hasOwnValues 0 [] (by decide +kernel)

/-- A unit without a number stands for one day, and a point has the skip of no value. -/
theorem not_hasOwnValues_unitAlone :
    ∃ webQuery, decodeQuery ℚ 0 (Bytes.str "long=10;lat=60;to=d;skip=3") [] = .location webQuery ∧
      scanInt (Bytes.str "d") = none ∧
      miutil.ptimeFromIsoString 0 (Bytes.str "d") ≠ .ok webQuery.to_ ∧
      webQuery.to_ ≠ .posInfinity ∧ webQuery.to_ = .ticks (nextWholeHour 0 + PTime.hours 24) ∧
      webQuery.skip_ ≠ 3 := by
  refine ⟨{
    points := [⟨600000000, 100000000⟩]
    altitude_ := INT_MIN
    from_ := .notADateTime
    to_ := .ticks (PTime.hours 25)
    reftime_ := .notADateTime
    dataprovider_ := []
    isPolygon_ := false
    nearestLand_ := false
    skip_ := -1
    urlQuery_ := Bytes.str "long=10;lat=60;to=d;skip=3"
    level_ := Level.undefined }, ?_, ?_, ?_, ?_, ?_, ?_⟩
  all_goals decide +kernel

end WebQuery

end Wdb2ts
