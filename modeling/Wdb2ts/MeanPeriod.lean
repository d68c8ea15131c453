import Wdb2ts.Lib.Intervals
import Wdb2ts.HourlySpread
import Wdb2ts.ReadFrame

/-!
# The period of a mean precipitation

The precipitation of a period is the sum of the values of the intervals in it.  A value is
valid from the end of the interval before, or, when its from-time is its own time, for the
hour before that time.
-/

namespace Wdb2ts

/-- The mean precipitation at a time, and the end of the hour before. -/
structure MeanHour (F : Type) where
  previous : PTime
  totime : PTime
  isEqual : Bool
  mean : Found F

namespace MeanHour

variable {F : Type}

/-- The start of the next hour. -/
def next (hour : MeanHour F) : HourStart := ⟨hour.totime, hour.mean.provider, hour.isEqual, false⟩

/-- The interval that the value is for. -/
def interval (hour : MeanHour F) : PTime × PTime :=
  if hour.mean.fromTime = hour.totime then (hour.totime.sub (PTime.hours 1), hour.totime)
  else (hour.mean.fromTime, hour.totime)

end MeanHour

namespace LookupElem

variable {F : Type} [Floats F] [DecidableEq F]

/-- The mean precipitation at a time, as the lookups find it. -/
def meanHour (elem : LookupElem) (start : HourStart) (totime : PTime)
    (serie : FromTimeSerie F) : MeanHour F :=
  { previous := start.fromTime
    totime := totime
    isEqual := (elem.hour start totime serie).isEqual
    mean := (elem.hour start totime serie).mean }

/-- The mean precipitation at the times of a period. -/
def meanHours (elem : LookupElem) : List (PTime × FromTimeSerie F) → HourStart →
    List (MeanHour F)
  | [], _ => []
  | (totime, serie) :: rest, start =>
      elem.meanHour start totime serie ::
        elem.meanHours rest (elem.meanHour start totime serie).next

/-! ## The intervals -/

theorem fromTime_hourlyValue (elem : LookupElem) (pPM : PData.Member) (serie : FromTimeSerie F)
    {fromTime : PTime} (normal : fromTime.isSpecial = false) (provider : Bytes)
    (tryHard : Bool) :
    (elem.hourlyValue pPM serie fromTime provider tryHard).fromTime = fromTime := by
  rcases elem.fromTimeOf_getValue pPM serie fromTime provider FLT_MAX tryHard with
    same | ⟨special, _⟩
  · exact same
  · rw [normal] at special
    cases special

/-- A mean is valid from its own time or from the end of the hour before. -/
theorem fromTime_meanHour (elem : LookupElem) (start : HourStart) {totime : PTime}
    (serie : FromTimeSerie F) (previous : start.fromTime.isSpecial = false)
    (normal : totime.isSpecial = false) :
    (elem.meanHour start totime serie).mean.fromTime = totime ∨
      (elem.meanHour start totime serie).mean.fromTime = start.fromTime := by
  rcases start with ⟨fromTime, provider, isEqual, tryHard⟩
  simp only [meanHour, hour]
  cases isEqual with
  | true => simp [fromTime_hourlyValue, normal]
  | false =>
      simp only [Bool.false_eq_true, if_false, Bool.not_false, Bool.and_true, decide_eq_true_eq]
      split
      · exact Or.inl (elem.fromTime_hourlyValue _ _ normal _ _)
      · exact Or.inr (elem.fromTime_hourlyValue _ _ previous _ _)

/-- A value that is valid from its own time is for the hour behind the end of the hour before
exactly when it is an hour later. -/
theorem sub_hour_eq_iff {previous totime : PTime} (notSpecial : previous.isSpecial = false)
    (normal : totime.isSpecial = false) :
    totime.sub (PTime.hours 1) = previous ↔ totime = previous.add (PTime.hours 1) := by
  cases previous with
  | ticks left =>
      cases totime with
      | ticks right =>
          simp only [PTime.sub, PTime.add, PTime.ticks.injEq]
          omega
      | _ => cases normal
  | _ => cases notSpecial

/-- The intervals tile the time up to the last one exactly when every value that is valid
from its own time is an hour later than the one before. -/
theorem tiles_meanHours_iff (elem : LookupElem) (entries : List (PTime × FromTimeSerie F))
    (start : HourStart) (previous : start.fromTime.isSpecial = false)
    (normal : ∀ entry ∈ entries, entry.1.isSpecial = false)
    (ascending : (start.fromTime :: entries.map Prod.fst).Pairwise (· < ·)) :
    Intervals.Tiles start.fromTime ((entries.map Prod.fst).getLastD start.fromTime)
        ((elem.meanHours entries start).map MeanHour.interval) ↔
      ∀ hour ∈ elem.meanHours entries start,
        hour.mean.fromTime = hour.totime →
          hour.totime = hour.previous.add (PTime.hours 1) := by
  induction entries generalizing start with
  | nil => simp [meanHours, Intervals.Tiles]
  | cons entry rest ih =>
      rcases entry with ⟨totime, serie⟩
      rw [List.map_cons, List.pairwise_cons] at ascending
      have here : totime.isSpecial = false := normal _ (List.mem_cons_self ..)
      have later : start.fromTime < totime := ascending.1 totime (List.mem_cons_self ..)
      have tail := ih (elem.meanHour start totime serie).next here
        (fun other inRest => normal other (List.mem_cons_of_mem _ inRest)) ascending.2
      have ends : (elem.meanHour start totime serie).interval.2 = totime := by
        rw [MeanHour.interval]
        split
        · rfl
        · rfl
      have begins : (elem.meanHour start totime serie).interval.1 = start.fromTime ↔
          ((elem.meanHour start totime serie).mean.fromTime = totime →
            totime = start.fromTime.add (PTime.hours 1)) := by
        rw [← sub_hour_eq_iff previous here, MeanHour.interval]
        split
        next atOwnTime =>
          have own : (elem.meanHour start totime serie).mean.fromTime = totime := atOwnTime
          exact ⟨fun begins _ => begins, fun begins => begins own⟩
        next notOwn =>
          have other : (elem.meanHour start totime serie).mean.fromTime ≠ totime := notOwn
          rcases elem.fromTime_meanHour start serie previous here with own | chained
          · exact absurd own other
          · exact ⟨fun _ own => absurd own other, fun _ => chained⟩
      simp only [meanHours, List.map_cons, List.getLastD_cons, Intervals.Tiles, ends, begins,
        later, true_and, List.forall_mem_cons]
      exact and_congr_right fun _ => tail

end LookupElem

namespace LocationElem

/-! ## The sum -/

section Loop

variable {F : Type} [Floats F] [DecidableEq F] [DecidableLT F]

/-- Add the mean precipitation of an hour, unless it is missing. -/
def addMean (sums : F × ℕ) (hour : MeanHour F) : Option (F × ℕ) :=
  if hour.mean.value = FLT_MAX then none
  else some (sums.1 + Floats.max (lit 0) hour.mean.value, sums.2 + 1)

theorem isSome_addMean_iff (sums : F × ℕ) (hour : MeanHour F) :
    (addMean sums hour).isSome ↔ hour.mean.value ≠ FLT_MAX := by
  rw [addMean]
  split
  next missing => simp [missing]
  next valid => simp [valid]

omit [DecidableLT F] in
theorem meanHour_of_retry (base : LookupElem) (start : HourStart) (totime : PTime)
    (serie : FromTimeSerie F) (chained : start.isEqual = false)
    (missing : (base.hourlyValue .PRECIP_MEAN serie start.fromTime start.provider
      start.tryHard).value = FLT_MAX) :
    base.meanHour start totime serie =
      ⟨start.fromTime, totime, true,
        base.hourlyValue .PRECIP_MEAN serie totime
          (base.hourlyValue .PRECIP_MEAN serie start.fromTime start.provider
            start.tryHard).provider start.tryHard⟩ := by
  simp [LookupElem.meanHour, LookupElem.hour, chained, missing]

omit [DecidableLT F] in
theorem meanHour_of_first (base : LookupElem) (start : HourStart) (totime : PTime)
    (serie : FromTimeSerie F)
    (found : ¬(start.isEqual = false ∧
      (base.hourlyValue .PRECIP_MEAN serie (if start.isEqual then totime else start.fromTime)
        start.provider start.tryHard).value = FLT_MAX)) :
    base.meanHour start totime serie =
      ⟨start.fromTime, totime, start.isEqual,
        base.hourlyValue .PRECIP_MEAN serie (if start.isEqual then totime else start.fromTime)
          start.provider start.tryHard⟩ := by
  have noRetry : (decide ((base.hourlyValue .PRECIP_MEAN serie
      (if start.isEqual then totime else start.fromTime) start.provider
        start.tryHard).value = FLT_MAX) && !start.isEqual) = false := by
    rw [Bool.eq_false_iff]
    intro retry
    rw [Bool.and_eq_true, decide_eq_true_eq, Bool.not_eq_true'] at retry
    exact found ⟨retry.2, retry.1⟩
  simp [LookupElem.meanHour, LookupElem.hour, noRetry]

/-- The loop adds the mean precipitation of the hours. -/
theorem run_PRECIP_MEAN_loop {base : LookupElem} {elem : LocationElem F}
    (entries : List (PTime × FromTimeSerie F)) (start : HourStart)
    (searches : SearchesAs base start.provider elem) (sumPrecip : F) (count : ℕ) :
    ((PRECIP_MEAN_loop entries start.fromTime start.isEqual start.tryHard sumPrecip
        count).run elem).1 =
      (base.meanHours entries start).foldlM addMean (sumPrecip, count) := by
  induction entries generalizing start elem sumPrecip count with
  | nil => rfl
  | cons entry rest ih =>
      rcases entry with ⟨totime, serie⟩
      rcases searches.run_lookupMember .PRECIP_MEAN serie
        (if start.isEqual then totime else start.fromTime) start.tryHard with
        ⟨afterFirst, runFirst, searchesFirst⟩
      simp only [PRECIP_MEAN_loop, StateT.run_bind, runFirst, pure_bind, LookupElem.meanHours,
        List.foldlM_cons]
      by_cases retry : start.isEqual = false ∧
          (base.hourlyValue .PRECIP_MEAN serie (if start.isEqual then totime else start.fromTime)
            start.provider start.tryHard).value = FLT_MAX
      · rw [if_pos retry]
        rcases retry with ⟨chained, missing⟩
        simp only [chained, Bool.false_eq_true, if_false] at missing searchesFirst
        rcases searchesFirst.run_lookupMember .PRECIP_MEAN serie totime start.tryHard with
          ⟨afterSecond, runSecond, searchesSecond⟩
        rw [meanHour_of_retry base start totime serie chained missing, StateT.run_bind,
          runSecond, pure_bind, addMean]
        split
        next none => rfl
        next some => exact ih ⟨totime, _, true, false⟩ searchesSecond _ _
      · rw [if_neg retry, meanHour_of_first base start totime serie retry, addMean]
        by_cases missing : (base.hourlyValue .PRECIP_MEAN serie
            (if start.isEqual then totime else start.fromTime) start.provider
              start.tryHard).value = FLT_MAX
        · rw [if_pos missing, if_pos missing]
          rfl
        · rw [if_neg missing, if_neg missing]
          exact ih ⟨totime, _, start.isEqual, false⟩ searchesFirst _ _

/-- The sum of the hours with a mean precipitation. -/
def meanSum (hours : List (MeanHour F)) : F :=
  hours.foldl (fun sum hour => sum + Floats.max (lit 0) hour.mean.value) (lit 0)

theorem foldlM_addMean (hours : List (MeanHour F)) (sums : F × ℕ)
    (found : ∀ hour ∈ hours, hour.mean.value ≠ FLT_MAX) :
    hours.foldlM addMean sums =
      some (hours.foldl (fun sum hour => sum + Floats.max (lit 0) hour.mean.value) sums.1,
        sums.2 + hours.length) := by
  induction hours generalizing sums with
  | nil => rfl
  | cons hour rest ih =>
      have here := found hour (List.mem_cons_self ..)
      have added : addMean sums hour =
          some (sums.1 + Floats.max (lit 0) hour.mean.value, sums.2 + 1) := if_neg here
      have tail := ih (sums.1 + Floats.max (lit 0) hour.mean.value, sums.2 + 1)
        fun other inRest => found other (List.mem_cons_of_mem _ inRest)
      rw [List.foldlM_cons, added, List.foldl_cons, List.length_cons]
      simpa [Nat.add_assoc, Nat.add_comm 1] using tail

end Loop

/-! ## The period -/

section Period

variable {F : Type} [Floats F] [DecidableEq F] [DecidableLT F]

/-- The mean precipitation at the times of the period of a cursor. -/
def periodMeans (elem : LocationElem F) (hoursBack : ℤ) (tryHard : Bool) :
    List (MeanHour F) :=
  elem.toLookupElem.meanHours (elem.hourEntries hoursBack)
    ⟨elem.periodStart hoursBack, elem.forecastProvider, false, tryHard⟩

/-- The value and `backTime_` of `PRECIP_MEAN`. -/
def meanPrecip (elem : LocationElem F) (hoursBack : ℤ) (tryHard : Bool) : F × PTime :=
  ((PRECIP_MEAN hoursBack tryHard).run elem).1

/-- The value is the sum of intervals that cover every point of the period once, or it is
missing and `backTime_` is undefined. -/
structure CoversPeriod (elem : LocationElem F) (hoursBack : ℤ) (tryHard : Bool) : Prop where
  sums : (elem.meanPrecip hoursBack tryHard).1 ≠ FLT_MAX →
    (elem.meanPrecip hoursBack tryHard).1 =
      Floats.max (lit 0) (meanSum (elem.periodMeans hoursBack tryHard))
  tiles : (elem.meanPrecip hoursBack tryHard).1 ≠ FLT_MAX →
    Intervals.Tiles (elem.periodStart hoursBack) elem.time
      ((elem.periodMeans hoursBack tryHard).map MeanHour.interval)
  once : (elem.meanPrecip hoursBack tryHard).1 ≠ FLT_MAX →
    Intervals.CoversOnce (elem.periodStart hoursBack) elem.time
      ((elem.periodMeans hoursBack tryHard).map MeanHour.interval)
  undefined : (elem.meanPrecip hoursBack tryHard).1 = FLT_MAX →
    (elem.meanPrecip hoursBack tryHard).2 = default

variable {elem : LocationElem F} {hoursBack : ℤ} {tryHard : Bool}

/-- The mean precipitation of a period is computed from the hours in it. -/
theorem meanPrecip_eq (elem : LocationElem F) (hoursBack : ℤ) (tryHard : Bool) :
    elem.meanPrecip hoursBack tryHard =
      match (elem.periodMeans hoursBack tryHard).foldlM addMean (lit 0, 0) with
      | none => (FLT_MAX, default)
      | some (sumPrecip, count) =>
          if count = 0 then (FLT_MAX, default)
          else (Floats.max (lit 0) sumPrecip, elem.periodStart hoursBack) := by
  have searches : SearchesAs elem.toLookupElem elem.forecastProvider elem := ⟨rfl, rfl⟩
  rw [periodMeans, ← run_PRECIP_MEAN_loop (elem.hourEntries hoursBack)
    ⟨elem.periodStart hoursBack, elem.forecastProvider, false, tryHard⟩ searches]
  simp only [meanPrecip, PRECIP_MEAN, StateT.run_bind, StateT.run_get, pure_bind, hourEntries,
    firstTotime, periodStart]
  rcases (PRECIP_MEAN_loop _ _ _ _ _ _).run elem with ⟨outcome, after⟩
  cases outcome with
  | none => rfl
  | some sums =>
      rcases sums with ⟨sumPrecip, count⟩
      cases count with
      | zero => rfl
      | succ count => rfl

theorem meanPrecip_of_incomplete
    (incomplete : elem.periodMeans hoursBack tryHard = [] ∨
      ∃ hour ∈ elem.periodMeans hoursBack tryHard, hour.mean.value = FLT_MAX) :
    elem.meanPrecip hoursBack tryHard = (FLT_MAX, default) := by
  rw [meanPrecip_eq]
  rcases incomplete with empty | ⟨hour, inPeriod, missing⟩
  · rw [empty]
    rfl
  · have fails : ¬((elem.periodMeans hoursBack tryHard).foldlM addMean (lit 0, 0)).isSome := by
      rw [Runs.isSome_foldlM_iff isSome_addMean_iff]
      intro found
      exact found hour inPeriod missing
    rw [Option.not_isSome_iff_eq_none.mp fails]

theorem meanPrecip_of_complete (started : elem.periodMeans hoursBack tryHard ≠ [])
    (found : ∀ hour ∈ elem.periodMeans hoursBack tryHard, hour.mean.value ≠ FLT_MAX) :
    elem.meanPrecip hoursBack tryHard =
      (Floats.max (lit 0) (meanSum (elem.periodMeans hoursBack tryHard)),
        elem.periodStart hoursBack) := by
  have counted : 0 + (elem.periodMeans hoursBack tryHard).length ≠ 0 := by
    rw [zero_add]
    exact started ∘ List.length_eq_zero_iff.mp
  rw [meanPrecip_eq, foldlM_addMean _ _ found]
  dsimp only
  rw [if_neg counted, meanSum]

end Period

/-! ## The times of the period -/

section Times

variable {F : Type} {elem : LocationElem F} {hoursBack : ℤ}

theorem hourEntries_sublist (elem : LocationElem F) (hoursBack : ℤ) :
    (elem.hourEntries hoursBack).Sublist elem.timeSerie :=
  (List.takeWhile_sublist _).trans (List.dropWhile_sublist _)

/-- A period that starts in the series holds the time of the cursor. -/
theorem time_mem_hourEntries
    (ascending : elem.timeSerie.Pairwise fun earlier later => earlier.1 < later.1)
    (inSeries : elem.itTimeSerie < elem.timeSerie.length)
    (started : elem.find (elem.firstTotime hoursBack) ≠ [])
    (upTo : elem.firstTotime hoursBack ≤ elem.time) :
    elem.time ∈ (elem.hourEntries hoursBack).map Prod.fst := by
  have time : elem.time = (elem.timeSerie.get ⟨elem.itTimeSerie, inSeries⟩).1 := by
    simp [LocationElem.time, current?, List.getElem?_eq_getElem inSeries]
  rw [time]
  apply List.mem_map_of_mem
  apply Intervals.mem_takeWhile_le (ascending.sublist (List.dropWhile_sublist _))
  · apply Intervals.mem_dropWhile_ne ascending started (List.get_mem ..)
    rw [← time]
    exact upTo
  · exact time.ge

/-- A period that starts in the series ends at the time of the cursor. -/
theorem getLastD_hourEntries
    (ascending : elem.timeSerie.Pairwise fun earlier later => earlier.1 < later.1)
    (inSeries : elem.itTimeSerie < elem.timeSerie.length)
    (started : elem.hourEntries hoursBack ≠ []) (upTo : elem.firstTotime hoursBack ≤ elem.time)
    (standIn : PTime) :
    ((elem.hourEntries hoursBack).map Prod.fst).getLastD standIn = elem.time := by
  have found : elem.find (elem.firstTotime hoursBack) ≠ [] := by
    intro empty
    apply started
    rw [hourEntries, periodEntries, empty, List.takeWhile_nil]
  apply Intervals.getLastD_eq_of_mem _ (time_mem_hourEntries ascending inSeries found upTo)
  · intro value inPeriod
    rcases List.mem_map.mp inPeriod with ⟨entry, kept, rfl⟩
    simpa using List.mem_takeWhile_imp kept
  · exact List.pairwise_map.mpr (ascending.sublist (elem.hourEntries_sublist hoursBack))

/-- The times of a period between two normal times are normal. -/
theorem isSpecial_of_mem_hourEntries
    (ascending : elem.timeSerie.Pairwise fun earlier later => earlier.1 < later.1)
    (normal : elem.time.isSpecial = false) {entry : PTime × FromTimeSerie F}
    (inPeriod : entry ∈ elem.hourEntries hoursBack) :
    elem.firstTotime hoursBack ≤ entry.1 ∧ entry.1.isSpecial = false := by
  have upTo : entry.1 ≤ elem.time := by
    simpa using List.mem_takeWhile_imp inPeriod
  have kept : entry ∈ elem.find (elem.firstTotime hoursBack) :=
    (List.takeWhile_sublist _).subset inPeriod
  have fromFirst := Intervals.le_of_mem_dropWhile_ne ascending kept
  refine ⟨fromFirst, ?_⟩
  revert fromFirst upTo normal
  rw [firstTotime, periodStart]
  cases elem.time with
  | ticks last =>
      cases entry.1 with
      | ticks here => simp
      | _ => simp [PTime.sub, PTime.add, PTime.le_iff_leb, PTime.leb]
  | _ => simp [PTime.isSpecial]

end Times

/-! ## The condition -/

section Condition

variable {F : Type} [Floats F] [DecidableEq F] [DecidableLT F]
variable {elem : LocationElem F} {hoursBack : ℤ} {tryHard : Bool}

omit [DecidableLT F] in
theorem length_meanHours (elem : LookupElem) (entries : List (PTime × FromTimeSerie F))
    (start : HourStart) : (elem.meanHours entries start).length = entries.length := by
  induction entries generalizing start with
  | nil => rfl
  | cons entry rest ih => simp [LookupElem.meanHours, ih]

omit [DecidableLT F] in
theorem periodMeans_eq_nil_iff :
    elem.periodMeans hoursBack tryHard = [] ↔ elem.hourEntries hoursBack = [] := by
  rw [← List.length_eq_zero_iff, periodMeans, length_meanHours, List.length_eq_zero_iff]

omit [Floats F] [DecidableEq F] [DecidableLT F] in
theorem firstTotime_le_time (atLeast : 1 ≤ hoursBack) :
    elem.firstTotime hoursBack ≤ elem.time := by
  rw [firstTotime, periodStart]
  cases elem.time with
  | ticks last =>
      simp only [PTime.sub, PTime.add, PTime.ticks_le_ticks, PTime.hours]
      omega
  | _ => exact le_refl _

omit [Floats F] [DecidableEq F] [DecidableLT F] in
theorem periodStart_lt_firstTotime (normal : elem.time.isSpecial = false) :
    elem.periodStart hoursBack < elem.firstTotime hoursBack := by
  revert normal
  rw [firstTotime, periodStart]
  cases elem.time with
  | ticks last => simp [PTime.sub, PTime.add, PTime.hours]
  | _ => simp [PTime.isSpecial]

omit [Floats F] [DecidableEq F] [DecidableLT F] in
theorem periodStart_eq_default_iff :
    elem.periodStart hoursBack = default ↔ elem.time = default := by
  rw [periodStart]
  cases elem.time with
  | ticks last =>
      constructor
      · intro same
        cases same
      · intro same
        cases same
  | _ => rfl

omit [DecidableLT F] in
/-- The intervals of a period that starts in the series tile it exactly when every value
that is valid from its own time is an hour later than the time before. -/
theorem tiles_periodMeans_iff (tryHard : Bool)
    (ascending : elem.timeSerie.Pairwise fun earlier later => earlier.1 < later.1)
    (inSeries : elem.itTimeSerie < elem.timeSerie.length) (atLeast : 1 ≤ hoursBack)
    (started : elem.hourEntries hoursBack ≠ []) :
    Intervals.Tiles (elem.periodStart hoursBack) elem.time
        ((elem.periodMeans hoursBack tryHard).map MeanHour.interval) ↔
      elem.time.isSpecial = false ∧
        ∀ hour ∈ elem.periodMeans hoursBack tryHard, hour.mean.fromTime = hour.totime →
          hour.totime = hour.previous.add (PTime.hours 1) := by
  cases normal : elem.time.isSpecial with
  | true =>
      have same : elem.periodStart hoursBack = elem.time := by
        revert normal
        rw [periodStart]
        cases elem.time with
        | ticks last => simp
        | _ => simp [PTime.sub]
      have notEmpty : elem.periodMeans hoursBack tryHard ≠ [] :=
        started ∘ periodMeans_eq_nil_iff.mp
      simp only [Bool.true_eq_false, false_and, iff_false]
      rcases List.exists_cons_of_ne_nil notEmpty with ⟨hour, rest, means⟩
      intro tiles
      rw [means, List.map_cons, same] at tiles
      exact absurd tiles.2.1 (not_lt.mpr tiles.2.2.le)
  | false =>
      have times : ∀ entry ∈ elem.hourEntries hoursBack,
          elem.firstTotime hoursBack ≤ entry.1 ∧ entry.1.isSpecial = false :=
        fun entry inPeriod => isSpecial_of_mem_hourEntries ascending normal inPeriod
      have normalStart : (elem.periodStart hoursBack).isSpecial = false := by
        revert normal
        rw [periodStart]
        cases elem.time with
        | ticks last => simp [PTime.sub]
        | _ => simp [PTime.isSpecial]
      have ascendingTimes :
          (elem.periodStart hoursBack :: (elem.hourEntries hoursBack).map Prod.fst).Pairwise
            (· < ·) := by
        rw [List.pairwise_cons]
        constructor
        · intro time inPeriod
          rcases List.mem_map.mp inPeriod with ⟨entry, kept, rfl⟩
          exact (periodStart_lt_firstTotime normal).trans_le (times entry kept).1
        · exact List.pairwise_map.mpr (ascending.sublist (elem.hourEntries_sublist hoursBack))
      have tiles := elem.toLookupElem.tiles_meanHours_iff (elem.hourEntries hoursBack)
        ⟨elem.periodStart hoursBack, elem.forecastProvider, false, tryHard⟩ normalStart
        (fun entry inPeriod => (times entry inPeriod).2) ascendingTimes
      rw [getLastD_hourEntries ascending inSeries started (firstTotime_le_time atLeast)] at tiles
      simp only [true_and]
      exact tiles

/-- The value covers the period exactly when there is no time at the end of its first hour, a
time has no value, or the time of the cursor is a normal one, the values do not add up to
the missing value, and every value that is valid from its own time is an hour later than the
time before. -/
theorem coversPeriod_iff
    (ascending : elem.timeSerie.Pairwise fun earlier later => earlier.1 < later.1)
    (inSeries : elem.itTimeSerie < elem.timeSerie.length) (atLeast : 1 ≤ hoursBack) :
    elem.CoversPeriod hoursBack tryHard ↔
      elem.hourEntries hoursBack = [] ∨
      (∃ hour ∈ elem.periodMeans hoursBack tryHard, hour.mean.value = FLT_MAX) ∨
      (elem.time.isSpecial = false ∧
        Floats.max (lit 0) (meanSum (elem.periodMeans hoursBack tryHard)) ≠ FLT_MAX ∧
        ∀ hour ∈ elem.periodMeans hoursBack tryHard, hour.mean.fromTime = hour.totime →
          hour.totime = hour.previous.add (PTime.hours 1)) ∨
      (elem.time = default ∧
        Floats.max (lit 0) (meanSum (elem.periodMeans hoursBack tryHard)) = FLT_MAX) := by
  by_cases incomplete : elem.hourEntries hoursBack = [] ∨
      ∃ hour ∈ elem.periodMeans hoursBack tryHard, hour.mean.value = FLT_MAX
  · have missing : elem.meanPrecip hoursBack tryHard = (FLT_MAX, default) :=
      meanPrecip_of_incomplete (incomplete.imp_left periodMeans_eq_nil_iff.mpr)
    constructor
    · exact fun _ => incomplete.imp_right Or.inl
    · intro _
      have none {holds : Prop} : (elem.meanPrecip hoursBack tryHard).1 ≠ FLT_MAX → holds :=
        fun value => absurd (congrArg Prod.fst missing) value
      exact ⟨none, none, none, fun _ => congrArg Prod.snd missing⟩
  · rw [← or_assoc, or_iff_right incomplete]
    rw [not_or, not_exists] at incomplete
    rcases incomplete with ⟨started, complete⟩
    have sums := meanPrecip_of_complete (started ∘ periodMeans_eq_nil_iff.mp)
      fun hour inPeriod missing => complete hour ⟨inPeriod, missing⟩
    have tiles := tiles_periodMeans_iff tryHard ascending inSeries atLeast started
    by_cases missing : Floats.max (lit 0) (meanSum (elem.periodMeans hoursBack tryHard)) =
        FLT_MAX
    · have valueMissing : (elem.meanPrecip hoursBack tryHard).1 = FLT_MAX := by
        rw [sums]
        exact missing
      have undefined : (elem.meanPrecip hoursBack tryHard).2 = default ↔ elem.time = default := by
        rw [sums]
        exact periodStart_eq_default_iff
      constructor
      · exact fun covers => Or.inr ⟨undefined.mp (covers.undefined valueMissing), missing⟩
      · intro condition
        rcases condition with ⟨_, value, _⟩ | ⟨unset, _⟩
        · exact absurd missing value
        · have none {holds : Prop} : (elem.meanPrecip hoursBack tryHard).1 ≠ FLT_MAX → holds :=
            fun value => absurd valueMissing value
          exact ⟨none, none, none, fun _ => undefined.mpr unset⟩
    · have value : (elem.meanPrecip hoursBack tryHard).1 ≠ FLT_MAX := by
        rw [sums]
        exact missing
      constructor
      · intro covers
        have gapless := tiles.mp (covers.tiles value)
        exact Or.inl ⟨gapless.1, missing, gapless.2⟩
      · intro condition
        rcases condition with ⟨normal, _, gapless⟩ | ⟨_, none⟩
        · have tiled := tiles.mpr ⟨normal, gapless⟩
          exact ⟨fun _ => congrArg Prod.fst sums, fun _ => tiled, fun _ => tiled.coversOnce,
            fun none => absurd none value⟩
        · exact absurd none missing

end Condition

/-! ### A series with a missing hour -/

section MissingHour

/-- A cursor in the series of a location. -/
def cursorAt (timeSerie : TimeSerie ℚ) (providerPriority : ProviderList) (itTimeSerie : ℕ) :
    LocationElem ℚ :=
  (LocationData.create timeSerie 10 60 INT_MIN providerPriority ∅ [] ∅ true).locationElem.init
    itTimeSerie

theorem ascending_cursorAt (timeSerie : TimeSerie ℚ) (providerPriority : ProviderList)
    (itTimeSerie : ℕ) :
    (cursorAt timeSerie providerPriority itTimeSerie).timeSerie.Pairwise
      fun earlier later => earlier.1 < later.1 :=
  LocationData.sorted_create timeSerie 10 60 INT_MIN providerPriority ∅ [] ∅ true

/-- The precipitation of one provider, at a list of hours. -/
def precipAt (hours : List ℤ) : ℕ → LocationElem ℚ :=
  cursorAt
    (DecodePData.storeRows
      (hours.map fun hour =>
        let totime := PTime.ticks (PTime.hours hour)
        ⟨"PRECIP.MEAN", Bytes.str "arome", totime, totime, some 1⟩))
    [⟨Bytes.str "arome", []⟩]

theorem coversPeriod_threeHours : (precipAt [1, 2, 3] 2).CoversPeriod 3 false :=
  (coversPeriod_iff (ascending_cursorAt _ _ 2) (by decide +kernel) (by decide)).mpr
    (Or.inr (Or.inr (Or.inl (by decide +kernel))))

/-- Without the second hour, the sum of three hours is that of two of them. -/
theorem not_coversPeriod_missingHour : ¬(precipAt [1, 3] 1).CoversPeriod 3 false := by
  intro covers
  have value : ((precipAt [1, 3] 1).meanPrecip 3 false).1 ≠ FLT_MAX := by decide +kernel
  have gap : ¬Intervals.CoversOnce (.ticks 0) (.ticks (PTime.hours 3))
      [(PTime.ticks 0, .ticks (PTime.hours 1)),
        (.ticks (PTime.hours 2), .ticks (PTime.hours 3))] := by
    intro once
    rcases once (.ticks (PTime.hours 2)) (by decide) (by decide) with ⟨position, here, _⟩
    rcases here with ⟨interval, atPosition, begun, ended⟩
    have member := List.mem_of_getElem? atPosition
    revert begun ended
    rcases List.mem_cons.mp member with rfl | member
    · decide
    · rcases List.mem_cons.mp member with rfl | member
      · decide
      · cases member
  apply gap
  have once := covers.once value
  have same : (precipAt [1, 3] 1).periodStart 3 = .ticks 0 ∧
      (precipAt [1, 3] 1).time = .ticks (PTime.hours 3) ∧
      ((precipAt [1, 3] 1).periodMeans 3 false).map MeanHour.interval =
        [(PTime.ticks 0, .ticks (PTime.hours 1)),
          (.ticks (PTime.hours 2), .ticks (PTime.hours 3))] := by
    decide +kernel
  rw [same.1, same.2.1, same.2.2] at once
  exact once

end MissingHour

end LocationElem

end Wdb2ts
