import Wdb2ts.Lib.Runs
import Wdb2ts.DecodePData
import Wdb2ts.LocationData

/-!
# The spread of the hourly precipitation

The minimum and the maximum of a period are estimated from the spreads of its hours, each
with a weight of its own.  The values are collected for every time of the series that lies
in the period, so there may be more of them than weights.
-/

namespace Wdb2ts

/-- What a lookup returns and sets, without the provider that it remembers. -/
structure Found (F : Type) where
  value : F
  fromTime : PTime
  provider : Bytes

/-- The part of a lookup that the next one depends on. -/
def Lookup.found {F : Type} (lookup : Lookup F) : Found F :=
  ⟨lookup.value, lookup.fromTime, lookup.provider⟩

/-! ## The remembered provider -/

namespace LookupElem

section Remembered

variable {F : Type} [DecidableEq F]

/-- What a search finds depends on the priority list only. -/
theorem getValueImpl_found (elem other : LookupElem) (same : elem.priority = other.priority)
    (pPM : PData.Member) (serie : FromTimeSerie F) (fromTime : PTime) (provider : Bytes)
    (notValidValue : F) :
    (elem.getValueImpl pPM serie fromTime provider notValidValue).found =
      (other.getValueImpl pPM serie fromTime provider notValidValue).found := by
  have searched : elem.search pPM serie fromTime provider notValidValue =
      other.search pPM serie fromTime provider notValidValue := by
    simp only [search, searchedProviders, same]
  rw [getValueImpl_eq, getValueImpl_eq, searched]
  cases other.search pPM serie fromTime provider notValidValue with
  | none => rfl
  | some cell => rfl

theorem getValueSameProvider_found (elem other : LookupElem)
    (same : elem.priority = other.priority) (pPM : PData.Member) (serie : FromTimeSerie F)
    (notValidValue : F) (providerName : Bytes) (items : ProviderList)
    {current currentOther : Lookup F} (agree : current.found = currentOther.found) :
    (elem.getValueSameProvider pPM serie notValidValue providerName items current).found =
      (other.getValueSameProvider pPM serie notValidValue providerName items
        currentOther).found := by
  induction items generalizing current currentOther with
  | nil => exact agree
  | cons item rest ih =>
      have sameTime : current.fromTime = currentOther.fromTime := congrArg Found.fromTime agree
      have sameProvider : current.provider = currentOther.provider :=
        congrArg Found.provider agree
      have result := getValueImpl_found { elem with lastUsedProvider_ := current.lastUsedProvider_ }
        { other with lastUsedProvider_ := currentOther.lastUsedProvider_ } same pPM serie
        current.fromTime item.providerWithPlacename notValidValue
      rw [sameTime] at result
      have sameValue := congrArg Found.value result
      have resultTime := congrArg Found.fromTime result
      simp only [Lookup.found] at sameValue resultTime
      simp only [getValueSameProvider, sameTime, sameValue]
      split
      · exact ih agree
      · split
        · simp only [Lookup.found, resultTime, sameProvider]
        · apply ih
          simp only [Lookup.found, resultTime, sameProvider]

/-- What a call finds depends on the priority list only. -/
theorem getValue_found (elem other : LookupElem) (same : elem.priority = other.priority)
    (pPM : PData.Member) (serie : FromTimeSerie F) (fromTime : PTime) (provider : Bytes)
    (notValidValue : F) (myCleanProvider myCleanFromTime : Bool) :
    (elem.getValue pPM serie fromTime provider notValidValue myCleanProvider
        myCleanFromTime).found =
      (other.getValue pPM serie fromTime provider notValidValue myCleanProvider
        myCleanFromTime).found := by
  have first := getValueImpl_found elem other same pPM serie fromTime provider notValidValue
  simp only [getValue]
  generalize elem.getValueImpl pPM serie fromTime provider notValidValue = current at first ⊢
  generalize other.getValueImpl pPM serie fromTime provider notValidValue = currentOther
    at first ⊢
  have second : (if current.value = notValidValue ∧ !current.provider.isEmpty ∧ !myCleanProvider
        then elem.getValueSameProvider pPM serie notValidValue (providerPrefix current.provider)
          elem.priority current
        else current).found =
      (if currentOther.value = notValidValue ∧ !currentOther.provider.isEmpty ∧ !myCleanProvider
        then other.getValueSameProvider pPM serie notValidValue
          (providerPrefix currentOther.provider) other.priority currentOther
        else currentOther).found := by
    rw [show current.value = currentOther.value from congrArg Found.value first,
      show current.provider = currentOther.provider from congrArg Found.provider first, same]
    split
    · exact getValueSameProvider_found elem other same pPM serie notValidValue _ _ first
    · exact first
  generalize (if current.value = notValidValue ∧ !current.provider.isEmpty ∧ !myCleanProvider
    then elem.getValueSameProvider pPM serie notValidValue (providerPrefix current.provider)
      elem.priority current
    else current) = tried at second ⊢
  generalize (if currentOther.value = notValidValue ∧ !currentOther.provider.isEmpty ∧
      !myCleanProvider
    then other.getValueSameProvider pPM serie notValidValue
      (providerPrefix currentOther.provider) other.priority currentOther
    else currentOther) = triedOther at second ⊢
  rw [show tried.value = triedOther.value from congrArg Found.value second,
    show tried.fromTime = triedOther.fromTime from congrArg Found.fromTime second,
    show tried.provider = triedOther.provider from congrArg Found.provider second]
  split
  · split
    · exact getValueImpl_found { elem with lastUsedProvider_ := tried.lastUsedProvider_ }
        { other with lastUsedProvider_ := triedOther.lastUsedProvider_ } same pPM serie _ _
        notValidValue
    · exact second
  · exact second

end Remembered

/-! ## The values of an hour -/

section Hours

variable {F : Type} [Floats F] [DecidableEq F]

/-- The lookup of a value of an hour. -/
def hourlyValue (elem : LookupElem) (pPM : PData.Member) (serie : FromTimeSerie F)
    (fromTime : PTime) (provider : Bytes) (tryHard : Bool) : Found F :=
  (elem.getValue pPM serie fromTime provider FLT_MAX tryHard false).found

end Hours

end LookupElem

/-- Where the lookups of an hour start: the end of the hour before, the provider, whether
the values are valid from the end of the hour itself, and whether any provider will do. -/
structure HourStart where
  fromTime : PTime
  provider : Bytes
  isEqual : Bool
  tryHard : Bool

/-- What the lookups of an hour find. -/
structure Hour (F : Type) where
  totime : PTime
  isEqual : Bool
  mean : Found F
  min : Found F
  max : Found F
  prob : Found F

namespace Hour

variable {F : Type}

/-- The start of the next hour. -/
def next (hour : Hour F) : HourStart := ⟨hour.totime, hour.prob.provider, hour.isEqual, false⟩

/-- The hour has a mean, a minimum and a maximum. -/
structure Complete [Floats F] (hour : Hour F) : Prop where
  mean : hour.mean.value ≠ FLT_MAX
  min : hour.min.value ≠ FLT_MAX
  max : hour.max.value ≠ FLT_MAX

instance [Floats F] [DecidableEq F] (hour : Hour F) : Decidable hour.Complete :=
  decidable_of_iff
    (hour.mean.value ≠ FLT_MAX ∧ hour.min.value ≠ FLT_MAX ∧ hour.max.value ≠ FLT_MAX)
    ⟨fun found => ⟨found.1, found.2.1, found.2.2⟩,
      fun complete => ⟨complete.mean, complete.min, complete.max⟩⟩

/-- The spread of an hour, which is not negative. -/
def spread [Floats F] [DecidableLT F] (hour : Hour F) : F :=
  if hour.max.value - hour.min.value < lit 0 then lit 0 else hour.max.value - hour.min.value

end Hour

namespace LookupElem

variable {F : Type} [Floats F] [DecidableEq F]

/-- The values of the hour that ends at a time.  When there is no mean from the end of the
hour before, they are those from the end of the hour itself. -/
def hour (elem : LookupElem) (start : HourStart) (totime : PTime) (serie : FromTimeSerie F) :
    Hour F :=
  let fromTime := if start.isEqual then totime else start.fromTime
  let first := elem.hourlyValue .PRECIP_MEAN serie fromTime start.provider start.tryHard
  let retry := decide (first.value = FLT_MAX) && !start.isEqual
  let mean :=
    if retry then elem.hourlyValue .PRECIP_MEAN serie totime first.provider start.tryHard
    else first
  let min := elem.hourlyValue .PRECIP_MIN serie mean.fromTime mean.provider false
  let max := elem.hourlyValue .PRECIP_MAX serie min.fromTime min.provider false
  { totime := totime
    isEqual := start.isEqual || retry
    mean := mean
    min := min
    max := max
    prob := elem.hourlyValue .PRECIP_PROBABILITY serie max.fromTime max.provider false }

theorem hour_min (elem : LookupElem) (start : HourStart) (totime : PTime)
    (serie : FromTimeSerie F) :
    elem.hourlyValue .PRECIP_MIN serie (elem.hour start totime serie).mean.fromTime
        (elem.hour start totime serie).mean.provider false =
      (elem.hour start totime serie).min := rfl

theorem hour_max (elem : LookupElem) (start : HourStart) (totime : PTime)
    (serie : FromTimeSerie F) :
    elem.hourlyValue .PRECIP_MAX serie (elem.hour start totime serie).min.fromTime
        (elem.hour start totime serie).min.provider false =
      (elem.hour start totime serie).max := rfl

theorem hour_prob (elem : LookupElem) (start : HourStart) (totime : PTime)
    (serie : FromTimeSerie F) :
    elem.hourlyValue .PRECIP_PROBABILITY serie (elem.hour start totime serie).max.fromTime
        (elem.hour start totime serie).max.provider false =
      (elem.hour start totime serie).prob := rfl

/-- The values of the hours of a period. -/
def hours (elem : LookupElem) : List (PTime × FromTimeSerie F) → HourStart → List (Hour F)
  | [], _ => []
  | (totime, serie) :: rest, start =>
      elem.hour start totime serie :: elem.hours rest (elem.hour start totime serie).next

@[simp] theorem length_hours (elem : LookupElem) (entries : List (PTime × FromTimeSerie F))
    (start : HourStart) : (elem.hours entries start).length = entries.length := by
  induction entries generalizing start with
  | nil => rfl
  | cons entry rest ih => simp [hours, ih]

end LookupElem

/-! ## The values that are collected -/

namespace LocationElem

section Collected

variable {F : Type} [Floats F] [DecidableEq F] [DecidableLT F]

/-- Add the values of an hour, unless one is missing. -/
def HourlyPrecip.add (collected : HourlyPrecip F) (hour : Hour F) : Option (HourlyPrecip F) :=
  if hour.Complete then
    some
      { min := collected.min ++ [hour.min.value]
        max := collected.max ++ [hour.max.value]
        mean := collected.mean ++ [hour.mean.value]
        prob := collected.prob ++ [hour.prob.value]
        maxPrecipMax :=
          if collected.maxPrecipMax < hour.max.value then hour.max.value
          else collected.maxPrecipMax }
  else none

theorem HourlyPrecip.add_of_complete (collected : HourlyPrecip F) {hour : Hour F}
    (complete : hour.Complete) :
    collected.add hour =
      some
        { min := collected.min ++ [hour.min.value]
          max := collected.max ++ [hour.max.value]
          mean := collected.mean ++ [hour.mean.value]
          prob := collected.prob ++ [hour.prob.value]
          maxPrecipMax :=
            if collected.maxPrecipMax < hour.max.value then hour.max.value
            else collected.maxPrecipMax } :=
  if_pos complete

theorem HourlyPrecip.add_of_not_complete (collected : HourlyPrecip F) {hour : Hour F}
    (incomplete : ¬hour.Complete) : collected.add hour = none :=
  if_neg incomplete

theorem HourlyPrecip.isSome_add_iff (collected : HourlyPrecip F) (hour : Hour F) :
    (collected.add hour).isSome ↔ hour.Complete := by
  by_cases complete : hour.Complete
  · simp [collected.add_of_complete complete, complete]
  · simp [collected.add_of_not_complete complete, complete]

theorem HourlyPrecip.complete_of_add {collected after : HourlyPrecip F} {hour : Hour F}
    (added : collected.add hour = some after) : hour.Complete := by
  rw [← collected.isSome_add_iff hour, added]
  rfl

theorem HourlyPrecip.min_of_add {collected after : HourlyPrecip F} {hour : Hour F}
    (added : collected.add hour = some after) :
    after.min = collected.min ++ [hour.min.value] := by
  rw [collected.add_of_complete (complete_of_add added)] at added
  exact congrArg HourlyPrecip.min (Option.some.inj added).symm

theorem HourlyPrecip.max_of_add {collected after : HourlyPrecip F} {hour : Hour F}
    (added : collected.add hour = some after) :
    after.max = collected.max ++ [hour.max.value] := by
  rw [collected.add_of_complete (complete_of_add added)] at added
  exact congrArg HourlyPrecip.max (Option.some.inj added).symm

theorem HourlyPrecip.mean_of_add {collected after : HourlyPrecip F} {hour : Hour F}
    (added : collected.add hour = some after) :
    after.mean = collected.mean ++ [hour.mean.value] := by
  rw [collected.add_of_complete (complete_of_add added)] at added
  exact congrArg HourlyPrecip.mean (Option.some.inj added).symm

/-- The spreads of the hours that are collected. -/
def HourlyPrecip.spreads (collected : HourlyPrecip F) : List F :=
  List.zipWith (fun max min => if max - min < lit 0 then lit 0 else max - min)
    collected.max collected.min

omit [DecidableEq F] in
/-- The spreads that are collected are those of the hours. -/
theorem HourlyPrecip.spreads_eq {hours : List (Hour F)} {collected : HourlyPrecip F}
    (min : collected.min = hours.map fun hour => hour.min.value)
    (max : collected.max = hours.map fun hour => hour.max.value) :
    collected.spreads = hours.map Hour.spread := by
  rw [spreads, min, max, List.zipWith_map, List.zipWith_self]
  rfl

end Collected

section Lookups

variable {F : Type} [Floats F] [DecidableEq F]

/-- The cursor looks values up as the search does, from a provider. -/
structure SearchesAs (base : LookupElem) (provider : Bytes) (elem : LocationElem F) :
    Prop where
  priority : elem.priority = base.priority
  provider : elem.forecastProvider = provider

/-- A lookup with the forecast provider. -/
theorem SearchesAs.run_lookupMember {base : LookupElem} {provider : Bytes}
    {elem : LocationElem F} (searches : SearchesAs base provider elem) (pPM : PData.Member)
    (serie : FromTimeSerie F) (fromTime : PTime) (tryHard : Bool) :
    ∃ after, (lookupMember pPM .forecastProvider serie fromTime tryHard false).run elem =
        pure (((base.hourlyValue pPM serie fromTime provider tryHard).value,
          (base.hourlyValue pPM serie fromTime provider tryHard).fromTime), after) ∧
      SearchesAs base (base.hourlyValue pPM serie fromTime provider tryHard).provider after := by
  have found := LookupElem.getValue_found elem.toLookupElem base searches.priority pPM serie
    fromTime provider FLT_MAX tryHard false
  rw [LookupElem.hourlyValue, ← found, ← searches.provider]
  exact ⟨_, rfl, searches.priority, rfl⟩

/-- The mean of an hour, from the end of the hour itself when there is none from the end of
the hour before. -/
theorem SearchesAs.run_mean {base : LookupElem} {elem : LocationElem F} (start : HourStart)
    (totime : PTime) (serie : FromTimeSerie F)
    (searches : SearchesAs base
      (base.hourlyValue .PRECIP_MEAN serie (if start.isEqual then totime else start.fromTime)
        start.provider start.tryHard).provider elem) :
    let first := base.hourlyValue .PRECIP_MEAN serie
      (if start.isEqual then totime else start.fromTime) start.provider start.tryHard
    let hour := base.hour start totime serie
    ∃ after, StateT.run
        (if (decide (first.value = FLT_MAX) && !start.isEqual) = true then
          lookupMember .PRECIP_MEAN .forecastProvider serie totime start.tryHard false
        else pure (first.value, first.fromTime)) elem =
          pure ((hour.mean.value, hour.mean.fromTime), after) ∧
      SearchesAs base hour.mean.provider after := by
  intro first hour
  have mean : hour.mean =
      if (decide (first.value = FLT_MAX) && !start.isEqual) = true then
        base.hourlyValue .PRECIP_MEAN serie totime first.provider start.tryHard
      else first := rfl
  rw [mean]
  split
  next retry => exact searches.run_lookupMember .PRECIP_MEAN serie totime start.tryHard
  next found => exact ⟨elem, rfl, searches⟩

end Lookups

section Loop

variable {F : Type} [Floats F] [DecidableEq F] [DecidableLT F]

/-- The loop collects the values of the hours. -/
theorem run_PRECIP_MIN_MAX_MEAN_loop {base : LookupElem} {elem : LocationElem F}
    (entries : List (PTime × FromTimeSerie F)) (start : HourStart)
    (searches : SearchesAs base start.provider elem) (collected : HourlyPrecip F) :
    ((PRECIP_MIN_MAX_MEAN_loop entries start.fromTime start.isEqual start.tryHard
        collected).run elem).1 =
      (base.hours entries start).foldlM HourlyPrecip.add collected := by
  induction entries generalizing start elem collected with
  | nil => rfl
  | cons entry rest ih =>
      rcases entry with ⟨totime, serie⟩
      rcases searches.run_lookupMember .PRECIP_MEAN serie
        (if start.isEqual then totime else start.fromTime) start.tryHard with
        ⟨afterFirst, runFirst, searchesFirst⟩
      rcases searchesFirst.run_mean start totime serie with ⟨afterMean, runMean, searchesMean⟩
      rcases searchesMean.run_lookupMember .PRECIP_MIN serie
        (base.hour start totime serie).mean.fromTime false with ⟨afterMin, runMin, searchesMin⟩
      rw [LookupElem.hour_min] at runMin searchesMin
      rcases searchesMin.run_lookupMember .PRECIP_MAX serie
        (base.hour start totime serie).min.fromTime false with ⟨afterMax, runMax, searchesMax⟩
      rw [LookupElem.hour_max] at runMax searchesMax
      rcases searchesMax.run_lookupMember .PRECIP_PROBABILITY serie
        (base.hour start totime serie).max.fromTime false with ⟨afterProb, runProb, searchesProb⟩
      rw [LookupElem.hour_prob] at runProb searchesProb
      simp only [PRECIP_MIN_MAX_MEAN_loop, StateT.run_bind, runFirst, pure_bind, runMean,
        LookupElem.hours, List.foldlM_cons]
      by_cases mean : (base.hour start totime serie).mean.value = FLT_MAX
      · have incomplete : ¬(base.hour start totime serie).Complete := fun complete =>
          complete.mean mean
        rw [if_pos mean, HourlyPrecip.add_of_not_complete collected incomplete]
        rfl
      · rw [if_neg mean, StateT.run_bind, runMin, pure_bind]
        by_cases min : (base.hour start totime serie).min.value = FLT_MAX
        · have incomplete : ¬(base.hour start totime serie).Complete := fun complete =>
            complete.min min
          rw [if_pos min, HourlyPrecip.add_of_not_complete collected incomplete]
          rfl
        · rw [if_neg min, StateT.run_bind, runMax, pure_bind]
          by_cases max : (base.hour start totime serie).max.value = FLT_MAX
          · have incomplete : ¬(base.hour start totime serie).Complete := fun complete =>
              complete.max max
            rw [if_pos max, HourlyPrecip.add_of_not_complete collected incomplete]
            rfl
          · rw [if_neg max, StateT.run_bind, runProb, pure_bind,
              HourlyPrecip.add_of_complete collected ⟨mean, min, max⟩]
            exact ih (base.hour start totime serie).next searchesProb _

end Loop

/-! ## The weights -/

section Weights

variable {F : Type} [Floats F]

/-- The weighted sum has a weight for every spread exactly when there are no more spreads
than weights. -/
theorem isSome_weightedSpread_iff (minMaxDif : List F) :
    (weightedSpread minMaxDif.length minMaxDif).isSome ↔
      minMaxDif.length ≤ spreadWeights.length := by
  have each : ∀ (sum : F) (i : ℕ),
      (do
        let weight ← spreadWeights[i]?
        let dif ← minMaxDif[i]?
        pure (sum + dif * lit weight) : Option F).isSome ↔
          i < spreadWeights.length ∧ i < minMaxDif.length := by
    intro sum i
    have weight : spreadWeights[i]?.isSome ↔ i < spreadWeights.length := by simp
    have dif : minMaxDif[i]?.isSome ↔ i < minMaxDif.length := by simp
    rw [← weight, ← dif]
    cases spreadWeights[i]? with
    | none => simp
    | some weight => cases minMaxDif[i]? <;> simp
  rw [weightedSpread, Runs.isSome_foldlM_iff each]
  simp only [List.mem_range]
  constructor
  · intro every
    by_contra more
    exact absurd (every spreadWeights.length (not_le.mp more)).1 (lt_irrefl _)
  · intro enough i inside
    exact ⟨inside.trans_le enough, inside⟩

theorem orderedSpread_ne_outOfTable [DecidableLT F] (minOut maxOut meanOut probOut : F) :
    orderedSpread minOut maxOut meanOut probOut ≠ .outOfTable := by
  rw [orderedSpread]
  split
  · intro same
    cases same
  · intro same
    cases same

variable [DecidableEq F] [DecidableLE F]

theorem isSome_sortVector_iff {values : List F} :
    (Floats.sortVector values).isSome ↔ FLT_MAX ∉ values := by
  simp [Floats.sortVector]

theorem length_of_sortVector {values sorted : List F}
    (sorts : Floats.sortVector values = some sorted) : sorted.length = values.length := by
  rw [Floats.sortVector] at sorts
  split at sorts
  · cases sorts
  · rw [← Option.some.inj sorts, List.length_mergeSort]

variable [DecidableLT F]

/-- Where a read is outside the table, more values are collected than there are weights. -/
theorem lt_length_of_outOfTable {hoursBack : ℤ} {collected : HourlyPrecip F}
    (notOne : hoursBack ≠ 1) (atMost : ¬hoursBack > 6)
    (sameLength : collected.spreads.length = collected.min.length)
    (outOfTable : precipSpread hoursBack collected = .outOfTable) :
    (Floats.sortVector collected.spreads).isSome ∧
      spreadWeights.length < collected.min.length := by
  rw [precipSpread, if_neg notOne, if_neg atMost] at outOfTable
  cases sorted : Floats.sortVector collected.spreads with
  | none =>
      rw [HourlyPrecip.spreads] at sorted
      simp [sorted] at outOfTable
  | some minMaxDif =>
      refine ⟨rfl, ?_⟩
      have length := (length_of_sortVector sorted).trans sameLength
      by_contra enough
      have weighted : (weightedSpread minMaxDif.length minMaxDif).isSome := by
        rw [isSome_weightedSpread_iff, length]
        exact not_lt.mp enough
      rcases Option.isSome_iff_exists.mp weighted with ⟨sum, weighted⟩
      rw [length] at weighted
      rw [HourlyPrecip.spreads] at sorted
      simp only [sorted, weighted] at outOfTable
      exact orderedSpread_ne_outOfTable _ _ _ _ outOfTable

end Weights

section Period

variable {F : Type} [Floats F] [DecidableEq F] [DecidableLT F]

/-- The start of the period. -/
def periodStart (elem : LocationElem F) (hoursBack : ℤ) : PTime :=
  elem.time.sub (PTime.hours hoursBack)

/-- The end of the first hour of the period. -/
def firstTotime (elem : LocationElem F) (hoursBack : ℤ) : PTime :=
  (elem.periodStart hoursBack).add (PTime.hours 1)

/-- The times of the series in the period. -/
def hourEntries (elem : LocationElem F) (hoursBack : ℤ) : List (PTime × FromTimeSerie F) :=
  elem.periodEntries (elem.firstTotime hoursBack) elem.time

/-- The values of the hours of the period, as the lookups with the forecast provider find
them. -/
def periodHours (elem : LocationElem F) (hoursBack : ℤ) (tryHard : Bool) : List (Hour F) :=
  elem.toLookupElem.hours (elem.hourEntries hoursBack)
    ⟨elem.periodStart hoursBack, elem.forecastProvider, false, tryHard⟩

/-- The values that the loop over the period collects. -/
def collectedHours (elem : LocationElem F) (hoursBack : ℤ) (tryHard : Bool) :
    Option (HourlyPrecip F) :=
  ((PRECIP_MIN_MAX_MEAN_loop (elem.hourEntries hoursBack) (elem.periodStart hoursBack) false
    tryHard ⟨[], [], [], [], lit 0⟩).run elem).1

variable {elem : LocationElem F} {hoursBack : ℤ} {tryHard : Bool} {collected : HourlyPrecip F}

theorem collectedHours_eq (elem : LocationElem F) (hoursBack : ℤ) (tryHard : Bool) :
    elem.collectedHours hoursBack tryHard =
      (elem.periodHours hoursBack tryHard).foldlM HourlyPrecip.add ⟨[], [], [], [], lit 0⟩ :=
  run_PRECIP_MIN_MAX_MEAN_loop (elem.hourEntries hoursBack)
    ⟨elem.periodStart hoursBack, elem.forecastProvider, false, tryHard⟩ ⟨rfl, rfl⟩ _

/-- Values are collected exactly when every hour of the period has them. -/
theorem isSome_collectedHours_iff :
    (elem.collectedHours hoursBack tryHard).isSome ↔
      ∀ hour ∈ elem.periodHours hoursBack tryHard, hour.Complete := by
  rw [collectedHours_eq]
  exact Runs.isSome_foldlM_iff HourlyPrecip.isSome_add_iff

theorem min_of_collectedHours
    (collects : elem.collectedHours hoursBack tryHard = some collected) :
    collected.min = (elem.periodHours hoursBack tryHard).map fun hour => hour.min.value := by
  rw [collectedHours_eq] at collects
  exact Runs.foldlM_appends HourlyPrecip.min (fun _ _ _ => HourlyPrecip.min_of_add) collects

theorem max_of_collectedHours
    (collects : elem.collectedHours hoursBack tryHard = some collected) :
    collected.max = (elem.periodHours hoursBack tryHard).map fun hour => hour.max.value := by
  rw [collectedHours_eq] at collects
  exact Runs.foldlM_appends HourlyPrecip.max (fun _ _ _ => HourlyPrecip.max_of_add) collects

theorem mean_of_collectedHours
    (collects : elem.collectedHours hoursBack tryHard = some collected) :
    collected.mean = (elem.periodHours hoursBack tryHard).map fun hour => hour.mean.value := by
  rw [collectedHours_eq] at collects
  exact Runs.foldlM_appends HourlyPrecip.mean (fun _ _ _ => HourlyPrecip.mean_of_add) collects

theorem spreads_of_collectedHours
    (collects : elem.collectedHours hoursBack tryHard = some collected) :
    collected.spreads = (elem.periodHours hoursBack tryHard).map Hour.spread :=
  HourlyPrecip.spreads_eq (min_of_collectedHours collects) (max_of_collectedHours collects)

/-- As many values are collected as there are times in the period. -/
theorem length_of_collectedHours
    (collects : elem.collectedHours hoursBack tryHard = some collected) :
    collected.min.length = (elem.hourEntries hoursBack).length := by
  rw [min_of_collectedHours collects, List.length_map, periodHours, LookupElem.length_hours]

end Period

section Spread

variable {F : Type} [Floats F] [DecidableEq F] [DecidableLT F] [DecidableLE F]

/-- The values that are collected when the computation of the spread is reached. -/
structure ReachesSpread (elem : LocationElem F) (hoursBack : ℤ) (tryHard : Bool)
    (collected : HourlyPrecip F) : Prop where
  started : (elem.find (elem.firstTotime hoursBack)).isEmpty = false
  collects : elem.collectedHours hoursBack tryHard = some collected
  sorts : (Floats.sortVector collected.spreads).isSome

/-- There is a weight for every value that is collected, and no read is outside the
table. -/
structure StaysInTable (elem : LocationElem F) (hoursBack : ℤ) (tryHard : Bool) : Prop where
  bounded : ∀ collected, elem.ReachesSpread hoursBack tryHard collected →
    collected.min.length ≤ spreadWeights.length
  inRange : ((PRECIP_MIN_MAX_MEAN hoursBack tryHard).run elem).1.1 ≠ .outOfTable

variable {elem : LocationElem F} {hoursBack : ℤ} {tryHard : Bool} {collected : HourlyPrecip F}

/-- The computation of the spread is reached for a period that holds a time, when every hour
has its values and a spread. -/
theorem exists_reachesSpread (notEmpty : elem.hourEntries hoursBack ≠ [])
    (accepted : ∀ hour ∈ elem.periodHours hoursBack tryHard,
      hour.Complete ∧ hour.spread ≠ FLT_MAX) :
    ∃ collected, elem.ReachesSpread hoursBack tryHard collected := by
  have complete := isSome_collectedHours_iff.mpr fun hour inPeriod => (accepted hour inPeriod).1
  rcases Option.isSome_iff_exists.mp complete with ⟨collected, collects⟩
  refine ⟨collected, ?_, collects, ?_⟩
  · rw [Bool.eq_false_iff]
    intro isEmpty
    apply notEmpty
    rw [hourEntries, periodEntries, List.isEmpty_iff.mp isEmpty, List.takeWhile_nil]
  · rw [isSome_sortVector_iff, spreads_of_collectedHours collects]
    intro missing
    rcases List.mem_map.mp missing with ⟨hour, inPeriod, spread⟩
    exact (accepted hour inPeriod).2 spread

/-- Where the computation of the spread is reached, every hour has its values and a
spread. -/
theorem ReachesSpread.accepted (reaches : elem.ReachesSpread hoursBack tryHard collected)
    {hour : Hour F} (inPeriod : hour ∈ elem.periodHours hoursBack tryHard) :
    hour.Complete ∧ hour.spread ≠ FLT_MAX := by
  constructor
  · have complete : (elem.collectedHours hoursBack tryHard).isSome := by
      rw [reaches.collects]
      rfl
    exact isSome_collectedHours_iff.mp complete hour inPeriod
  · intro missing
    apply isSome_sortVector_iff.mp reaches.sorts
    rw [spreads_of_collectedHours reaches.collects, ← missing]
    exact List.mem_map_of_mem inPeriod

/-- The spread and its time are computed from the values of a period that starts in the
series. -/
theorem run_PRECIP_MIN_MAX_MEAN
    (started : (elem.find (elem.firstTotime hoursBack)).isEmpty = false) :
    ((PRECIP_MIN_MAX_MEAN hoursBack tryHard).run elem).1 =
      (elem.collectedHours hoursBack tryHard).elim (.failed, default) fun collected =>
        (precipSpread hoursBack collected, elem.periodStart hoursBack) := by
  have started : ¬(elem.find ((elem.time.sub (PTime.hours hoursBack)).add
      (PTime.hours 1))).isEmpty = true := by
    rw [Bool.not_eq_true]
    exact started
  simp only [PRECIP_MIN_MAX_MEAN, StateT.run_bind, StateT.run_get, pure_bind, if_neg started,
    collectedHours, hourEntries, firstTotime, periodStart]
  rcases (PRECIP_MIN_MAX_MEAN_loop _ _ _ _ _).run elem with ⟨outcome, after⟩
  cases outcome with
  | none => rfl
  | some collected => rfl

theorem run_PRECIP_MIN_MAX_MEAN_of_empty
    (empty : (elem.find (elem.firstTotime hoursBack)).isEmpty = true) :
    ((PRECIP_MIN_MAX_MEAN hoursBack tryHard).run elem).1 = (.failed, default) := by
  rw [firstTotime, periodStart] at empty
  simp only [PRECIP_MIN_MAX_MEAN, StateT.run_bind, StateT.run_get, pure_bind, if_pos empty]
  rfl

/-- A read outside the table comes from more values than weights. -/
theorem exists_of_outOfTable (notOne : hoursBack ≠ 1) (atMost : ¬hoursBack > 6)
    (outOfTable : ((PRECIP_MIN_MAX_MEAN hoursBack tryHard).run elem).1.1 = .outOfTable) :
    ∃ collected, elem.ReachesSpread hoursBack tryHard collected ∧
      spreadWeights.length < collected.min.length := by
  cases started : (elem.find (elem.firstTotime hoursBack)).isEmpty with
  | true =>
      rw [run_PRECIP_MIN_MAX_MEAN_of_empty started] at outOfTable
      cases outOfTable
  | false =>
      rw [run_PRECIP_MIN_MAX_MEAN started] at outOfTable
      cases collects : elem.collectedHours hoursBack tryHard with
      | none =>
          rw [collects] at outOfTable
          cases outOfTable
      | some collected =>
          rw [collects] at outOfTable
          have sameLength : collected.spreads.length = collected.min.length := by
            rw [spreads_of_collectedHours collects, min_of_collectedHours collects,
              List.length_map, List.length_map]
          rcases lt_length_of_outOfTable notOne atMost sameLength outOfTable with ⟨sorts, more⟩
          exact ⟨collected, ⟨started, collects, sorts⟩, more⟩

/-- The spread stays inside its table exactly when no more times than weights are in the
period, or one of them lacks a value or has the missing value as its spread. -/
theorem staysInTable_iff (elem : LocationElem F) (hoursBack : ℤ) (tryHard : Bool)
    (atLeast : 2 ≤ hoursBack) (atMost : hoursBack ≤ 6) :
    elem.StaysInTable hoursBack tryHard ↔
      (elem.hourEntries hoursBack).length ≤ spreadWeights.length ∨
        ∃ hour ∈ elem.periodHours hoursBack tryHard, ¬hour.Complete ∨ hour.spread = FLT_MAX := by
  have reached : ∀ collected, elem.ReachesSpread hoursBack tryHard collected →
      ((elem.hourEntries hoursBack).length ≤ spreadWeights.length ∨
        ∃ hour ∈ elem.periodHours hoursBack tryHard,
          ¬hour.Complete ∨ hour.spread = FLT_MAX) →
      collected.min.length ≤ spreadWeights.length := by
    intro collected reaches condition
    rw [length_of_collectedHours reaches.collects]
    rcases condition with few | ⟨hour, inPeriod, incomplete | missing⟩
    · exact few
    · exact absurd (reaches.accepted inPeriod).1 incomplete
    · exact absurd missing (reaches.accepted inPeriod).2
  constructor
  · intro stays
    by_contra excluded
    rw [not_or, not_le, not_exists] at excluded
    rcases excluded with ⟨more, accepted⟩
    have notEmpty : elem.hourEntries hoursBack ≠ [] := by
      intro empty
      rw [empty] at more
      exact Nat.not_lt_zero _ more
    have every : ∀ hour ∈ elem.periodHours hoursBack tryHard,
        hour.Complete ∧ hour.spread ≠ FLT_MAX := by
      intro hour inPeriod
      have found := not_and.mp (accepted hour) inPeriod
      rw [not_or, not_not] at found
      exact found
    rcases exists_reachesSpread notEmpty every with ⟨collected, reaches⟩
    have bounded := stays.bounded collected reaches
    rw [length_of_collectedHours reaches.collects] at bounded
    exact absurd more (not_lt.mpr bounded)
  · intro condition
    constructor
    · intro collected reaches
      exact reached collected reaches condition
    · intro outOfTable
      have notOne : hoursBack ≠ 1 := by omega
      rcases exists_of_outOfTable notOne (not_lt.mpr atMost) outOfTable with
        ⟨collected, reaches, more⟩
      exact absurd more (not_lt.mpr (reached collected reaches condition))

end Spread

/-! ### A half-hourly series -/

section HalfHourly

/-- The precipitation of one provider, at a number of times with equal distances. -/
def precipEvery (minutes : ℤ) (count : ℕ) : LocationElem ℚ :=
  (LocationData.create
    (DecodePData.storeRows
      ((List.range count).flatMap fun i =>
        let totime := PTime.ticks (minutes * i * 60000000)
        ["PRECIP.MEAN", "PRECIP.MIN", "PRECIP.MAX"].map fun param =>
          ⟨param, Bytes.str "arome", totime, totime, some 1⟩))
    10 60 INT_MIN [⟨Bytes.str "arome", []⟩] ∅ [] ∅ true).locationElem.init (count - 1)

theorem staysInTable_hourly : (precipEvery 60 7).StaysInTable 6 false :=
  (staysInTable_iff (precipEvery 60 7) 6 false (by decide) (by decide)).mpr
    (Or.inl (by decide +kernel))

/-- A half-hourly series has seven times in a period of four hours. -/
theorem not_staysInTable_halfHourly : ¬(precipEvery 30 9).StaysInTable 4 false := by
  have notEmpty : (precipEvery 30 9).hourEntries 4 ≠ [] := by
    intro empty
    have none := congrArg List.length empty
    revert none
    decide +kernel
  have accepted : ∀ hour ∈ (precipEvery 30 9).periodHours 4 false,
      hour.Complete ∧ hour.spread ≠ FLT_MAX := by
    decide +kernel
  intro stays
  rcases exists_reachesSpread notEmpty accepted with ⟨collected, reaches⟩
  have bounded := stays.bounded collected reaches
  rw [length_of_collectedHours reaches.collects] at bounded
  revert bounded
  decide +kernel

end HalfHourly

end LocationElem

end Wdb2ts
