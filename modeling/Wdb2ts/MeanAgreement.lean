import Wdb2ts.Lib.PositiveParts
import Wdb2ts.MeanPeriod
import Wdb2ts.SpreadBounds

/-!
# Two sums of the mean precipitation

`PRECIP_MEAN` counts every negative value as zero, and `PRECIP_MIN_MAX_MEAN` only a negative
sum.  Both go through the same hours, with the provider that the first one has a value of.
-/

namespace Wdb2ts

/-! ## The provider of the lookups -/

namespace LookupElem

section Provider

variable {F : Type} [DecidableEq F]

/-- A search with a name keeps it. -/
theorem provider_getValueImpl (elem : LookupElem) (pPM : PData.Member)
    (serie : FromTimeSerie F) (fromTime : PTime) {provider : Bytes} (named : provider ≠ [])
    (notValidValue : F) :
    (elem.getValueImpl pPM serie fromTime provider notValidValue).provider = provider := by
  rw [getValueImpl_eq]
  cases searched : elem.search pPM serie fromTime provider notValidValue with
  | none => rfl
  | some cell =>
      rw [search_eq_findSome?, FirstMatch.findSome?_lexicographic] at searched
      rcases searched with ⟨key, position, candidate, _⟩
      rcases isMatch_iff_isCandidate.mp candidate with ⟨_, first⟩
      have only : elem.searchedProviders provider = [provider] := by
        simp [searchedProviders, named]
      have found := List.mem_of_getElem? first.provider
      rw [only] at found
      exact List.mem_singleton.mp found

theorem provider_getValueSameProvider (elem : LookupElem) (pPM : PData.Member)
    (serie : FromTimeSerie F) (notValidValue : F) (providerName : Bytes) (items : ProviderList)
    (current : Lookup F) :
    (elem.getValueSameProvider pPM serie notValidValue providerName items current).provider =
      current.provider := by
  induction items generalizing current with
  | nil => rfl
  | cons item rest ih =>
      simp only [getValueSameProvider]
      split
      · exact ih current
      · split
        · rfl
        · exact ih _

/-- A lookup with a name keeps it, unless any provider will do. -/
theorem provider_getValue (elem : LookupElem) (pPM : PData.Member) (serie : FromTimeSerie F)
    (fromTime : PTime) {provider : Bytes} (named : provider ≠ []) (notValidValue : F)
    (myCleanFromTime : Bool) :
    (elem.getValue pPM serie fromTime provider notValidValue false myCleanFromTime).provider =
      provider := by
  have first := elem.provider_getValueImpl pPM serie fromTime named notValidValue
  simp only [getValue]
  generalize elem.getValueImpl pPM serie fromTime provider notValidValue = current at first ⊢
  have second : (if current.value = notValidValue ∧ !current.provider.isEmpty ∧ !false
      then elem.getValueSameProvider pPM serie notValidValue (providerPrefix current.provider)
        elem.priority current
      else current).provider = provider := by
    split
    · exact (provider_getValueSameProvider ..).trans first
    · exact first
  generalize (if current.value = notValidValue ∧ !current.provider.isEmpty ∧ !false
    then elem.getValueSameProvider pPM serie notValidValue (providerPrefix current.provider)
      elem.priority current
    else current) = tried at second ⊢
  simp only [Bool.and_false, Bool.false_eq_true, if_false, second]
  split
  · split
    · exact provider_getValueImpl _ _ _ _ named _
    · exact second
  · exact second

end Provider

section Means

variable {F : Type} [Floats F] [DecidableEq F]

theorem provider_hourlyValue (elem : LookupElem) (pPM : PData.Member) (serie : FromTimeSerie F)
    (fromTime : PTime) {provider : Bytes} (named : provider ≠ []) :
    (elem.hourlyValue pPM serie fromTime provider false).provider = provider :=
  elem.provider_getValue pPM serie fromTime named FLT_MAX false

/-- The lookups of an hour keep the provider that has the mean. -/
theorem provider_hour (elem : LookupElem) (start : HourStart) (totime : PTime)
    (serie : FromTimeSerie F) (named : (elem.hour start totime serie).mean.provider ≠ []) :
    (elem.hour start totime serie).prob.provider =
      (elem.hour start totime serie).mean.provider := by
  have min : (elem.hour start totime serie).min.provider =
      (elem.hour start totime serie).mean.provider := by
    rw [← elem.hour_min]
    exact elem.provider_hourlyValue _ _ _ named
  have max : (elem.hour start totime serie).max.provider =
      (elem.hour start totime serie).mean.provider := by
    rw [← elem.hour_max, min]
    exact elem.provider_hourlyValue _ _ _ named
  rw [← elem.hour_prob, max]
  exact elem.provider_hourlyValue _ _ _ named

/-- The next hour starts in the same way in both loops. -/
theorem next_meanHour (elem : LookupElem) (start : HourStart) (totime : PTime)
    (serie : FromTimeSerie F) (named : (elem.hour start totime serie).mean.provider ≠ []) :
    (elem.meanHour start totime serie).next = (elem.hour start totime serie).next := by
  rw [Hour.next, elem.provider_hour start totime serie named]
  rfl

/-- An hour with a provider has its mean from it, unless any provider will do. -/
theorem provider_mean (elem : LookupElem) (start : HourStart) (totime : PTime)
    (serie : FromTimeSerie F) (named : start.provider ≠ []) (fixed : start.tryHard = false) :
    (elem.hour start totime serie).mean.provider = start.provider := by
  generalize opened : elem.hourlyValue .PRECIP_MEAN serie
    (if start.isEqual then totime else start.fromTime) start.provider start.tryHard = first
  have kept : first.provider = start.provider := by
    rw [← opened, fixed]
    exact elem.provider_hourlyValue _ _ _ named
  have mean : (elem.hour start totime serie).mean =
      if (decide (first.value = FLT_MAX) && !start.isEqual) = true then
        elem.hourlyValue .PRECIP_MEAN serie totime first.provider start.tryHard
      else first := by
    rw [← opened]
    rfl
  rw [mean]
  split
  · rw [kept, fixed]
    exact elem.provider_hourlyValue _ _ _ named
  · exact kept

/-- With a provider, both loops find the same means. -/
theorem means_eq_of_named (elem : LookupElem) (entries : List (PTime × FromTimeSerie F))
    (start : HourStart) (named : start.provider ≠ []) (fixed : start.tryHard = false) :
    (elem.meanHours entries start).map MeanHour.mean =
      (elem.hours entries start).map Hour.mean := by
  induction entries generalizing start with
  | nil => rfl
  | cons entry rest ih =>
      rcases entry with ⟨totime, serie⟩
      have mean := elem.provider_mean start totime serie named fixed
      have namedMean : (elem.hour start totime serie).mean.provider ≠ [] := by
        rw [mean]
        exact named
      have tail := ih (elem.meanHour start totime serie).next namedMean rfl
      rw [elem.next_meanHour start totime serie namedMean] at tail
      simp only [meanHours, hours, List.map_cons, elem.next_meanHour start totime serie namedMean,
        tail]
      rfl

/-- When the first hour has its mean from a provider with a name, both loops find the same
means. -/
theorem means_eq (elem : LookupElem) (entries : List (PTime × FromTimeSerie F))
    (start : HourStart)
    (named : ∀ hour ∈ (elem.meanHours entries start).head?, hour.mean.provider ≠ []) :
    (elem.meanHours entries start).map MeanHour.mean =
      (elem.hours entries start).map Hour.mean := by
  cases entries with
  | nil => rfl
  | cons entry rest =>
      rcases entry with ⟨totime, serie⟩
      have namedMean : (elem.hour start totime serie).mean.provider ≠ [] :=
        named (elem.meanHour start totime serie) rfl
      have tail := elem.means_eq_of_named rest (elem.meanHour start totime serie).next namedMean
        rfl
      rw [elem.next_meanHour start totime serie namedMean] at tail
      simp only [meanHours, hours, List.map_cons, elem.next_meanHour start totime serie namedMean,
        tail]
      rfl

end Means

end LookupElem

namespace LocationElem

/-! ## The mean of the spread -/

section Mean

variable {elem : LocationElem ℚ} {hoursBack : ℤ} {tryHard : Bool}
variable {minOut maxOut meanOut probOut : ℚ} {backTime : PTime}

/-- The mean of a period is the sum of the means that are collected, unless it is negative. -/
theorem meanOut_of_spreadOf {collected : HourlyPrecip ℚ} (valid : FLT_MAX ∉ collected.mean)
    (single : hoursBack = 1 → collected.mean.length = 1)
    (values : SpreadOf hoursBack collected (.values minOut maxOut meanOut probOut)) :
    meanOut = max 0 collected.mean.sum := by
  generalize spread : PrecipSpread.values minOut maxOut meanOut probOut = computed at values
  cases values with
  | oneHour one _ _ firstMean _ =>
      rcases List.length_eq_one_iff.mp (single one) with ⟨mean, onlyMean⟩
      rw [onlyMean, List.head?_cons] at firstMean
      rw [(values_of_orderedSpread spread.symm).2.2.1, ← Option.some.inj firstMean, onlyMean,
        List.sum_singleton]
  | long more =>
      cases spread
      rw [Floats.sumVector_eq_sum valid]
  | around v =>
      rw [(values_of_orderedSpread spread.symm).2.2.1, Floats.sumVector_eq_sum valid]

end Mean

/-! ## The hours of a period -/

section Period

variable {elem : LocationElem ℚ} {hoursBack : ℤ} {tryHard : Bool}

/-- The period of one hour has one time. -/
theorem length_hourEntries_one
    (ascending : elem.timeSerie.Pairwise fun earlier later => earlier.1 < later.1)
    (started : elem.hourEntries 1 ≠ []) : (elem.hourEntries 1).length = 1 := by
  have first : elem.firstTotime 1 = elem.time := by
    rw [firstTotime, periodStart]
    cases elem.time with
    | ticks last => simp [PTime.sub, PTime.add]
    | _ => rfl
  have atTime : ∀ entry ∈ elem.hourEntries 1, entry.1 = elem.time := by
    intro entry inPeriod
    have kept : entry ∈ elem.find (elem.firstTotime 1) :=
      (List.takeWhile_sublist _).subset inPeriod
    have fromFirst := Intervals.le_of_mem_dropWhile_ne ascending kept
    rw [first] at fromFirst
    have upTo : entry.1 ≤ elem.time := by
      simpa using List.mem_takeWhile_imp inPeriod
    exact le_antisymm upTo fromFirst
  have apart := ascending.sublist (elem.hourEntries_sublist 1)
  rcases List.exists_cons_of_ne_nil started with ⟨entry, rest, entries⟩
  rw [entries] at atTime apart ⊢
  cases rest with
  | nil => rfl
  | cons other rest =>
      have later := (List.pairwise_cons.mp apart).1 other (List.mem_cons_self ..)
      rw [atTime entry (List.mem_cons_self ..),
        atTime other (List.mem_cons_of_mem _ (List.mem_cons_self ..))] at later
      exact absurd later (lt_irrefl _)

/-- The means that the loop of the spread collects. -/
def collectedMeans (elem : LocationElem ℚ) (hoursBack : ℤ) (tryHard : Bool) : List ℚ :=
  (elem.periodHours hoursBack tryHard).map fun hour => hour.mean.value

/-- The means that the loop of `PRECIP_MEAN` adds. -/
def addedMeans (elem : LocationElem ℚ) (hoursBack : ℤ) (tryHard : Bool) : List ℚ :=
  (elem.periodMeans hoursBack tryHard).map fun hour => hour.mean.value

/-- The mean of the first hour is from a provider with a name. -/
def FirstNamed (elem : LocationElem ℚ) (hoursBack : ℤ) (tryHard : Bool) : Prop :=
  ∀ hour ∈ (elem.periodMeans hoursBack tryHard).head?, hour.mean.provider ≠ []

theorem addedMeans_eq (named : elem.FirstNamed hoursBack tryHard) :
    elem.addedMeans hoursBack tryHard = elem.collectedMeans hoursBack tryHard := by
  have means := elem.toLookupElem.means_eq (elem.hourEntries hoursBack)
    ⟨elem.periodStart hoursBack, elem.forecastProvider, false, tryHard⟩ named
  have values := congrArg (List.map Found.value) means
  rw [List.map_map, List.map_map] at values
  exact values

theorem meanSum_eq (elem : LocationElem ℚ) (hoursBack : ℤ) (tryHard : Bool) :
    meanSum (elem.periodMeans hoursBack tryHard) =
      ((elem.addedMeans hoursBack tryHard).map (max 0)).sum := by
  rw [addedMeans, List.map_map, List.sum_eq_foldl, List.foldl_map, meanSum]
  congr 1
  funext sum hour
  rw [Floats.max_eq_max]
  rfl

end Period

/-! ## The agreement -/

section Agreement

/-- The values that `PRECIP_MIN_MAX_MEAN` sets, and `backTime_`, when it succeeds. -/
def Succeeds (elem : LocationElem ℚ) (hoursBack : ℤ) (tryHard : Bool)
    (minOut maxOut meanOut probOut : ℚ) (backTime : PTime) : Prop :=
  ((PRECIP_MIN_MAX_MEAN hoursBack tryHard).run elem).1 =
    (.values minOut maxOut meanOut probOut, backTime)

/-- When there is a spread, there is a mean too, the one of the spread for the same period. -/
def MeansAgree (elem : LocationElem ℚ) (hoursBack : ℤ) (tryHard : Bool) : Prop :=
  ∀ minOut maxOut meanOut probOut backTime,
    elem.Succeeds hoursBack tryHard minOut maxOut meanOut probOut backTime →
      (elem.meanPrecip hoursBack tryHard).1 ≠ FLT_MAX ∧
        elem.meanPrecip hoursBack tryHard = (meanOut, backTime)

/-- Both loops find the same means, and the means do not have different signs.  When the first
of them is from a provider without a name, the loops may find other means. -/
structure SameMeans (elem : LocationElem ℚ) (hoursBack : ℤ) (tryHard : Bool) : Prop where
  sum_ne : ((elem.addedMeans hoursBack tryHard).map (max 0)).sum ≠ FLT_MAX
  named : elem.FirstNamed hoursBack tryHard →
    (∀ mean ∈ elem.addedMeans hoursBack tryHard, 0 ≤ mean) ∨
      ∀ mean ∈ elem.addedMeans hoursBack tryHard, mean ≤ 0
  unnamed : ¬elem.FirstNamed hoursBack tryHard →
    FLT_MAX ∉ elem.addedMeans hoursBack tryHard ∧
      ((elem.addedMeans hoursBack tryHard).map (max 0)).sum =
        max 0 (elem.collectedMeans hoursBack tryHard).sum

variable {elem : LocationElem ℚ} {hoursBack : ℤ} {tryHard : Bool}
variable {minOut maxOut meanOut probOut : ℚ} {backTime : PTime}

/-- When there is a spread, its mean is that of the hours it is computed from. -/
theorem Succeeds.mean
    (ascending : elem.timeSerie.Pairwise fun earlier later => earlier.1 < later.1)
    (inSeries : elem.itTimeSerie < elem.timeSerie.length) (atLeast : 1 ≤ hoursBack)
    (succeeds : elem.Succeeds hoursBack tryHard minOut maxOut meanOut probOut backTime) :
    elem.hourEntries hoursBack ≠ [] ∧
      (∀ hour ∈ elem.periodHours hoursBack tryHard, hour.Complete) ∧
      meanOut = max 0 (elem.collectedMeans hoursBack tryHard).sum ∧
      backTime = elem.periodStart hoursBack := by
  rw [Succeeds] at succeeds
  cases started : (elem.find (elem.firstTotime hoursBack)).isEmpty with
  | true =>
      rw [run_PRECIP_MIN_MAX_MEAN_of_empty started] at succeeds
      cases succeeds
  | false =>
      have found : elem.find (elem.firstTotime hoursBack) ≠ [] := by
        intro empty
        rw [empty] at started
        cases started
      have notEmpty : elem.hourEntries hoursBack ≠ [] := by
        intro empty
        have member := time_mem_hourEntries ascending inSeries found
          (firstTotime_le_time atLeast)
        rw [empty] at member
        cases member
      rw [run_PRECIP_MIN_MAX_MEAN started] at succeeds
      cases collects : elem.collectedHours hoursBack tryHard with
      | none =>
          rw [collects] at succeeds
          cases succeeds
      | some collected =>
          rw [collects] at succeeds
          have complete : ∀ hour ∈ elem.periodHours hoursBack tryHard, hour.Complete :=
            fun hour inPeriod => complete_of_collectedHours collects inPeriod
          have means : collected.mean = elem.collectedMeans hoursBack tryHard :=
            mean_of_collectedHours collects
          have valid : FLT_MAX ∉ collected.mean := by
            rw [means]
            intro missing
            rcases List.mem_map.mp missing with ⟨hour, inPeriod, value⟩
            exact (complete hour inPeriod).mean value
          have single : hoursBack = 1 → collected.mean.length = 1 := by
            rintro rfl
            rw [means, collectedMeans, List.length_map, periodHours, LookupElem.length_hours]
            exact length_hourEntries_one ascending notEmpty
          have mean := meanOut_of_spreadOf valid single
            (spreadOf_precipSpread (congrArg Prod.fst succeeds))
          rw [means] at mean
          exact ⟨notEmpty, complete, mean, (congrArg Prod.snd succeeds).symm⟩

/-- The value of `PRECIP_MEAN`, when no mean is missing. -/
theorem meanPrecip_of_valid (started : elem.hourEntries hoursBack ≠ [])
    (valid : FLT_MAX ∉ elem.addedMeans hoursBack tryHard) :
    elem.meanPrecip hoursBack tryHard =
      (((elem.addedMeans hoursBack tryHard).map (max 0)).sum, elem.periodStart hoursBack) := by
  rw [meanPrecip_of_complete (started ∘ periodMeans_eq_nil_iff.mp), Floats.max_eq_max,
    meanSum_eq, show (lit 0 : ℚ) = 0 from rfl, max_eq_right (PositiveParts.sum_nonneg _)]
  intro hour inPeriod missing
  exact valid (missing ▸ List.mem_map_of_mem inPeriod)

theorem meanPrecip_of_missing (missing : FLT_MAX ∈ elem.addedMeans hoursBack tryHard) :
    elem.meanPrecip hoursBack tryHard = (FLT_MAX, default) := by
  rcases List.mem_map.mp missing with ⟨hour, inPeriod, value⟩
  exact meanPrecip_of_incomplete (Or.inr ⟨hour, inPeriod, value⟩)

/-- The two functions agree exactly when, for a spread that succeeds, the means they add are
the same, do not have different signs and do not add up to the missing value. -/
theorem meansAgree_iff
    (ascending : elem.timeSerie.Pairwise fun earlier later => earlier.1 < later.1)
    (inSeries : elem.itTimeSerie < elem.timeSerie.length) (atLeast : 1 ≤ hoursBack) :
    elem.MeansAgree hoursBack tryHard ↔
      ((∃ minOut maxOut meanOut probOut backTime,
        elem.Succeeds hoursBack tryHard minOut maxOut meanOut probOut backTime) →
          elem.SameMeans hoursBack tryHard) := by
  constructor
  · intro agree succeeded
    rcases succeeded with ⟨minOut, maxOut, meanOut, probOut, backTime, succeeds⟩
    rcases succeeds.mean ascending inSeries atLeast with ⟨started, _, mean, _⟩
    rcases agree _ _ _ _ _ succeeds with ⟨value, same⟩
    have valid : FLT_MAX ∉ elem.addedMeans hoursBack tryHard := fun missing =>
      value (congrArg Prod.fst (meanPrecip_of_missing missing))
    rw [meanPrecip_of_valid started valid] at value same
    have sums := congrArg Prod.fst same
    rw [mean] at sums
    constructor
    · exact value
    · intro named
      rw [← addedMeans_eq named] at sums
      exact (PositiveParts.sum_eq_max_iff _).mp sums
    · exact fun _ => ⟨valid, sums⟩
  · intro same minOut maxOut meanOut probOut backTime succeeds
    have means := same ⟨minOut, maxOut, meanOut, probOut, backTime, succeeds⟩
    rcases succeeds.mean ascending inSeries atLeast with ⟨started, complete, mean, back⟩
    have sums : FLT_MAX ∉ elem.addedMeans hoursBack tryHard ∧
        ((elem.addedMeans hoursBack tryHard).map (max 0)).sum =
          max 0 (elem.collectedMeans hoursBack tryHard).sum := by
      by_cases named : elem.FirstNamed hoursBack tryHard
      · rw [← addedMeans_eq named]
        refine ⟨?_, (PositiveParts.sum_eq_max_iff _).mpr (means.named named)⟩
        rw [addedMeans_eq named]
        intro missing
        rcases List.mem_map.mp missing with ⟨hour, inPeriod, value⟩
        exact (complete hour inPeriod).mean value
      · exact means.unnamed named
    rw [meanPrecip_of_valid started sums.1, mean, back, sums.2]
    refine ⟨?_, rfl⟩
    rw [← sums.2]
    exact means.sum_ne

/-- Hours of one provider, with the same minimum and maximum. -/
def precipMeans (means : List ℚ) : LocationElem ℚ :=
  cursorAt
    (DecodePData.storeRows
      (means.zipIdx.flatMap fun hourly =>
        let totime := PTime.ticks (PTime.hours (hourly.2 + 1))
        [("PRECIP.MEAN", hourly.1), ("PRECIP.MIN", 0), ("PRECIP.MAX", 3)].map fun param =>
          ⟨param.1, Bytes.str "arome", totime, totime, some param.2⟩))
    [⟨Bytes.str "arome", []⟩] (means.length - 1)

theorem meansAgree_positive : (precipMeans [1, 2]).MeansAgree 2 false :=
  (meansAgree_iff (ascending_cursorAt _ _ _) (by decide +kernel) (by decide)).mpr fun _ =>
    { sum_ne := by decide +kernel
      named := fun _ => Or.inl (by decide +kernel)
      unnamed := fun unnamed => absurd (by rw [FirstNamed]; decide +kernel) unnamed }

/-- A negative mean lowers the mean of the spread only. -/
theorem not_meansAgree_negative : ¬(precipMeans [-1, 1, 1, 1, 1, 1, 1]).MeansAgree 7 false := by
  intro agree
  have succeeds : (precipMeans [-1, 1, 1, 1, 1, 1, 1]).Succeeds 7 false FLT_MAX FLT_MAX 5
      FLT_MAX (.ticks 0) := by
    rw [Succeeds]
    decide +kernel
  have same := congrArg Prod.fst (agree _ _ _ _ _ succeeds).2
  revert same
  decide +kernel

end Agreement

end LocationElem

end Wdb2ts
