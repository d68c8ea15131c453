import Wdb2ts.MeanPeriod

/-!
# The bounds of the precipitation

The minimum and the maximum of a period are estimated around its mean, moved to what the
minima and the maxima of the hours say, and put in order.  The values are rational numbers.
-/

namespace Wdb2ts

namespace LocationElem

variable {hoursBack : ℤ} {minOut maxOut meanOut probOut : ℚ} {collected : HourlyPrecip ℚ}

/-! ## The computation -/

/-- How the bounds of a period come from the values of its hours. -/
inductive SpreadOf (hoursBack : ℤ) (collected : HourlyPrecip ℚ) : PrecipSpread ℚ → Prop where
  /-- One hour has its own values. -/
  | oneHour (one : hoursBack = 1) {min max mean prob : ℚ}
      (firstMin : collected.min.head? = some min) (firstMax : collected.max.head? = some max)
      (firstMean : collected.mean.head? = some mean)
      (firstProb : collected.prob.head? = some prob) :
      SpreadOf hoursBack collected
        (orderedSpread (0 ⊔ min) (0 ⊔ max) (0 ⊔ mean) (0 ⊔ prob))
  /-- A long period has a mean only. -/
  | long (more : hoursBack > 6) :
      SpreadOf hoursBack collected
        (.values FLT_MAX FLT_MAX (0 ⊔ Floats.sumVector collected.mean) FLT_MAX)
  /-- Other periods have the weighted spread of their hours around the mean. -/
  | around (v : ℚ) :
      SpreadOf hoursBack collected
        (orderedSpread
          ((0 ⊔ Floats.sumVector collected.min) ⊔
            (0 ⊔ ((0 ⊔ Floats.sumVector collected.mean) - v)))
          ((0 ⊔ ((0 ⊔ Floats.sumVector collected.mean) + v)) ⊔ collected.maxPrecipMax)
          (0 ⊔ Floats.sumVector collected.mean) (0 ⊔ Floats.maxInVector collected.prob))

theorem clamp_of_nonneg {value : ℚ} (nonneg : 0 ≤ value) :
    (if value ≤ 0 then 0 else value) = value := by
  split
  next notPositive => exact le_antisymm nonneg notPositive
  next => rfl

theorem raised_eq_max (maxOut maxPrecipMax : ℚ) :
    (if maxOut < maxPrecipMax then maxPrecipMax else maxOut) = maxOut ⊔ maxPrecipMax := by
  rw [← Floats.max_eq_max]
  rfl

/-- The bounds that are computed come from the values of the hours. -/
theorem spreadOf_precipSpread
    (values : precipSpread hoursBack collected = .values minOut maxOut meanOut probOut) :
    SpreadOf hoursBack collected (.values minOut maxOut meanOut probOut) := by
  have zero : (lit 0 : ℚ) = 0 := rfl
  by_cases one : hoursBack = 1
  · rw [precipSpread, if_pos one] at values
    split at values
    next min _ max _ mean _ prob _ mins maxs means probs =>
      simp only [Floats.max_eq_max, zero, clamp_of_nonneg (le_max_left ..)] at values
      rw [← values]
      apply SpreadOf.oneHour one
      · rw [mins, List.head?_cons]
      · rw [maxs, List.head?_cons]
      · rw [means, List.head?_cons]
      · rw [probs, List.head?_cons]
    next => cases values
  · rw [precipSpread, if_neg one] at values
    by_cases more : hoursBack > 6
    · rw [if_pos more] at values
      rw [← values, Floats.max_eq_max]
      exact .long more
    · rw [if_neg more] at values
      cases sorts : Floats.sortVector (List.zipWith
          (fun max min : ℚ => if max - min < lit 0 then lit 0 else max - min)
          collected.max collected.min) with
      | none => simp [sorts] at values
      | some minMaxDif =>
          simp only [sorts] at values
          cases weighted : weightedSpread collected.min.length minMaxDif with
          | none => simp [weighted] at values
          | some sum =>
              have nonneg : 0 ≤ (0 ⊔ Floats.sumVector collected.min) ⊔
                  (0 ⊔ ((0 ⊔ Floats.sumVector collected.mean) - sum / lit 2)) :=
                (le_max_left ..).trans (le_max_left ..)
              simp only [weighted, Floats.max_eq_max, zero, clamp_of_nonneg nonneg,
                raised_eq_max] at values
              rw [← values]
              exact .around (sum / lit 2)

/-! ## The values of the hours -/

theorem le_maxPrecipMax_of_add {collected after : HourlyPrecip ℚ} {hour : Hour ℚ}
    (added : collected.add hour = some after) :
    collected.maxPrecipMax ≤ after.maxPrecipMax ∧ hour.max.value ≤ after.maxPrecipMax := by
  rw [collected.add_of_complete (HourlyPrecip.complete_of_add added)] at added
  rw [← Option.some.inj added, raised_eq_max]
  exact ⟨le_max_left .., le_max_right ..⟩

section Hours

variable {elem : LocationElem ℚ} {tryHard : Bool}

/-- The largest maximum is not less than that of any hour. -/
theorem le_maxPrecipMax (collects : elem.collectedHours hoursBack tryHard = some collected)
    {hour : Hour ℚ} (inPeriod : hour ∈ elem.periodHours hoursBack tryHard) :
    hour.max.value ≤ collected.maxPrecipMax := by
  rw [collectedHours_eq] at collects
  have each : ∀ (before : HourlyPrecip ℚ) (hour : Hour ℚ) (after : HourlyPrecip ℚ),
      before.add hour = some after →
        before.maxPrecipMax ≤ after.maxPrecipMax ∧ hour.max.value ≤ after.maxPrecipMax :=
    fun _ _ _ => le_maxPrecipMax_of_add
  exact (Runs.le_of_foldlM HourlyPrecip.maxPrecipMax each collects).2 hour inPeriod

theorem complete_of_collectedHours
    (collects : elem.collectedHours hoursBack tryHard = some collected) {hour : Hour ℚ}
    (inPeriod : hour ∈ elem.periodHours hoursBack tryHard) : hour.Complete := by
  have complete : (elem.collectedHours hoursBack tryHard).isSome := by
    rw [collects]
    rfl
  exact isSome_collectedHours_iff.mp complete hour inPeriod

/-- The minima that are collected are added up. -/
theorem sumVector_min (collects : elem.collectedHours hoursBack tryHard = some collected) :
    Floats.sumVector collected.min =
      ((elem.periodHours hoursBack tryHard).map fun hour => hour.min.value).sum := by
  have valid : FLT_MAX ∉ collected.min := by
    rw [min_of_collectedHours collects]
    intro missing
    rcases List.mem_map.mp missing with ⟨hour, inPeriod, value⟩
    exact (complete_of_collectedHours collects inPeriod).min value
  rw [Floats.sumVector_eq_sum valid, min_of_collectedHours collects]

/-! ## The bounds -/

/-- The bounds are not negative and in order, and for more than one hour the maximum is not less
than what the hours say. -/
structure Brackets (elem : LocationElem ℚ) (hoursBack : ℤ) (tryHard : Bool)
    (minOut maxOut meanOut probOut : ℚ) : Prop where
  min_nonneg : 0 ≤ minOut
  min_le_max : minOut ≤ maxOut
  mean_nonneg : 0 ≤ meanOut
  prob_nonneg : 0 ≤ probOut
  max_le : 2 ≤ hoursBack → ∀ hour ∈ elem.periodHours hoursBack tryHard,
    0 < hour.max.value → hour.max.value ≤ maxOut
  sumMin_le : 2 ≤ hoursBack →
    ((elem.periodHours hoursBack tryHard).map fun hour => hour.min.value).sum ≤ maxOut

theorem values_of_orderedSpread {min max mean prob : ℚ}
    (values : orderedSpread min max mean prob = .values minOut maxOut meanOut probOut) :
    minOut = min ⊓ max ∧ maxOut = min ⊔ max ∧ meanOut = mean ∧ probOut = prob := by
  rw [orderedSpread] at values
  split at values
  next swapped =>
    cases values
    exact ⟨(inf_eq_right.mpr swapped.le).symm, (sup_eq_left.mpr swapped.le).symm, rfl, rfl⟩
  next ordered =>
    have inOrder := not_lt.mp ordered
    cases values
    exact ⟨(inf_eq_left.mpr inOrder).symm, (sup_eq_right.mpr inOrder).symm, rfl, rfl⟩

/-- The bounds that are computed from hours that are collected. -/
theorem brackets_of_spreadOf (atMost : hoursBack ≤ 6)
    (collects : elem.collectedHours hoursBack tryHard = some collected)
    (values : SpreadOf hoursBack collected (.values minOut maxOut meanOut probOut)) :
    elem.Brackets hoursBack tryHard minOut maxOut meanOut probOut := by
  generalize spread : PrecipSpread.values minOut maxOut meanOut probOut = computed at values
  cases values with
  | oneHour one =>
      rcases values_of_orderedSpread spread.symm with ⟨rfl, rfl, rfl, rfl⟩
      exact
        { min_nonneg := le_inf (le_max_left ..) (le_max_left ..)
          min_le_max := inf_le_sup
          mean_nonneg := le_max_left ..
          prob_nonneg := le_max_left ..
          max_le := fun atLeast => by omega
          sumMin_le := fun atLeast => by omega }
  | long more => exact absurd atMost (not_le.mpr more)
  | around v =>
      rcases values_of_orderedSpread spread.symm with ⟨rfl, rfl, rfl, rfl⟩
      constructor
      · exact le_inf ((le_max_left ..).trans (le_max_left ..))
          ((le_max_left ..).trans (le_max_left ..))
      · exact inf_le_sup
      · exact le_max_left ..
      · exact le_max_left ..
      · intro _ hour inPeriod _
        exact ((le_maxPrecipMax collects inPeriod).trans (le_max_right ..)).trans
          (le_max_right ..)
      · intro _
        rw [← sumVector_min collects]
        exact ((le_max_right ..).trans (le_max_left ..)).trans (le_max_left ..)

/-- The bounds of a period of at most six hours bracket what falls in it. -/
theorem precip_brackets (elem : LocationElem ℚ) (tryHard : Bool) (atMost : hoursBack ≤ 6)
    (values : ((PRECIP_MIN_MAX_MEAN hoursBack tryHard).run elem).1.1 =
      .values minOut maxOut meanOut probOut) :
    elem.Brackets hoursBack tryHard minOut maxOut meanOut probOut := by
  cases started : (elem.find (elem.firstTotime hoursBack)).isEmpty with
  | true =>
      rw [run_PRECIP_MIN_MAX_MEAN_of_empty started] at values
      cases values
  | false =>
      rw [run_PRECIP_MIN_MAX_MEAN started] at values
      cases collects : elem.collectedHours hoursBack tryHard with
      | none =>
          rw [collects] at values
          cases values
      | some collected =>
          rw [collects] at values
          exact brackets_of_spreadOf atMost collects (spreadOf_precipSpread values)

/-- Two hours with a spread. -/
def twoHours : LocationElem ℚ :=
  cursorAt
    (DecodePData.storeRows
      ([1, 2].flatMap fun hour =>
        let totime := PTime.ticks (PTime.hours hour)
        [("PRECIP.MEAN", 1), ("PRECIP.MIN", 0), ("PRECIP.MAX", 3), ("PRECIP.PROBABILITY", 50)].map
          fun param => ⟨param.1, Bytes.str "arome", totime, totime, some param.2⟩))
    [⟨Bytes.str "arome", []⟩] 1

deriving instance DecidableEq for HourlyPrecip, PrecipSpread

theorem spread_twoHours :
    ((PRECIP_MIN_MAX_MEAN 2 false).run twoHours).1.1 = .values 0 4.37 2 50 := by
  have started : (twoHours.find (twoHours.firstTotime 2)).isEmpty = false := by decide +kernel
  have collects : twoHours.collectedHours 2 false =
      some ⟨[0, 0], [3, 3], [1, 1], [50, 50], 3⟩ := by
    decide +kernel
  have sorted : Floats.sortVector [(3 : ℚ), 3] = some [3, 3] := by
    have none : ([3, 3] : List ℚ).any (fun value => decide (value = FLT_MAX)) = false := by
      decide +kernel
    rw [Floats.sortVector, none, List.mergeSort_of_pairwise (by simp)]
    rfl
  have difs : List.zipWith (fun max min : ℚ => if max - min < lit 0 then lit 0 else max - min)
      [3, 3] [0, 0] = [3, 3] := by
    decide +kernel
  have weighted : weightedSpread 2 [(3 : ℚ), 3] = some 4.74 := by decide +kernel
  have mean : Floats.sumVector [(1 : ℚ), 1] = 2 := by decide +kernel
  have min : Floats.sumVector [(0 : ℚ), 0] = 0 := by decide +kernel
  have prob : Floats.maxInVector [(50 : ℚ), 50] = 50 := by decide +kernel
  rw [run_PRECIP_MIN_MAX_MEAN started, collects]
  simp only [Option.elim_some, precipSpread, difs, sorted, weighted, mean, min, prob,
    List.length_cons, List.length_nil]
  norm_num [Floats.max_eq_max, orderedSpread, lit]

theorem precip_brackets_twoHours : twoHours.Brackets 2 false 0 4.37 2 50 :=
  precip_brackets twoHours false (by decide) spread_twoHours

end Hours

end LocationElem

end Wdb2ts
