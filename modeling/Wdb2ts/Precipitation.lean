import Wdb2ts.LocationElem

/-!
# Precipitation

The precipitation of a period is summed from the values of the hours in it, or computed
from two accumulated values.  The period ends at the time of the cursor.
-/

namespace Wdb2ts

namespace LocationElem

variable {F : Type} [Floats F] [DecidableEq F] [DecidableLT F] [DecidableLE F]

/-- The times of a period, from its first hour to its last. -/
def periodEntries (elem : LocationElem F) (startTime stopTime : PTime) :
    List (PTime × FromTimeSerie F) :=
  (elem.find startTime).takeWhile fun entry => entry.1 ≤ stopTime

/-- The loop of `PRECIP_MEAN`: the sum of the values and their number, or `none` when one
is missing. -/
def PRECIP_MEAN_loop : List (PTime × FromTimeSerie F) → (fromTime : PTime) →
    (isEqual myTryHard : Bool) → (sumPrecip : F) → (count : ℕ) → Access F (Option (F × ℕ))
  | [], _, _, _, sumPrecip, count => pure (some (sumPrecip, count))
  | (totime, serie) :: rest, fromTime, isEqual, myTryHard, sumPrecip, count => do
      let fromTime := if isEqual then totime else fromTime
      let first ← lookupMember .PRECIP_MEAN .forecastProvider serie fromTime myTryHard false
      if isEqual = false ∧ first.1 = FLT_MAX then do
        let second ← lookupMember .PRECIP_MEAN .forecastProvider serie totime myTryHard false
        if second.1 = FLT_MAX then pure none
        else
          let sumPrecip := sumPrecip + Floats.max (lit 0) second.1
          PRECIP_MEAN_loop rest totime true false sumPrecip (count + 1)
      else if first.1 = FLT_MAX then pure none
      else
        let sumPrecip := sumPrecip + Floats.max (lit 0) first.1
        PRECIP_MEAN_loop rest totime isEqual false sumPrecip (count + 1)

/-- `LocationElem::PRECIP_MEAN`.  Returns the value and `backTime_`. -/
def PRECIP_MEAN (hoursBack : ℤ) (tryHard : Bool) : Access F (F × PTime) := do
  let elem ← get
  let stopTime := elem.time
  let fromTime := stopTime.sub (PTime.hours hoursBack)
  let startTime := fromTime.add (PTime.hours 1)
  match ← PRECIP_MEAN_loop (elem.periodEntries startTime stopTime) fromTime false tryHard
      (lit 0) 0 with
  | none => pure (FLT_MAX, default)
  | some (sumPrecip, count) =>
      if count = 0 then pure (FLT_MAX, default)
      else pure (Floats.max (lit 0) sumPrecip, fromTime)

/-- The loop of `PRECIP_1H`. -/
def PRECIP_1H_loop (tryHard : Bool) : List (PTime × FromTimeSerie F) → (fromTime : PTime) →
    (sumPrecip : F) → (count : ℕ) → Access F (Option (F × ℕ))
  | [], _, sumPrecip, count => pure (some (sumPrecip, count))
  | (totime, serie) :: rest, fromTime, sumPrecip, count => do
      let found ← lookupMember .PRECIP_1T .forecastProvider serie fromTime tryHard false
      if found.1 = FLT_MAX then pure none
      else
        let sumPrecip := sumPrecip + Floats.max (lit 0) found.1
        PRECIP_1H_loop tryHard rest totime sumPrecip (count + 1)

/-- `LocationElem::PRECIP_1H`.  Returns the value and `backTime_`. -/
def PRECIP_1H (hoursBack : ℤ) (tryHard : Bool) : Access F (F × PTime) := do
  let elem ← get
  let stopTime := elem.time
  let fromTime := stopTime.sub (PTime.hours hoursBack)
  let startTime := fromTime.add (PTime.hours 1)
  match ← PRECIP_1H_loop tryHard (elem.periodEntries startTime stopTime) fromTime (lit 0) 0 with
  | none => pure (FLT_MAX, default)
  | some (sumPrecip, count) =>
      if count = 0 then pure (FLT_MAX, default)
      else pure (Floats.max (lit 0) sumPrecip, fromTime)

/-- The whole hours from one point in time to another, when neither is special.  `PRECIP_N` calls
`invert_sign` on a negative duration and drops the inverted one that is returned, so that the
hours stay negative. -/
def hoursBetween : PTime → PTime → Option ℤ
  | .ticks totime, .ticks fromTime => some ((totime - fromTime).tdiv (PTime.hours 1))
  | _, _ => none

/-- The entry the backward search of `PRECIP_N` stops at, if it is not the first one. -/
def searchBack (timeSerie : List (PTime × FromTimeSerie F)) (backTime : PTime) :
    ℕ → Option (PTime × FromTimeSerie F)
  | 0 => none
  | position + 1 =>
      match timeSerie[position + 1]? with
      | none => none
      | some entry =>
          if backTime < entry.1 then searchBack timeSerie backTime position else some entry

/-- `LocationElem::PRECIP_N`.  Returns the value and `backTime_`. -/
def PRECIP_N (hoursBack : ℤ) (tryHard : Bool) : Access F (F × PTime) := do
  let elem ← get
  match elem.current? with
  | none => pure (FLT_MAX, default)
  | some (totime, serie) => do
      let backTime := totime.sub (PTime.hours hoursBack)
      let (precipNow, fromTime) ←
        lookupMember .PRECIP_ACCUMULATED .forecastProvider serie default tryHard true
      if precipNow = FLT_MAX ∨ fromTime.isSpecial then pure (FLT_MAX, default)
      else if fromTime = totime then
        match searchBack elem.timeSerie backTime elem.itTimeSerie with
        | none => pure (FLT_MAX, default)
        | some (backTotime, backSerie) =>
            if backTotime ≠ backTime then pure (FLT_MAX, default)
            else do
              let (precipBack, _) ←
                lookupMember .PRECIP_ACCUMULATED .forecastProvider backSerie default tryHard false
              if precipBack = FLT_MAX then pure (FLT_MAX, default)
              else
                let precip := Floats.max (lit 0) precipNow - Floats.max (lit 0) precipBack
                pure (Floats.max (lit 0) precip, backTime)
      else if hoursBetween totime fromTime = some hoursBack then
        pure (Floats.max (lit 0) precipNow, backTime)
      else
        match (elem.find backTime).head? with
        | none => pure (FLT_MAX, default)
        | some (_, backSerie) => do
            let (precipBack, _) ←
              lookupMember .PRECIP_ACCUMULATED .forecastProvider backSerie fromTime tryHard false
            if precipBack = FLT_MAX then pure (FLT_MAX, default)
            else
              let precip := Floats.max (lit 0) precipNow - Floats.max (lit 0) precipBack
              pure (Floats.max (lit 0) precip, backTime)

/-- `LocationElem::PRECIP`.  Returns the value and `backTime_`. -/
def PRECIP (hoursBack : ℤ) (tryHard : Bool) : Access F (F × PTime) := do
  let mean ← PRECIP_MEAN hoursBack tryHard
  let fromAccumulated ← (if mean.1 = FLT_MAX then PRECIP_N hoursBack tryHard else pure mean)
  let found ←
    (if fromAccumulated.1 = FLT_MAX then PRECIP_1H hoursBack tryHard else pure fromAccumulated)
  if found.1 = FLT_MAX then pure found
  else
    let tenths (value : F) : ℤ := Floats.toInt (Floats.floor (value * lit 10))
    let precip :=
      if tenths found.1 = tenths (found.1 + lit 0.05) then found.1 - lit 0.0001 else found.1
    pure (if precip ≤ lit 0.1 then lit 0 else precip, found.2)

/-! ### The spread of the precipitation -/

/-- The values `PRECIP_MIN_MAX_MEAN` collects. -/
structure HourlyPrecip (F : Type) where
  min : List F
  max : List F
  mean : List F
  prob : List F
  maxPrecipMax : F

/-- What `PRECIP_MIN_MAX_MEAN` sets when it succeeds.  `outOfTable` stands for a read
outside the weight table. -/
inductive PrecipSpread (F : Type) where
  | failed
  | outOfTable
  | values (minOut maxOut meanOut probOut : F)

/-- The loop of `PRECIP_MIN_MAX_MEAN`. -/
def PRECIP_MIN_MAX_MEAN_loop : List (PTime × FromTimeSerie F) → (fromTime : PTime) →
    (isEqual myTryHard : Bool) → HourlyPrecip F → Access F (Option (HourlyPrecip F))
  | [], _, _, _, collected => pure (some collected)
  | (totime, serie) :: rest, fromTime, isEqual, myTryHard, collected => do
      let fromTime := if isEqual then totime else fromTime
      let first ← lookupMember .PRECIP_MEAN .forecastProvider serie fromTime myTryHard false
      let retry : Bool := decide (first.1 = FLT_MAX) && !isEqual
      let mean ←
        (if retry then
          lookupMember .PRECIP_MEAN .forecastProvider serie totime myTryHard false
        else pure first)
      if mean.1 = FLT_MAX then pure none
      else do
        let min ← lookupMember .PRECIP_MIN .forecastProvider serie mean.2 false false
        if min.1 = FLT_MAX then pure none
        else do
          let max ← lookupMember .PRECIP_MAX .forecastProvider serie min.2 false false
          if max.1 = FLT_MAX then pure none
          else do
            let prob ← lookupMember .PRECIP_PROBABILITY .forecastProvider serie max.2 false false
            PRECIP_MIN_MAX_MEAN_loop rest totime (isEqual || retry) false
              { min := collected.min ++ [min.1]
                max := collected.max ++ [max.1]
                mean := collected.mean ++ [mean.1]
                prob := collected.prob ++ [prob.1]
                maxPrecipMax :=
                  if collected.maxPrecipMax < max.1 then max.1 else collected.maxPrecipMax }

/-- The weights of the hourly spreads. -/
def spreadWeights : List ℚ := [0.98, 0.60, 0.64, 0.32, 0.39, 1.75]

/-- The weighted sum of the first `count` hourly spreads, largest first. -/
def weightedSpread (count : ℕ) (minMaxDif : List F) : Option F :=
  (List.range count).foldlM
    (fun sum i => do
      let weight ← spreadWeights[i]?
      let dif ← minMaxDif[i]?
      pure (sum + dif * lit weight)) (lit 0)

/-- Put the smaller value first. -/
def orderedSpread (minOut maxOut meanOut probOut : F) : PrecipSpread F :=
  if maxOut < minOut then .values maxOut minOut meanOut probOut
  else .values minOut maxOut meanOut probOut

/-- The computation after the loop of `PRECIP_MIN_MAX_MEAN`. -/
def precipSpread (hoursBack : ℤ) (collected : HourlyPrecip F) : PrecipSpread F :=
  let clamp (value : F) : F := if value ≤ lit 0 then lit 0 else value
  if hoursBack = 1 then
    match collected.min, collected.max, collected.mean, collected.prob with
    | min :: _, max :: _, mean :: _, prob :: _ =>
        orderedSpread (clamp (Floats.max (lit 0) min)) (clamp (Floats.max (lit 0) max))
          (clamp (Floats.max (lit 0) mean)) (Floats.max (lit 0) prob)
    | _, _, _, _ => .outOfTable
  else if hoursBack > 6 then
    .values FLT_MAX FLT_MAX (Floats.max (lit 0) (Floats.sumVector collected.mean)) FLT_MAX
  else
    let difs := List.zipWith
      (fun max min => if max - min < lit 0 then lit 0 else max - min) collected.max collected.min
    match Floats.sortVector difs with
    | none => .failed
    | some minMaxDif =>
        match weightedSpread collected.min.length minMaxDif with
        | none => .outOfTable
        | some sum =>
            let v := sum / lit 2
            let meanOut := Floats.max (lit 0) (Floats.sumVector collected.mean)
            let minOut := Floats.max (lit 0) (meanOut - v)
            let maxOut := Floats.max (lit 0) (meanOut + v)
            let sumMin := Floats.max (lit 0) (Floats.sumVector collected.min)
            let minOut := clamp (Floats.max sumMin minOut)
            let maxOut :=
              if maxOut < collected.maxPrecipMax then collected.maxPrecipMax else maxOut
            let probOut := Floats.max (lit 0) (Floats.maxInVector collected.prob)
            orderedSpread minOut maxOut meanOut probOut

/-- `LocationElem::PRECIP_MIN_MAX_MEAN`.  Returns the spread and `backTime_`. -/
def PRECIP_MIN_MAX_MEAN (hoursBack : ℤ) (tryHard : Bool) :
    Access F (PrecipSpread F × PTime) := do
  let elem ← get
  let stopTime := elem.time
  let fromTime := stopTime.sub (PTime.hours hoursBack)
  let startTime := fromTime.add (PTime.hours 1)
  if (elem.find startTime).isEmpty then pure (.failed, default)
  else do
    match ← PRECIP_MIN_MAX_MEAN_loop (elem.periodEntries startTime stopTime) fromTime false
        tryHard ⟨[], [], [], [], lit 0⟩ with
    | none => pure (.failed, default)
    | some collected => pure (precipSpread hoursBack collected, fromTime)

/-- `LocationElem::PRECIP_DATA`.  Returns the value, `backTime_` and the spread. -/
def PRECIP_DATA (hoursBack : ℤ) (tryHard : Bool) : Access F (F × PTime × PrecipSpread F) := do
  let spread ← PRECIP_MIN_MAX_MEAN hoursBack tryHard
  match spread.1 with
  | .values _ _ meanOut _ => pure (meanOut, spread.2, spread.1)
  | _ => do
      let precip ← PRECIP hoursBack tryHard
      pure (precip.1, precip.2, spread.1)

end LocationElem

end Wdb2ts
