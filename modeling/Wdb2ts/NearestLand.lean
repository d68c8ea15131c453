import Wdb2ts.LocationPointMatrix

/-!
# Nearest land

The value of a location near the coast is replaced by an average over the grid points that
the land mask classifies as land.  The land points are found in one matrix and read in
others.
-/

namespace Wdb2ts

variable {F : Type}

/-! ## Land points -/

/-- `LocationPointMatrixTimeserie::XY`. -/
structure XY where
  x : ℕ
  y : ℕ
  deriving DecidableEq, Repr

namespace LocationPointMatrixTimeserie

section LandPoints

variable [FloatLimits F] [DecidableEq F] [LT F] [DecidableLT F]

/-- Is a value set and greater than the limit? -/
def isGreater (checkValue value : F) : Bool := decide (value ≠ FLT_MIN) && decide (checkValue < value)

/-- The loops of `valuesGreaterThan`.  `l` and `r` bound the rows and columns of the block, and
`x` and `y` count them from the corner of the block. -/
def greaterPoints (values : LocationPointMatrix F) (l r : ℕ) (checkValue : F) : List XY :=
  (List.range (r - l)).flatMap fun y =>
    (List.range (r - l)).filterMap fun x =>
      if isGreater checkValue (values.cell (l + y) (l + x)).value then some ⟨x, y⟩ else none

/-- `LocationPointMatrixTimeserie::valuesGreaterThan`: the points, whose number it returns. -/
def valuesGreaterThan (values : LocationPointMatrix F) (suroundLevel : ℕ) (checkValue : F) :
    Except String (List XY) :=
  let nX := values.shape.1
  let nY := values.shape.2
  let N := 2 * suroundLevel
  let size := toString nX ++ "x" ++ toString nY ++ ". Expecting at least " ++ toString N ++ "x" ++
    toString N
  if nX % 2 ≠ 0 ∨ nX ≠ nY then
    .error ("LocationPointMatrixTimeserie::valuesGreaterThan: The matrix must be a multiple of 2. " ++
      "The size is " ++ size)
  else if nX < N then
    .error ("LocationPointMatrixTimeserie::valuesGreaterThan: The size is " ++ size)
  else
    let level := nX / 2
    let l := level - suroundLevel
    .ok (greaterPoints values l (nX - l) checkValue)

end LandPoints

end LocationPointMatrixTimeserie

/-! ## Setting the data -/

namespace SetPDataHelper

/-- The parameters that `SetPDataHelper::init` knows. -/
def params : List (String × PData.Member) :=
  [("WIND.U10M", .windU10m), ("WIND.V10M", .windV10m), ("WIND.GUST", .windGust),
   ("areaMaxWindSpeed", .areaMaxWindSpeed), ("globalRadiation", .globalRadiation), ("PP", .PP),
   ("MSLP", .PR), ("T.2M", .T2M), ("T.2M.LAND", .T2M_LAND),
   ("T.2M.NO_ADIABATIC_HIGHT_CORRECTION", .T2M_NO_ADIABATIC_HIGHT_CORRECTION),
   ("maxTemperature.6H", .maxTemperature_6h), ("minTemperature.6H", .minTemperature_6h),
   ("UU", .UU), ("PRECIP.PROBABILITY", .PRECIP_PROBABILITY), ("PRECIP.MIN", .PRECIP_MIN),
   ("PRECIP.MAX", .PRECIP_MAX), ("PRECIP.MEAN", .PRECIP_MEAN),
   ("PRECIP.ACCUMULATED", .PRECIP_ACCUMULATED), ("PRECIP", .PRECIP), ("PRECIP.1H", .PRECIP_1T),
   ("PRECIP.3H", .PRECIP_3T), ("PRECIP.6H", .PRECIP_6T), ("PRECIP.12H", .PRECIP_12T),
   ("PRECIP.24H", .PRECIP_24T), ("seaTotalSwellWaveHeight", .significantSwellWaveHeight),
   ("seaMeanSwellWavePeriode", .meanSwellWavePeriode),
   ("seaMeanSwellWaveDirection", .meanSwellWaveDirection),
   ("seaPeakSwellWavePeriode", .peakSwellWavePeriode),
   ("seaPeakSwellWaveDirection", .peakSwellWaveDirection),
   ("seaCurrentVelocityV", .seaCurrentVelocityV),
   ("seaCurrentVelocityU", .seaCurrentVelocityU), ("seaSalinity", .seaSalinity),
   ("seaSurfaceHeight", .seaSurfaceHeight), ("seaTemperature", .seaTemperature),
   ("meanTotalWavePeriode", .meanTotalWavePeriode),
   ("meanTotalWaveDirection", .meanTotalWaveDirection),
   ("maximumTotalWaveHeight", .maximumTotalWaveHeight),
   ("significantTotalWaveHeight", .significantTotalWaveHeight),
   ("seaBottomTopography", .seaBottomTopography), ("seaIcePresence", .seaIcePresence),
   ("iceingIndex", .iceingIndex), ("MODEL.TOPOGRAPHY", .modeltopography),
   ("TOPOGRAPHY", .topography), ("TOTAL.CLOUD", .NN), ("visibility", .visibility),
   ("FOG", .fog), ("LOW.CLOUD", .lowCloud), ("MEDIUM.CLOUD", .mediumCloud),
   ("HIGH.CLOUD", .highCloud), ("RH.2M", .RH2M), ("SYMBOL", .symbol),
   ("SYMBOL.PROBABILITY", .symbol_PROBABILITY), ("THUNDER.PROBABILITY", .thunderProability),
   ("FOG.PROBABILITY", .fogProability), ("WIND.PROBABILITY", .WIND_PROBABILITY),
   ("T.2M.PROBABILITY.1", .T2M_PROBABILITY_1), ("T.2M.PROBABILITY.2", .T2M_PROBABILITY_2),
   ("T.2M.PROBABILITY.3", .T2M_PROBABILITY_3), ("T.2M.PROBABILITY.4", .T2M_PROBABILITY_4),
   ("T.2M.PERCENTILE.10", .T2M_PERCENTILE_10), ("T.2M.PERCENTILE.25", .T2M_PERCENTILE_25),
   ("T.2M.PERCENTILE.50", .T2M_PERCENTILE_50), ("T.2M.PERCENTILE.75", .T2M_PERCENTILE_75),
   ("T.2M.PERCENTILE.90", .T2M_PERCENTILE_90), ("PRECIP.PERCENTILE.10", .PRECIP_PERCENTILE_10),
   ("PRECIP.PERCENTILE.25", .PRECIP_PERCENTILE_25),
   ("PRECIP.PERCENTILE.50", .PRECIP_PERCENTILE_50),
   ("PRECIP.PERCENTILE.75", .PRECIP_PERCENTILE_75),
   ("PRECIP.PERCENTILE.90", .PRECIP_PERCENTILE_90),
   ("PRECIP.PROBABILITY.0,1MM", .PRECIP_PROBABILITY_0_1MM),
   ("PRECIP.PROBABILITY.0,2MM", .PRECIP_PROBABILITY_0_2MM),
   ("PRECIP.PROBABILITY.0,5MM", .PRECIP_PROBABILITY_0_5MM),
   ("PRECIP.PROBABILITY.1,0MM", .PRECIP_PROBABILITY_1_0MM),
   ("PRECIP.PROBABILITY.2,0MM", .PRECIP_PROBABILITY_2_0MM),
   ("PRECIP.PROBABILITY.5,0MM", .PRECIP_PROBABILITY_5_0MM), ("LANDCOVER", .LANDCOVER)]

/-- `SetPDataHelper::init`. -/
def init (param : String) : Option PData.Member := params.lookup param

end SetPDataHelper

namespace NearestLand

variable [Floats F] [DecidableEq F]

/-- `NearestLand::linearInterpolateValue`.  Times of the day are in microseconds. -/
def linearInterpolateValue (clock c1 c2 : ℤ) (t1 t2 : F) : F :=
  let a : F := lit ((clock - c1) / PTime.hours 1) / lit ((c2 - c1) / PTime.hours 1)
  t1 + (t2 - t1) * a

/-- `NearestLand::correctValue` at a time of the day. -/
def correctValue (clock : ℤ) (t1 t2 : F) : F :=
  if PTime.hours 12 ≤ clock ∧ clock ≤ PTime.hours 18 then t1
  else if PTime.hours 0 ≤ clock ∧ clock ≤ PTime.hours 6 then t2
  else if PTime.hours 18 < clock ∧ clock < PTime.hours 24 then
    linearInterpolateValue clock (PTime.hours 18) (PTime.hours 24) t1 t2
  else linearInterpolateValue clock (PTime.hours 6) (PTime.hours 12) t2 t1

/-- A value with its correction for the height of the grid point. -/
def corrected (altitude : ℤ) (val topo : F) : F :=
  if altitude = INT_MIN then val else val - (lit altitude - topo) * lit 0.006

/-- The body of the loop over the points: the number of values and their sum. -/
def addPoint (altitude : ℤ) (modeltopo values : LocationPointMatrix F) (state : ℕ × F) (itxy : XY) :
    ℕ × F :=
  let val := (values.cell itxy.x itxy.y).value
  if val ≠ FLT_MIN then
    (state.1 + 1,
      state.2 + corrected altitude val (modeltopo.cell itxy.x itxy.y).value)
  else state

/-- The loop over the points. -/
def sumPoints (altitude : ℤ) (modeltopo values : LocationPointMatrix F) (xyPoints : List XY) :
    ℕ × F :=
  xyPoints.foldl (addPoint altitude modeltopo values) (0, lit 0)

/-- The name of the parameter that is set. -/
def setParamname (paramname : String) : String :=
  if paramname = "T.2M" ∨ paramname = "T.2M.LAND" then "T.2M.NO_ADIABATIC_HIGHT_CORRECTION"
  else paramname

/-- The body of the loop over the times.  `clock` is the time of the day when the value of a
time is corrected. -/
def setTime (clock : PTime → ℤ) (altitude : ℤ) (setval getval : PData.Member) (provider : Bytes)
    (modeltopo : LocationPointMatrix F) (xyPoints : List XY) (serie : TimeSerie F)
    (entry : PTime × PTime × LocationPointMatrix F) : TimeSerie F :=
  let sum := sumPoints altitude modeltopo entry.2.2 xyPoints
  if sum.1 = 0 then serie
  else
    let avg := sum.2 / lit sum.1
    let key : CellKey := (entry.1, entry.2.1, provider)
    match serie.cell? key with
    | none => serie
    | some data =>
        let newValue := correctValue (clock entry.1) avg (data.get getval)
        serie.updateCell key fun data => data.set setval newValue

/-- `NearestLand::setData`, for the data of the first location. -/
def setData (clock : PTime → ℤ) (altitude : ℤ) (paramname : String) (provider : Bytes)
    (modeltopo : LocationPointMatrix F) (xyPoints : List XY)
    (data : LocationPointMatrixTimeserie F) (locations : LocationPointData F) :
    LocationPointData F :=
  match SetPDataHelper.init (setParamname paramname), SetPDataHelper.init paramname,
      locations.entries.head? with
  | some setval, some getval, some (point, serie) =>
      locations.insert point
        (data.entries.foldl (setTime clock altitude setval getval provider modeltopo xyPoints) serie)
  | _, _, _ => locations

/-! ## The level -/

section Level

variable [DecidableLT F]

/-- The part of `processNearestLandPoint` that looks for land: the innermost level with land
points.  A location in the middle of four of them is on land itself. -/
def landPoints (landMask : LocationPointMatrix F) : Except String (Option (ℕ × List XY)) := do
  let first ← LocationPointMatrixTimeserie.valuesGreaterThan landMask 1 (lit 0.9)
  if 4 ≤ first.length then pure none
  else if 0 < first.length then pure (some (1, first))
  else do
    let second ← LocationPointMatrixTimeserie.valuesGreaterThan landMask 2 (lit 0.9)
    if 0 < second.length then pure (some (2, second))
    else do
      let third ← LocationPointMatrixTimeserie.valuesGreaterThan landMask 3 (lit 0.9)
      if 0 < third.length then pure (some (3, third)) else pure none

/-- `setData` gets the points of the level it gets. -/
theorem valuesGreaterThan_of_landPoints {landMask : LocationPointMatrix F} {suroundLevel : ℕ}
    {xyPoints : List XY} (found : landPoints landMask = .ok (some (suroundLevel, xyPoints))) :
    (1 ≤ suroundLevel ∧ suroundLevel ≤ 3) ∧
      LocationPointMatrixTimeserie.valuesGreaterThan landMask suroundLevel (lit 0.9) =
        .ok xyPoints := by
  simp only [landPoints] at found
  cases first : LocationPointMatrixTimeserie.valuesGreaterThan landMask 1 (lit 0.9) with
  | error text =>
      rw [first] at found
      cases found
  | ok firstPoints =>
      rw [first] at found
      simp only [bind, Except.bind, pure, Except.pure] at found
      split at found
      · cases found
      · split at found
        · cases found
          exact ⟨⟨le_rfl, by decide⟩, first⟩
        · cases second : LocationPointMatrixTimeserie.valuesGreaterThan landMask 2 (lit 0.9) with
          | error text =>
              rw [second] at found
              cases found
          | ok secondPoints =>
              rw [second] at found
              simp only at found
              split at found
              · cases found
                exact ⟨⟨by decide, by decide⟩, second⟩
              · cases third : LocationPointMatrixTimeserie.valuesGreaterThan landMask 3
                  (lit 0.9) with
                | error text =>
                    rw [third] at found
                    cases found
                | ok thirdPoints =>
                    rw [third] at found
                    simp only at found
                    split at found
                    · cases found
                      exact ⟨⟨by decide, le_rfl⟩, third⟩
                    · cases found

end Level

end NearestLand

end Wdb2ts
