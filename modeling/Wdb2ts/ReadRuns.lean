import Wdb2ts.ReadFrame

/-!
# Runs of reads

A reader initialises a `LocationData`, walks through the times and calls the accessors of
the element.  At safe keys none of this changes the entries of the time series.
-/

namespace Wdb2ts

namespace LocationElem

open Frame

variable {F : Type}

/-- The value accessors of a `LocationElem`, with their arguments. -/
inductive Accessor (F : Type) where
  | windV10m (tryHard : Bool)
  | windU10m (tryHard : Bool)
  | windGust (tryHard : Bool)
  | areaMaxWindSpeed (tryHard : Bool)
  | globalRadiation (tryHard : Bool)
  | PP (tryHard : Bool)
  | PR (tryHard : Bool)
  | TA (tryHard : Bool)
  | T2M (tryHard : Bool)
  | T2M_LAND (tryHard : Bool)
  | T2M_NO_ADIABATIC_HIGHT_CORRECTION (tryHard : Bool)
  | temperatureCorrected (tryHard : Bool)
  | UU (tryHard : Bool)
  | precipIntensity (tryHard : Bool)
  | NN (tryHard : Bool)
  | visibility (tryHard : Bool)
  | fog (tryHard : Bool)
  | highCloud (tryHard : Bool)
  | mediumCloud (tryHard : Bool)
  | lowCloud (tryHard : Bool)
  | RH2MFromModel (tryHard : Bool)
  | dewPointTemperatureFromModel (tryHard : Bool)
  | thunderProbability (tryHard : Bool)
  | fogProbability (tryHard : Bool)
  | WIND_PROBABILITY (tryHard : Bool)
  | T2M_PROBABILITY_1 (tryHard : Bool)
  | T2M_PROBABILITY_2 (tryHard : Bool)
  | T2M_PROBABILITY_3 (tryHard : Bool)
  | T2M_PROBABILITY_4 (tryHard : Bool)
  | T2M_PERCENTILE_10 (tryHard : Bool)
  | T2M_PERCENTILE_25 (tryHard : Bool)
  | T2M_PERCENTILE_50 (tryHard : Bool)
  | T2M_PERCENTILE_75 (tryHard : Bool)
  | T2M_PERCENTILE_90 (tryHard : Bool)
  | significantSwellWaveHeight (tryHard : Bool)
  | meanSwellWavePeriode (tryHard : Bool)
  | meanSwellWaveDirection (tryHard : Bool)
  | peakSwellWavePeriode (tryHard : Bool)
  | peakSwellWaveDirection (tryHard : Bool)
  | meanTotalWavePeriode (tryHard : Bool)
  | maximumTotalWaveHeight (tryHard : Bool)
  | seaCurrentVelocityU (tryHard : Bool)
  | seaCurrentVelocityV (tryHard : Bool)
  | seaSalinity (tryHard : Bool)
  | seaSurfaceHeight (tryHard : Bool)
  | seaTemperature (tryHard : Bool)
  | meanTotalWaveDirection (tryHard : Bool)
  | significantTotalWaveHeight (tryHard : Bool)
  | wetBulbTemperature (tryHard : Bool)
  | humidity (tryHard : Bool)
  | maxTemperature (hours : ℤ) (tryHard : Bool)
  | minTemperature (hours : ℤ) (tryHard : Bool)
  | dewPointTemperature (usedTemperature : F) (tryHard : Bool)
  | iceingIndex (tryHard : Bool) (provider : Bytes)
  | PRECIP_MIN_MAX_MEAN (hoursBack : ℤ) (tryHard : Bool)
  | PRECIP_MEAN (hoursBack : ℤ) (tryHard : Bool)
  | PRECIP_1H (hoursBack : ℤ) (tryHard : Bool)
  | PRECIP_DATA (hoursBack : ℤ) (tryHard : Bool)
  | PRECIP_N (hoursBack : ℤ) (tryHard : Bool)
  | PRECIP (hoursBack : ℤ) (tryHard : Bool)
  | PRECIP_PERCENTILE_10 (hoursBack : ℤ) (tryHard : Bool)
  | PRECIP_PERCENTILE_25 (hoursBack : ℤ) (tryHard : Bool)
  | PRECIP_PERCENTILE_50 (hoursBack : ℤ) (tryHard : Bool)
  | PRECIP_PERCENTILE_75 (hoursBack : ℤ) (tryHard : Bool)
  | PRECIP_PERCENTILE_90 (hoursBack : ℤ) (tryHard : Bool)
  | PRECIP_PROBABILITY_0_1_MM (hoursBack : ℤ) (tryHard : Bool)
  | PRECIP_PROBABILITY_0_2_MM (hoursBack : ℤ) (tryHard : Bool)
  | PRECIP_PROBABILITY_0_5_MM (hoursBack : ℤ) (tryHard : Bool)
  | PRECIP_PROBABILITY_1_0_MM (hoursBack : ℤ) (tryHard : Bool)
  | PRECIP_PROBABILITY_2_0_MM (hoursBack : ℤ) (tryHard : Bool)
  | PRECIP_PROBABILITY_5_0_MM (hoursBack : ℤ) (tryHard : Bool)
  | symbol (tryHard : Bool)
  | symbol_PROBABILITY (fromTime : PTime) (tryHard : Bool)
  | seaBottomTopography (usedProvider useProvider : Bytes)
  | seaIcePresence (usedProvider useProvider : Bytes)
  | modeltopography (provider : Bytes)
  | topography (provider : Bytes)
  | landcover (provider : Bytes)
  | computeTempCorrection (provider : Bytes) (relTopo modelTopo : ℤ)

section Run

variable [Floats F] [DecidableEq F] [DecidableLT F] [DecidableLE F]

/-- A program without its result. -/
def void {α : Type} (program : Access F α) : Access F Unit := (fun _ => ()) <$> program

/-- The program of an accessor. -/
def Accessor.run (math : MathFunctions F) : Accessor F → Access F Unit
  | .windV10m tryHard => void (LocationElem.windV10m tryHard)
  | .windU10m tryHard => void (LocationElem.windU10m tryHard)
  | .windGust tryHard => void (LocationElem.windGust tryHard)
  | .areaMaxWindSpeed tryHard => void (LocationElem.areaMaxWindSpeed tryHard)
  | .globalRadiation tryHard => void (LocationElem.globalRadiation tryHard)
  | .PP tryHard => void (LocationElem.PP tryHard)
  | .PR tryHard => void (LocationElem.PR tryHard)
  | .TA tryHard => void (LocationElem.TA tryHard)
  | .T2M tryHard => void (LocationElem.T2M tryHard)
  | .T2M_LAND tryHard => void (LocationElem.T2M_LAND tryHard)
  | .T2M_NO_ADIABATIC_HIGHT_CORRECTION tryHard =>
      void (LocationElem.T2M_NO_ADIABATIC_HIGHT_CORRECTION tryHard)
  | .temperatureCorrected tryHard => void (LocationElem.temperatureCorrected tryHard)
  | .UU tryHard => void (LocationElem.UU tryHard)
  | .precipIntensity tryHard => void (LocationElem.precipIntensity tryHard)
  | .NN tryHard => void (LocationElem.NN tryHard)
  | .visibility tryHard => void (LocationElem.visibility tryHard)
  | .fog tryHard => void (LocationElem.fog tryHard)
  | .highCloud tryHard => void (LocationElem.highCloud tryHard)
  | .mediumCloud tryHard => void (LocationElem.mediumCloud tryHard)
  | .lowCloud tryHard => void (LocationElem.lowCloud tryHard)
  | .RH2MFromModel tryHard => void (LocationElem.RH2MFromModel tryHard)
  | .dewPointTemperatureFromModel tryHard =>
      void (LocationElem.dewPointTemperatureFromModel tryHard)
  | .thunderProbability tryHard => void (LocationElem.thunderProbability tryHard)
  | .fogProbability tryHard => void (LocationElem.fogProbability tryHard)
  | .WIND_PROBABILITY tryHard => void (LocationElem.WIND_PROBABILITY tryHard)
  | .T2M_PROBABILITY_1 tryHard => void (LocationElem.T2M_PROBABILITY_1 tryHard)
  | .T2M_PROBABILITY_2 tryHard => void (LocationElem.T2M_PROBABILITY_2 tryHard)
  | .T2M_PROBABILITY_3 tryHard => void (LocationElem.T2M_PROBABILITY_3 tryHard)
  | .T2M_PROBABILITY_4 tryHard => void (LocationElem.T2M_PROBABILITY_4 tryHard)
  | .T2M_PERCENTILE_10 tryHard => void (LocationElem.T2M_PERCENTILE_10 tryHard)
  | .T2M_PERCENTILE_25 tryHard => void (LocationElem.T2M_PERCENTILE_25 tryHard)
  | .T2M_PERCENTILE_50 tryHard => void (LocationElem.T2M_PERCENTILE_50 tryHard)
  | .T2M_PERCENTILE_75 tryHard => void (LocationElem.T2M_PERCENTILE_75 tryHard)
  | .T2M_PERCENTILE_90 tryHard => void (LocationElem.T2M_PERCENTILE_90 tryHard)
  | .significantSwellWaveHeight tryHard => void (LocationElem.significantSwellWaveHeight tryHard)
  | .meanSwellWavePeriode tryHard => void (LocationElem.meanSwellWavePeriode tryHard)
  | .meanSwellWaveDirection tryHard => void (LocationElem.meanSwellWaveDirection tryHard)
  | .peakSwellWavePeriode tryHard => void (LocationElem.peakSwellWavePeriode tryHard)
  | .peakSwellWaveDirection tryHard => void (LocationElem.peakSwellWaveDirection tryHard)
  | .meanTotalWavePeriode tryHard => void (LocationElem.meanTotalWavePeriode tryHard)
  | .maximumTotalWaveHeight tryHard => void (LocationElem.maximumTotalWaveHeight tryHard)
  | .seaCurrentVelocityU tryHard => void (LocationElem.seaCurrentVelocityU tryHard)
  | .seaCurrentVelocityV tryHard => void (LocationElem.seaCurrentVelocityV tryHard)
  | .seaSalinity tryHard => void (LocationElem.seaSalinity tryHard)
  | .seaSurfaceHeight tryHard => void (LocationElem.seaSurfaceHeight tryHard)
  | .seaTemperature tryHard => void (LocationElem.seaTemperature tryHard)
  | .meanTotalWaveDirection tryHard => void (LocationElem.meanTotalWaveDirection tryHard)
  | .significantTotalWaveHeight tryHard => void (LocationElem.significantTotalWaveHeight tryHard)
  | .wetBulbTemperature tryHard => void (LocationElem.wetBulbTemperature math tryHard)
  | .humidity tryHard => void (LocationElem.humidity math tryHard)
  | .maxTemperature hours tryHard => void (LocationElem.maxTemperature hours tryHard)
  | .minTemperature hours tryHard => void (LocationElem.minTemperature hours tryHard)
  | .dewPointTemperature usedTemperature tryHard =>
      void (LocationElem.dewPointTemperature math usedTemperature tryHard)
  | .iceingIndex tryHard provider => void (LocationElem.iceingIndex tryHard provider)
  | .PRECIP_MIN_MAX_MEAN hoursBack tryHard =>
      void (LocationElem.PRECIP_MIN_MAX_MEAN hoursBack tryHard)
  | .PRECIP_MEAN hoursBack tryHard => void (LocationElem.PRECIP_MEAN hoursBack tryHard)
  | .PRECIP_1H hoursBack tryHard => void (LocationElem.PRECIP_1H hoursBack tryHard)
  | .PRECIP_DATA hoursBack tryHard => void (LocationElem.PRECIP_DATA hoursBack tryHard)
  | .PRECIP_N hoursBack tryHard => void (LocationElem.PRECIP_N hoursBack tryHard)
  | .PRECIP hoursBack tryHard => void (LocationElem.PRECIP hoursBack tryHard)
  | .PRECIP_PERCENTILE_10 hoursBack tryHard =>
      void (LocationElem.PRECIP_PERCENTILE_10 hoursBack tryHard)
  | .PRECIP_PERCENTILE_25 hoursBack tryHard =>
      void (LocationElem.PRECIP_PERCENTILE_25 hoursBack tryHard)
  | .PRECIP_PERCENTILE_50 hoursBack tryHard =>
      void (LocationElem.PRECIP_PERCENTILE_50 hoursBack tryHard)
  | .PRECIP_PERCENTILE_75 hoursBack tryHard =>
      void (LocationElem.PRECIP_PERCENTILE_75 hoursBack tryHard)
  | .PRECIP_PERCENTILE_90 hoursBack tryHard =>
      void (LocationElem.PRECIP_PERCENTILE_90 hoursBack tryHard)
  | .PRECIP_PROBABILITY_0_1_MM hoursBack tryHard =>
      void (LocationElem.PRECIP_PROBABILITY_0_1_MM hoursBack tryHard)
  | .PRECIP_PROBABILITY_0_2_MM hoursBack tryHard =>
      void (LocationElem.PRECIP_PROBABILITY_0_2_MM hoursBack tryHard)
  | .PRECIP_PROBABILITY_0_5_MM hoursBack tryHard =>
      void (LocationElem.PRECIP_PROBABILITY_0_5_MM hoursBack tryHard)
  | .PRECIP_PROBABILITY_1_0_MM hoursBack tryHard =>
      void (LocationElem.PRECIP_PROBABILITY_1_0_MM hoursBack tryHard)
  | .PRECIP_PROBABILITY_2_0_MM hoursBack tryHard =>
      void (LocationElem.PRECIP_PROBABILITY_2_0_MM hoursBack tryHard)
  | .PRECIP_PROBABILITY_5_0_MM hoursBack tryHard =>
      void (LocationElem.PRECIP_PROBABILITY_5_0_MM hoursBack tryHard)
  | .symbol tryHard => void (LocationElem.symbol tryHard)
  | .symbol_PROBABILITY fromTime tryHard =>
      void (LocationElem.symbol_PROBABILITY fromTime tryHard)
  | .seaBottomTopography usedProvider useProvider =>
      void (LocationElem.seaBottomTopography usedProvider useProvider)
  | .seaIcePresence usedProvider useProvider =>
      void (LocationElem.seaIcePresence usedProvider useProvider)
  | .modeltopography provider => void (LocationElem.modeltopography provider)
  | .topography provider => void (LocationElem.topography provider)
  | .landcover provider => void (LocationElem.landcover provider)
  | .computeTempCorrection provider relTopo modelTopo =>
      void (LocationElem.computeTempCorrection provider relTopo modelTopo)

/-- Does the accessor pass the key of the series to a lookup? -/
def Accessor.passesKey : Accessor F → Bool
  | .PRECIP_MIN_MAX_MEAN _ _ | .PRECIP_MEAN _ _ | .PRECIP_1H _ _ | .PRECIP_DATA _ _
  | .PRECIP_N _ _ | .PRECIP _ _ | .PRECIP_PERCENTILE_10 _ _ | .PRECIP_PERCENTILE_25 _ _
  | .PRECIP_PERCENTILE_50 _ _ | .PRECIP_PERCENTILE_75 _ _ | .PRECIP_PERCENTILE_90 _ _
  | .PRECIP_PROBABILITY_0_1_MM _ _ | .PRECIP_PROBABILITY_0_2_MM _ _
  | .PRECIP_PROBABILITY_0_5_MM _ _ | .PRECIP_PROBABILITY_1_0_MM _ _
  | .PRECIP_PROBABILITY_2_0_MM _ _ | .PRECIP_PROBABILITY_5_0_MM _ _ | .symbol _
  | .symbol_PROBABILITY _ _ | .seaBottomTopography _ _ | .seaIcePresence _ _
  | .modeltopography _ | .topography _ | .landcover _ | .computeTempCorrection _ _ _ => false
  | _ => true

/-- An accessor that does not pass the key keeps the time series. -/
theorem Accessor.keepsAlways (math : MathFunctions F) (accessor : Accessor F)
    (isLocal : accessor.passesKey = false) : KeepsAlways (accessor.run math) := by
  cases accessor with
  | PRECIP_MIN_MAX_MEAN => exact (keeps_PRECIP_MIN_MAX_MEAN _ _).map _
  | PRECIP_MEAN => exact (keeps_PRECIP_MEAN _ _).map _
  | PRECIP_1H => exact (keeps_PRECIP_1H _ _).map _
  | PRECIP_DATA => exact (keeps_PRECIP_DATA _ _).map _
  | PRECIP_N => exact (keeps_PRECIP_N _ _).map _
  | PRECIP => exact (keeps_PRECIP _ _).map _
  | PRECIP_PERCENTILE_10 | PRECIP_PERCENTILE_25 | PRECIP_PERCENTILE_50 | PRECIP_PERCENTILE_75
  | PRECIP_PERCENTILE_90 | PRECIP_PROBABILITY_0_1_MM | PRECIP_PROBABILITY_0_2_MM
  | PRECIP_PROBABILITY_0_5_MM | PRECIP_PROBABILITY_1_0_MM | PRECIP_PROBABILITY_2_0_MM
  | PRECIP_PROBABILITY_5_0_MM =>
      exact (keeps_periodValue _ _ _).map _
  | symbol => exact (keeps_symbol _).map _
  | symbol_PROBABILITY => exact (keeps_symbol_PROBABILITY _ _).map _
  | seaBottomTopography => exact (keeps_seaBottomTopography _ _).map _
  | seaIcePresence => exact (keeps_seaIcePresence _ _).map _
  | modeltopography => exact (keeps_modeltopography _).map _
  | topography => exact (keeps_topography _).map _
  | landcover => exact (keeps_landcover _).map _
  | computeTempCorrection => exact (keeps_computeTempCorrection _ _ _).map _
  | _ => cases isLocal

/-- Every accessor keeps the time series at a safe key. -/
theorem Accessor.keepsSafe (math : MathFunctions F) (accessor : Accessor F) :
    KeepsSafe (accessor.run math) := by
  cases passes : accessor.passesKey with
  | false => exact (accessor.keepsAlways math passes).safe
  | true =>
      cases accessor with
      | windV10m | windU10m | windGust | areaMaxWindSpeed | globalRadiation | PP | PR =>
          exact (keeps_value _ _ _).map _
      | TA => exact (keeps_TA _).map _
      | T2M | T2M_LAND | T2M_NO_ADIABATIC_HIGHT_CORRECTION | temperatureCorrected | UU
      | precipIntensity | NN | visibility | fog | highCloud | mediumCloud | lowCloud
      | RH2MFromModel | dewPointTemperatureFromModel =>
          exact (keeps_value _ _ _).map _
      | thunderProbability => exact (keeps_thunderProbability _).map _
      | fogProbability | WIND_PROBABILITY | T2M_PROBABILITY_1 | T2M_PROBABILITY_2
      | T2M_PROBABILITY_3 | T2M_PROBABILITY_4 | T2M_PERCENTILE_10 | T2M_PERCENTILE_25
      | T2M_PERCENTILE_50 | T2M_PERCENTILE_75 | T2M_PERCENTILE_90 =>
          exact (keeps_value _ _ _).map _
      | significantSwellWaveHeight | meanSwellWavePeriode | meanSwellWaveDirection
      | peakSwellWavePeriode | peakSwellWaveDirection | meanTotalWavePeriode
      | maximumTotalWaveHeight =>
          exact (keeps_waveValue _ _ _).map _
      | seaCurrentVelocityU | seaCurrentVelocityV | seaSalinity | seaSurfaceHeight
      | seaTemperature | meanTotalWaveDirection | significantTotalWaveHeight =>
          exact (keeps_value _ _ _).map _
      | wetBulbTemperature => exact (keeps_wetBulbTemperature math _).map _
      | humidity => exact (keeps_humidity math _).map _
      | maxTemperature | minTemperature =>
          exact (keeps_extremeTemperature _ _ _).map _
      | dewPointTemperature => exact (keeps_dewPointTemperature math _ _).map _
      | iceingIndex => exact (keeps_iceingIndex _ _).map _
      | _ => cases passes

end Run

end LocationElem

namespace LocationData

open LocationElem

variable {F : Type}

/-! ## Runs -/

/-- The steps of a reader. -/
inductive ReadAction (F : Type) where
  | init (startAtToTime : PTime) (provider : Bytes) (timespan : ℤ)
  | next
  | peek
  | access (accessor : Accessor F)

section Runs

variable [Floats F] [DecidableEq F] [DecidableLT F] [DecidableLE F]

/-- One step of a reader. -/
def read (math : MathFunctions F) (data : LocationData F) : ReadAction F → LocationData F
  | .init startAtToTime provider timespan => (data.init startAtToTime provider timespan).2
  | .next => data.next
  | .peek => data.peek
  | .access accessor => data.access (accessor.run math)

/-- An accessor that passes the key to a lookup is called at a time that is not special, or
that is the only from-time of its own entry. -/
def IsSafeRead (data : LocationData F) : ReadAction F → Prop
  | .access accessor => accessor.passesKey = true → KeyIsSafe data.locationElem.view
  | _ => True

theorem timeSerie_read (math : MathFunctions F) (data : LocationData F)
    (action : ReadAction F) (isSafe : IsSafeRead data action) :
    (read math data action).timeSerie = data.timeSerie := by
  cases action with
  | init startAtToTime provider timespan => apply timeSerie_init
  | next => apply timeSerie_next
  | peek => apply timeSerie_peek
  | access accessor =>
      have same : (data.access (accessor.run math)).locationElem.view =
          data.locationElem.view := by
        cases passes : accessor.passesKey with
        | false => exact accessor.keepsAlways math passes data.locationElem trivial
        | true => exact accessor.keepsSafe math data.locationElem (isSafe passes)
      exact congrArg Prod.fst same

/-- After every step of a run the entries of the series, which are its keys and its cells,
are the ones before the run, and the keys are strictly ordered. -/
structure KeepsTimeSerie (math : MathFunctions F) (data : LocationData F)
    (actions : List (ReadAction F)) : Prop where
  entries : ∀ earlier later, actions = earlier ++ later →
    (Runs.run (read math) data earlier).timeSerie = data.timeSerie
  ordered : ∀ earlier later, actions = earlier ++ later →
    (Runs.run (read math) data earlier).timeSerie.Pairwise fun left right => left.1 < right.1

theorem timeSerie_run (math : MathFunctions F) (data : LocationData F)
    (actions : List (ReadAction F))
    (each : Runs.EachStep (read math) IsSafeRead data actions) :
    (Runs.run (read math) data actions).timeSerie = data.timeSerie := by
  apply Runs.EachStep.invariant (fun reached => reached.timeSerie = data.timeSerie) _ rfl each
  · intro reached action same isSafe
    exact (timeSerie_read math reached action isSafe).trans same

/-- A run of safe reads keeps the time series. -/
theorem keepsTimeSerie_of_safeReads (math : MathFunctions F) (timeSerie : TimeSerie F)
    (longitude latitude : F) (hight : ℤ) (providerPriority : ProviderList)
    (modelTopoProviders : TopoProviderMap) (topographyProviders : List Bytes)
    (outputParams : SortedMap Bytes Bool) (thunder : Bool) (actions : List (ReadAction F))
    (each : Runs.EachStep (read math) IsSafeRead
      (create timeSerie longitude latitude hight providerPriority modelTopoProviders
        topographyProviders outputParams thunder) actions) :
    KeepsTimeSerie math
      (create timeSerie longitude latitude hight providerPriority modelTopoProviders
        topographyProviders outputParams thunder) actions := by
  constructor
  · intro earlier later split
    rw [split, Runs.eachStep_append] at each
    exact timeSerie_run math _ earlier each.1
  · intro earlier later split
    rw [split, Runs.eachStep_append] at each
    rw [timeSerie_run math _ earlier each.1]
    apply sorted_create

end Runs

/-! ### A field that is valid for ever -/

section ValidForEver

/-- A forecast for one time, and one that is valid from a time on. -/
def validForEver : LocationData ℚ :=
  create
    (DecodePData.storeRows
      [⟨"T.2M", Bytes.str "arome", .ticks 10, .ticks 10, some 281⟩,
       ⟨"T.2M", Bytes.str "arome", .ticks 0, .posInfinity, some 280⟩])
    10 60 INT_MIN [⟨Bytes.str "arome", []⟩] ∅ [] ∅ true

/-- Functions that the accessors below do not call. -/
def noMath : MathFunctions ℚ :=
  ⟨fun _ => 0, fun _ => 0, fun _ _ => 0, fun _ _ => 0, fun _ _ => 0⟩

theorem keepsTimeSerie_of_safeReads_validForEver :
    KeepsTimeSerie noMath validForEver
      [.next, .access (.T2M false), .next, .access (.PRECIP 1 true)] := by
  apply keepsTimeSerie_of_safeReads
  refine ⟨trivial, ?_, trivial, ?_, trivial⟩
  · intro _ key serie atCursor
    cases atCursor
    exact Or.inl rfl
  · intro passes
    cases passes

/-- A temperature that is read at the infinite time moves its entry to a time that is
before the entry in front of it. -/
theorem not_keepsTimeSerie_validForEver :
    ¬KeepsTimeSerie noMath validForEver [.next, .next, .access (.T2M false)] := by
  intro keeps
  have ordered := keeps.ordered _ [] (List.append_nil _).symm
  revert ordered
  decide

end ValidForEver

end LocationData

end Wdb2ts
