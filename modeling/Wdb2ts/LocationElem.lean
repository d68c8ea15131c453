import Wdb2ts.Floats
import Wdb2ts.GetValue

/-!
# Reading the values of one time

A `LocationElem` is a cursor in a time series.  Its accessors are programs over the
cursor and the series.  They pass the valid-to time the cursor is at, which is a key of
the series, as the in/out from-time of the lookup, so the lookup may assign to the key.

The series is the list of its entries in iteration order, and `find` scans the list.
-/

namespace Wdb2ts

/-- The providers whose topography stands in for that of a provider. -/
abbrev TopoProviderMap := SortedMap Bytes (List Bytes)

/-- The members of a `LocationElem`.  `timeSerie` holds the entries of the series it points
to and `itTimeSerie` the position of its iterator. -/
structure LocationElem (F : Type) extends LookupElem where
  timeSerie : List (PTime × FromTimeSerie F)
  itTimeSerie : ℕ
  topoTime : PTime
  seaIceTime : PTime
  seaBottomTopographyTime : PTime
  epoch : PTime
  modelTopoProviders : TopoProviderMap
  topographyProviders : List Bytes
  forecastProvider : Bytes
  oceanProvider_ : Bytes
  percentileProvider : Bytes
  symbolProvider : Bytes
  symbolProbabilityProvider : Bytes
  latitude_ : F
  longitude_ : F
  height_ : ℤ
  outputParams : SortedMap Bytes Bool
  thunder : Bool

/-- A program over a `LocationElem`. -/
abbrev Access (F : Type) := StateM (LocationElem F)

namespace LocationElem

variable {F : Type}

/-- The entry the cursor is at. -/
def current? (elem : LocationElem F) : Option (PTime × FromTimeSerie F) :=
  elem.timeSerie[elem.itTimeSerie]?

/-- `LocationElem::time`. -/
def time (elem : LocationElem F) : PTime :=
  (elem.current?.map Prod.fst).getD default

/-- `const_cast<ptime&>(itTimeSerie->first) = time`. -/
def setKey (elem : LocationElem F) (time : PTime) : LocationElem F :=
  { elem with timeSerie := elem.timeSerie.modify elem.itTimeSerie fun entry => (time, entry.2) }

/-- `timeSerie->find( time )`: the entries from the position on. -/
def find (elem : LocationElem F) (time : PTime) : List (PTime × FromTimeSerie F) :=
  elem.timeSerie.dropWhile fun entry => entry.1 ≠ time

/-- The cells of one time that are valid from the same time. -/
def constantField (elem : LocationElem F) (time : PTime) : Option (ProviderPDataList F) :=
  (elem.find time).head?.bind fun entry => entry.2.find? time

/-- `ConfigData::outputParam`. -/
def outputParam (elem : LocationElem F) (param : Bytes) : Bool :=
  (elem.outputParams.find? param).getD true

/-- `LocationElem::forecastprovider`. -/
def forecastprovider (elem : LocationElem F) : Bytes :=
  if !elem.forecastProvider.isEmpty then elem.forecastProvider
  else if !elem.oceanProvider_.isEmpty then elem.oceanProvider_
  else elem.percentileProvider

/-- `LocationElem::init`. -/
def init (elem : LocationElem F) (itTimeSerie : ℕ) : LocationElem F :=
  { elem with itTimeSerie := itTimeSerie, lastUsedProvider_ := [] }

/-- `LocationElem::startAtProvider`. -/
def startAtProvider (elem : LocationElem F) (providerWithPlacename : Bytes) :
    Bool × LocationElem F :=
  if providerWithPlacename.isEmpty then
    (true, { elem with itProviderPriorityBegin := 0 })
  else
    let found := ProviderList.findProviderWithoutPlacename elem.providerPriority
      providerWithPlacename
    if found = elem.providerPriority.length then
      (false, { elem with itProviderPriorityBegin := 0 })
    else (true, { elem with itProviderPriorityBegin := found })

/-- The provider members that accessors pass to the lookup. -/
inductive ProviderMember where
  | forecastProvider
  | percentileProvider
  | oceanProvider_
  deriving DecidableEq, Repr

/-- Read a provider member. -/
def getProvider (elem : LocationElem F) : ProviderMember → Bytes
  | .forecastProvider => elem.forecastProvider
  | .percentileProvider => elem.percentileProvider
  | .oceanProvider_ => elem.oceanProvider_

/-- Assign to a provider member. -/
def setProvider (elem : LocationElem F) (member : ProviderMember) (provider : Bytes) :
    LocationElem F :=
  match member with
  | .forecastProvider => { elem with forecastProvider := provider }
  | .percentileProvider => { elem with percentileProvider := provider }
  | .oceanProvider_ => { elem with oceanProvider_ := provider }

section Lookups

variable [FloatLimits F] [DecidableEq F]

/-- `getValue` with local variables for the from-time and the provider. -/
def lookup (pPM : PData.Member) (serie : FromTimeSerie F) (fromTime : PTime)
    (provider : Bytes) (tryHard cleanFromTime : Bool) : Access F (Lookup F) := do
  let elem ← get
  let found := elem.getValue pPM serie fromTime provider FLT_MAX tryHard cleanFromTime
  modify fun elem => { elem with lastUsedProvider_ := found.lastUsedProvider_ }
  pure found

/-- `getValue` with a provider member and a local variable for the from-time.  Returns the
value and the from-time. -/
def lookupMember (pPM : PData.Member) (member : ProviderMember) (serie : FromTimeSerie F)
    (fromTime : PTime) (tryHard cleanFromTime : Bool) :
    Access F (F × PTime) := do
  let elem ← get
  let found ← lookup pPM serie fromTime (elem.getProvider member) tryHard cleanFromTime
  modify fun elem => elem.setProvider member found.provider
  pure (found.value, found.fromTime)

/-- `getValue` with a provider and, for the from-time, the key the cursor is at. -/
def lookupAtKey (pPM : PData.Member) (provider : Bytes) (tryHard : Bool) :
    Access F (Lookup F) := do
  let elem ← get
  match elem.current? with
  | none => pure ⟨FLT_MAX, default, provider, elem.lastUsedProvider_⟩
  | some (totime, serie) => do
      let found ← lookup pPM serie totime provider tryHard false
      modify fun elem => elem.setKey found.fromTime
      pure found

/-- The accessors of one member: `getValue` with a provider member and the key. -/
def value (pPM : PData.Member) (member : ProviderMember) (tryHard : Bool) : Access F F := do
  let elem ← get
  let found ← lookupAtKey pPM (elem.getProvider member) tryHard
  modify fun elem => elem.setProvider member found.provider
  pure found.value

/-- The accessors of one member for the period before the time of the cursor. -/
def periodValue (pPM : PData.Member) (hoursBack : ℤ) (tryHard : Bool) : Access F F := do
  let elem ← get
  match elem.current? with
  | none => pure FLT_MAX
  | some (totime, serie) => do
      let fromTime := totime.sub (PTime.hours hoursBack)
      let found ← lookupMember pPM .percentileProvider serie fromTime tryHard false
      pure found.1

/-- The accessors of one ocean member that the configuration may leave out. -/
def waveValue (pPM : PData.Member) (param : Bytes) (tryHard : Bool) : Access F F := do
  let elem ← get
  if !elem.outputParam param then pure FLT_MAX
  else value pPM .oceanProvider_ tryHard

/-! ### Values at the time of the cursor -/

def windV10m (tryHard : Bool) : Access F F := value .windV10m .forecastProvider tryHard

def windU10m (tryHard : Bool) : Access F F := value .windU10m .forecastProvider tryHard

def windGust (tryHard : Bool) : Access F F := value .windGust .forecastProvider tryHard

def areaMaxWindSpeed (tryHard : Bool) : Access F F :=
  value .areaMaxWindSpeed .forecastProvider tryHard

def globalRadiation (tryHard : Bool) : Access F F :=
  value .globalRadiation .forecastProvider tryHard

def PP (tryHard : Bool) : Access F F := value .PP .forecastProvider tryHard

def PR (tryHard : Bool) : Access F F := value .PR .forecastProvider tryHard

def T2M (tryHard : Bool) : Access F F := value .T2M .forecastProvider tryHard

def T2M_LAND (tryHard : Bool) : Access F F := value .T2M_LAND .forecastProvider tryHard

def T2M_NO_ADIABATIC_HIGHT_CORRECTION (tryHard : Bool) : Access F F :=
  value .T2M_NO_ADIABATIC_HIGHT_CORRECTION .forecastProvider tryHard

def temperatureCorrected (tryHard : Bool) : Access F F :=
  value .temperatureCorrected .forecastProvider tryHard

def UU (tryHard : Bool) : Access F F := value .UU .forecastProvider tryHard

def precipIntensity (tryHard : Bool) : Access F F :=
  value .precipIntensity .forecastProvider tryHard

def NN (tryHard : Bool) : Access F F := value .NN .forecastProvider tryHard

def visibility (tryHard : Bool) : Access F F := value .visibility .forecastProvider tryHard

def fog (tryHard : Bool) : Access F F := value .fog .forecastProvider tryHard

def highCloud (tryHard : Bool) : Access F F := value .highCloud .forecastProvider tryHard

def mediumCloud (tryHard : Bool) : Access F F := value .mediumCloud .forecastProvider tryHard

def lowCloud (tryHard : Bool) : Access F F := value .lowCloud .forecastProvider tryHard

def RH2MFromModel (tryHard : Bool) : Access F F := value .RH2M .forecastProvider tryHard

def dewPointTemperatureFromModel (tryHard : Bool) : Access F F :=
  value .dewPointTemperature .forecastProvider tryHard

def fogProbability (tryHard : Bool) : Access F F := value .fogProability .forecastProvider tryHard

def WIND_PROBABILITY (tryHard : Bool) : Access F F :=
  value .WIND_PROBABILITY .forecastProvider tryHard

def T2M_PROBABILITY_1 (tryHard : Bool) : Access F F :=
  value .T2M_PROBABILITY_1 .forecastProvider tryHard

def T2M_PROBABILITY_2 (tryHard : Bool) : Access F F :=
  value .T2M_PROBABILITY_2 .forecastProvider tryHard

def T2M_PROBABILITY_3 (tryHard : Bool) : Access F F :=
  value .T2M_PROBABILITY_3 .forecastProvider tryHard

def T2M_PROBABILITY_4 (tryHard : Bool) : Access F F :=
  value .T2M_PROBABILITY_4 .forecastProvider tryHard

def T2M_PERCENTILE_10 (tryHard : Bool) : Access F F :=
  value .T2M_PERCENTILE_10 .percentileProvider tryHard

def T2M_PERCENTILE_25 (tryHard : Bool) : Access F F :=
  value .T2M_PERCENTILE_25 .percentileProvider tryHard

def T2M_PERCENTILE_50 (tryHard : Bool) : Access F F :=
  value .T2M_PERCENTILE_50 .percentileProvider tryHard

def T2M_PERCENTILE_75 (tryHard : Bool) : Access F F :=
  value .T2M_PERCENTILE_75 .percentileProvider tryHard

def T2M_PERCENTILE_90 (tryHard : Bool) : Access F F :=
  value .T2M_PERCENTILE_90 .percentileProvider tryHard

def seaCurrentVelocityU (tryHard : Bool) : Access F F :=
  value .seaCurrentVelocityU .oceanProvider_ tryHard

def seaCurrentVelocityV (tryHard : Bool) : Access F F :=
  value .seaCurrentVelocityV .oceanProvider_ tryHard

def seaSalinity (tryHard : Bool) : Access F F := value .seaSalinity .oceanProvider_ tryHard

def seaSurfaceHeight (tryHard : Bool) : Access F F :=
  value .seaSurfaceHeight .oceanProvider_ tryHard

def seaTemperature (tryHard : Bool) : Access F F := value .seaTemperature .oceanProvider_ tryHard

def meanTotalWaveDirection (tryHard : Bool) : Access F F :=
  value .meanTotalWaveDirection .oceanProvider_ tryHard

def significantTotalWaveHeight (tryHard : Bool) : Access F F :=
  value .significantTotalWaveHeight .oceanProvider_ tryHard

def significantSwellWaveHeight (tryHard : Bool) : Access F F :=
  waveValue .significantSwellWaveHeight (Bytes.str "significantSwellWaveHeight") tryHard

def meanSwellWavePeriode (tryHard : Bool) : Access F F :=
  waveValue .meanSwellWavePeriode (Bytes.str "meanSwellWavePeriode") tryHard

def meanSwellWaveDirection (tryHard : Bool) : Access F F :=
  waveValue .meanSwellWaveDirection (Bytes.str "meanSwellWaveDirection") tryHard

def peakSwellWavePeriode (tryHard : Bool) : Access F F :=
  waveValue .peakSwellWavePeriode (Bytes.str "peakSwellWavePeriode") tryHard

def peakSwellWaveDirection (tryHard : Bool) : Access F F :=
  waveValue .peakSwellWaveDirection (Bytes.str "peakSwellWaveDirection") tryHard

def meanTotalWavePeriode (tryHard : Bool) : Access F F :=
  waveValue .meanTotalWavePeriode (Bytes.str "meanTotalWavePeriode") tryHard

def maximumTotalWaveHeight (tryHard : Bool) : Access F F :=
  waveValue .maximumTotalWaveHeight (Bytes.str "maximumTotalWaveHeight") tryHard

def PRECIP_PERCENTILE_10 (hoursBack : ℤ) (tryHard : Bool) : Access F F :=
  periodValue .PRECIP_PERCENTILE_10 hoursBack tryHard

def PRECIP_PERCENTILE_25 (hoursBack : ℤ) (tryHard : Bool) : Access F F :=
  periodValue .PRECIP_PERCENTILE_25 hoursBack tryHard

def PRECIP_PERCENTILE_50 (hoursBack : ℤ) (tryHard : Bool) : Access F F :=
  periodValue .PRECIP_PERCENTILE_50 hoursBack tryHard

def PRECIP_PERCENTILE_75 (hoursBack : ℤ) (tryHard : Bool) : Access F F :=
  periodValue .PRECIP_PERCENTILE_75 hoursBack tryHard

def PRECIP_PERCENTILE_90 (hoursBack : ℤ) (tryHard : Bool) : Access F F :=
  periodValue .PRECIP_PERCENTILE_90 hoursBack tryHard

def PRECIP_PROBABILITY_0_1_MM (hoursBack : ℤ) (tryHard : Bool) : Access F F :=
  periodValue .PRECIP_PROBABILITY_0_1MM hoursBack tryHard

def PRECIP_PROBABILITY_0_2_MM (hoursBack : ℤ) (tryHard : Bool) : Access F F :=
  periodValue .PRECIP_PROBABILITY_0_2MM hoursBack tryHard

def PRECIP_PROBABILITY_0_5_MM (hoursBack : ℤ) (tryHard : Bool) : Access F F :=
  periodValue .PRECIP_PROBABILITY_0_5MM hoursBack tryHard

def PRECIP_PROBABILITY_1_0_MM (hoursBack : ℤ) (tryHard : Bool) : Access F F :=
  periodValue .PRECIP_PROBABILITY_1_0MM hoursBack tryHard

def PRECIP_PROBABILITY_2_0_MM (hoursBack : ℤ) (tryHard : Bool) : Access F F :=
  periodValue .PRECIP_PROBABILITY_2_0MM hoursBack tryHard

def PRECIP_PROBABILITY_5_0_MM (hoursBack : ℤ) (tryHard : Bool) : Access F F :=
  periodValue .PRECIP_PROBABILITY_5_0MM hoursBack tryHard

/-- `LocationElem::TA`: the value over land has priority. -/
def TA (tryHard : Bool) : Access F F := do
  let t2m ← T2M tryHard
  let providerT2m := (← get).forecastProvider
  let t2m_land ← T2M_LAND tryHard
  if t2m_land ≠ FLT_MAX then pure t2m_land
  else do
    modify fun elem => { elem with forecastProvider := providerT2m }
    pure t2m

/-- `maxTemperature` and `minTemperature`: the value for the period, or else the one valid
at the time of the cursor. -/
def extremeTemperature (pPM : PData.Member) (hours : ℤ) (tryHard : Bool) : Access F F := do
  let elem ← get
  match elem.current? with
  | none => pure FLT_MAX
  | some (totime, serie) =>
      if hours = 6 then do
        let found ← lookupMember pPM .forecastProvider serie (totime.sub (PTime.hours hours))
          tryHard false
        if found.1 = FLT_MAX then value pPM .forecastProvider tryHard
        else pure found.1
      else pure FLT_MAX

def maxTemperature (hours : ℤ) (tryHard : Bool) : Access F F :=
  extremeTemperature .maxTemperature_6h hours tryHard

def minTemperature (hours : ℤ) (tryHard : Bool) : Access F F :=
  extremeTemperature .minTemperature_6h hours tryHard

/-- `LocationElem::thunderProbability`. -/
def thunderProbability (tryHard : Bool) : Access F F := do
  let elem ← get
  if !elem.thunder then pure FLT_MAX
  else value .thunderProability .forecastProvider tryHard

/-- `LocationElem::iceingIndex`.  A given provider is copied first. -/
def iceingIndex (tryHard : Bool) (provider : Bytes) : Access F F := do
  if provider.isEmpty then value .iceingIndex .oceanProvider_ tryHard
  else do
    let found ← lookupAtKey .iceingIndex provider tryHard
    pure found.value

/-- `LocationElem::symbol_PROBABILITY`.  Returns the value and the from-time. -/
def symbol_PROBABILITY (fromTime : PTime) (tryHard : Bool) : Access F (F × PTime) := do
  let elem ← get
  match elem.current? with
  | none => pure (FLT_MAX, fromTime)
  | some (_, serie) => do
      let provider :=
        if !elem.symbolProbabilityProvider.isEmpty then elem.symbolProbabilityProvider
        else if !elem.symbolProvider.isEmpty then elem.symbolProvider
        else elem.forecastProvider
      let found ← lookup .symbol_PROBABILITY serie fromTime provider tryHard false
      if found.value ≠ FLT_MAX then do
        modify fun elem => { elem with symbolProbabilityProvider := found.provider }
        pure (found.value, found.fromTime)
      else pure (found.value, found.fromTime)

/-! ### Constant fields -/

/-- The loop of `seaBottomTopography` and `seaIcePresence` over the priority list.  Returns
the value and the provider that was tried last. -/
def constantFieldLoop (pPM : PData.Member) (providers : Option (ProviderPDataList F)) :
    ProviderList → (usedProvider : Bytes) → (retVal : F) → F × Bytes
  | [], usedProvider, retVal => (retVal, usedProvider)
  | item :: rest, usedProvider, retVal =>
      match providers with
      | none => constantFieldLoop pPM providers rest usedProvider retVal
      | some cells =>
          let usedProvider := item.providerWithPlacename
          match cells.find? usedProvider with
          | none => constantFieldLoop pPM providers rest usedProvider retVal
          | some data =>
              if data.get pPM = FLT_MAX then
                constantFieldLoop pPM providers rest usedProvider (data.get pPM)
              else (data.get pPM, usedProvider)

/-- The items `seaBottomTopography` and `seaIcePresence` try. -/
def constantFieldItems (elem : LocationElem F) (useProvider : Bytes) : ProviderList :=
  if useProvider.isEmpty then elem.providerPriority
  else (elem.providerPriority.drop
    (ProviderList.findProvider elem.providerPriority useProvider)).take 1

/-- `LocationElem::seaIcePresence`.  Returns the value and the used provider. -/
def seaIcePresence (usedProvider useProvider : Bytes) : Access F (F × Bytes) := do
  let elem ← get
  pure (constantFieldLoop .seaIcePresence (elem.constantField elem.seaIceTime)
    (elem.constantFieldItems useProvider) usedProvider FLT_MAX)

/-- `LocationElem::landcover`. -/
def landcover (provider : Bytes) : Access F F := do
  let elem ← get
  match elem.constantField elem.epoch with
  | none => pure FLT_MIN
  | some cells => pure (((cells.find? provider).map (PData.get · .LANDCOVER)).getD FLT_MIN)

/-- `LocationElem::topoProvider`: the provider whose topography is used, and the map with
the alias that was found by provider name. -/
def topoProvider (provider_ : Bytes) (topoProviders : TopoProviderMap) :
    Bytes × TopoProviderMap :=
  match topoProviders.find? provider_ with
  | some aliases => (aliases.head?.getD provider_, topoProviders)
  | none =>
      let item := ProviderList.decodeItem provider_
      if item.placename.isEmpty then (provider_, topoProviders)
      else
        match (topoProviders.find? item.provider).bind List.head? with
        | none => (provider_, topoProviders)
        | some provider =>
            (provider, topoProviders.upsert provider_ fun aliases =>
              aliases.getD [] ++ [provider])

end Lookups

section Computations

variable [Floats F] [DecidableEq F] [DecidableLT F] [DecidableLE F]

/-- `LocationElem::symbol`.  Returns the symbol and its from-time. -/
def symbol (tryHard : Bool) : Access F (ℤ × PTime) := do
  let elem ← get
  match elem.current? with
  | none => pure (INT_MAX, default)
  | some (_, serie) => do
      let provider :=
        if elem.symbolProvider.isEmpty then elem.forecastProvider else elem.symbolProvider
      let found ← lookup .symbol serie default provider tryHard false
      if found.value = FLT_MAX then pure (INT_MAX, found.fromTime)
      else do
        modify fun elem => { elem with symbolProvider := found.provider }
        pure (Floats.toInt (found.value + lit 0.5), found.fromTime)

/-- `LocationElem::seaBottomTopography`.  Returns the value and the used provider. -/
def seaBottomTopography (usedProvider useProvider : Bytes) : Access F (ℤ × Bytes) := do
  let elem ← get
  let found := constantFieldLoop .seaBottomTopography
    (elem.constantField elem.seaBottomTopographyTime) (elem.constantFieldItems useProvider)
    usedProvider FLT_MAX
  pure (if found.1 = FLT_MAX then INT_MAX else Floats.toInt found.1, found.2)

/-- The value of a topography cell. -/
def topographyValue (pPM : PData.Member) (data : PData F) : ℤ :=
  if data.get pPM = FLT_MAX then INT_MIN else Floats.toInt (data.get pPM)

/-- `LocationElem::modeltopography`.  `none` stands for the read through the end iterator. -/
def modeltopography (provider_ : Bytes) : Access F (Option ℤ) := do
  let elem ← get
  let topo := topoProvider provider_ elem.modelTopoProviders
  modify fun elem => { elem with modelTopoProviders := topo.2 }
  let provider := topo.1
  let postfix_ := Bytes.str "__MODEL_TOPO__"
  match elem.constantField elem.topoTime with
  | none => pure (some INT_MIN)
  | some cells =>
      match cells.find? (provider ++ postfix_) with
      | some data => pure (some (topographyValue .modeltopography data))
      | none =>
          let item := ProviderList.decodeItem provider
          if !item.placename.isEmpty then pure (some INT_MIN)
          else
            let itemIn := ProviderList.decodeItem provider_
            if itemIn.placename.isEmpty then pure none
            else
              let provider := { item with placename := itemIn.placename }.providerWithPlacename
              match cells.find? (provider ++ postfix_) with
              | none => pure (some INT_MIN)
              | some data => do
                  modify fun elem =>
                    { elem with
                      modelTopoProviders := elem.modelTopoProviders.upsert provider_
                        fun aliases => provider :: aliases.getD [] }
                  pure (some (topographyValue .modeltopography data))

/-- `LocationElem::topography`. -/
def topography (provider_ : Bytes) : Access F ℤ := do
  let elem ← get
  let postfix_ := Bytes.str "__TOPOGRAPHY__"
  match elem.constantField elem.topoTime with
  | none => pure INT_MIN
  | some cells =>
      match cells.find? (provider_ ++ postfix_) with
      | some data => pure (topographyValue .topography data)
      | none =>
          let itemIn := ProviderList.decodeItem provider_
          if !itemIn.placename.isEmpty then pure INT_MIN
          else
            let sameProvider := cells.entries.find? fun cell =>
              match findText postfix_ cell.1 with
              | none => false
              | some position =>
                  itemIn.provider = (ProviderList.decodeItem (cell.1.take position)).provider
            pure ((sameProvider.map fun cell => topographyValue .topography cell.2).getD INT_MIN)

/-- `LocationElem::computeTempCorrection`.  Returns the correction and, when they are set,
`relTopo` and `modelTopo`. -/
def computeTempCorrection (provider : Bytes) (relTopo modelTopo : ℤ) :
    Access F (Option (F × ℤ × ℤ)) := do
  let elem ← get
  if elem.height_ = INT_MIN then pure (some (lit 0, relTopo, modelTopo))
  else do
    match ← modeltopography provider with
    | none => pure none
    | some modelTopo =>
        if modelTopo = INT_MIN then pure (some (lit 0, relTopo, modelTopo))
        else
          let relTopo := modelTopo - elem.height_
          pure (some (lit relTopo * lit 0.006, relTopo, modelTopo))

/-- `LocationElem::wetBulbTemperature`. -/
def wetBulbTemperature (math : MathFunctions F) (tryHard : Bool) : Access F F := do
  let elem ← get
  if !elem.outputParam (Bytes.str "symbol:T.WB") then pure FLT_MAX
  else do
    let tUhc ← T2M tryHard
    let tHc ← temperatureCorrected tryHard
    let rh ← RH2MFromModel false
    let h : F := lit elem.height_
    if tUhc = FLT_MAX ∨ tHc = FLT_MAX ∨ rh = FLT_MAX ∨ h = lit INT_MIN ∨ h = lit INT_MAX then
      pure FLT_MAX
    else
      let e := rh / lit 100 * lit 0.611 *
        math.exp (lit 17.63 * tUhc / (tUhc + lit 243.04))
      let td := (lit 116.9 + lit 243.04 * math.log e) / (lit 16.78 - math.log e)
      let gamma := lit 0.00066 * lit 101300 * math.exp (lit (-1.21e-4) * h) * lit 0.001
      let rho := lit 4098 * e / math.pow (td + lit 243.04) (lit 2)
      let tw := (gamma * tHc + rho * td) / (gamma + rho)
      pure (if tHc < tw then tHc else tw)

/-- The destructor of `RestoreForecastProvider`. -/
def restoreForecastProvider (provider : Bytes) : Access F Unit :=
  modify fun elem =>
    if provider.isEmpty then elem else { elem with forecastProvider := provider }

/-- `LocationElem::humidity`. -/
def humidity (math : MathFunctions F) (tryHard : Bool) : Access F F := do
  let provider := (← get).forecastprovider
  let rh ← RH2MFromModel tryHard
  if rh = FLT_MAX then do
    let dewtemp ← dewPointTemperatureFromModel tryHard
    let modeltemp ← T2M false
    restoreForecastProvider provider
    pure (math.dewPointTemperatureToRelativeHumidity modeltemp dewtemp)
  else do
    restoreForecastProvider provider
    pure rh

/-- `LocationElem::dewPointTemperature`. -/
def dewPointTemperature (math : MathFunctions F) (usedTemperature : F) (tryHard : Bool) :
    Access F F := do
  let provider := (← get).forecastprovider
  if usedTemperature = FLT_MAX then do
    restoreForecastProvider provider
    pure FLT_MAX
  else do
    let rh ← RH2MFromModel tryHard
    let dewTemp := math.dewPointTemperature usedTemperature rh
    if dewTemp ≠ FLT_MAX then do
      restoreForecastProvider provider
      pure dewTemp
    else do
      let dewTemp ← dewPointTemperatureFromModel tryHard
      let modelTemp ← T2M false
      restoreForecastProvider provider
      if dewTemp = FLT_MAX ∨ modelTemp = FLT_MAX then pure FLT_MAX
      else
        let modelRh := math.dewPointTemperatureToRelativeHumidity modelTemp dewTemp
        pure (math.dewPointTemperature usedTemperature modelRh)

end Computations

end LocationElem

end Wdb2ts
