import Wdb2ts.PointData
import Wdb2ts.Miutil

/-!
# Storing decoded rows

`decodePData` reads the rows of a database result.  A row of a known parameter and
provider is stored in one cell of the time series of its location.
-/

namespace Wdb2ts

namespace DecodePData

variable {F : Type}

/-- Where the value of a parameter is stored: in a member of the cell of the row, or in a
member of a constant field, with a suffix to the name of the provider. -/
inductive Target where
  | cell (member : PData.Member)
  | constantField (member : PData.Member) (suffix : String)
  deriving DecidableEq, Repr

/-- The aliases `decodePData` knows, in the order of its tests. -/
def aliases : List (String × Target) :=
  [("WIND.U10M", .cell .windU10m), ("WIND.V10M", .cell .windV10m),
   ("WIND.GUST", .cell .windGust), ("areaMaxWindSpeed", .cell .areaMaxWindSpeed),
   ("globalRadiation", .cell .globalRadiation), ("PP", .cell .PP), ("MSLP", .cell .PR),
   ("T.2M", .cell .T2M), ("T.2M.LAND", .cell .T2M_LAND),
   ("T.2M.NO_ADIABATIC_HIGHT_CORRECTION", .cell .T2M_NO_ADIABATIC_HIGHT_CORRECTION),
   ("maxTemperature.6H", .cell .maxTemperature_6h),
   ("minTemperature.6H", .cell .minTemperature_6h), ("UU", .cell .UU),
   ("PRECIP.ACCUMULATED", .cell .PRECIP_ACCUMULATED),
   ("PRECIP.PROBABILITY", .cell .PRECIP_PROBABILITY), ("PRECIP.MIN", .cell .PRECIP_MIN),
   ("PRECIP.MAX", .cell .PRECIP_MAX), ("PRECIP.MEAN", .cell .PRECIP_MEAN),
   ("PRECIP", .cell .PRECIP), ("PRECIP.1H", .cell .PRECIP_1T),
   ("PRECIP.3H", .cell .PRECIP_3T), ("PRECIP.6H", .cell .PRECIP_6T),
   ("PRECIP.12H", .cell .PRECIP_12T), ("PRECIP.24H", .cell .PRECIP_24T),
   ("PRECIP.INTENSITY", .cell .precipIntensity),
   ("significantSwellWaveHeight", .cell .significantSwellWaveHeight),
   ("meanSwellWavePeriode", .cell .meanSwellWavePeriode),
   ("meanSwellWaveDirection", .cell .meanSwellWaveDirection),
   ("peakSwellWavePeriode", .cell .peakSwellWavePeriode),
   ("peakSwellWaveDirection", .cell .peakSwellWaveDirection),
   ("seaCurrentVelocityV", .cell .seaCurrentVelocityV),
   ("seaCurrentVelocityU", .cell .seaCurrentVelocityU),
   ("seaSalinity", .cell .seaSalinity), ("seaSurfaceHeight", .cell .seaSurfaceHeight),
   ("seaTemperature", .cell .seaTemperature),
   ("meanTotalWavePeriode", .cell .meanTotalWavePeriode),
   ("meanTotalWaveDirection", .cell .meanTotalWaveDirection),
   ("maximumTotalWaveHeight", .cell .maximumTotalWaveHeight),
   ("significantTotalWaveHeight", .cell .significantTotalWaveHeight),
   ("seaBottomTopography", .constantField .seaBottomTopography ""),
   ("seaIcePresence", .constantField .seaIcePresence ""),
   ("iceingIndex", .cell .iceingIndex),
   ("MODEL.TOPOGRAPHY", .constantField .modeltopography "__MODEL_TOPO__"),
   ("TOPOGRAPHY", .constantField .topography "__TOPOGRAPHY__"),
   ("LANDCOVER", .cell .LANDCOVER), ("TOTAL.CLOUD", .cell .NN),
   ("visibility", .cell .visibility), ("FOG", .cell .fog), ("LOW.CLOUD", .cell .lowCloud),
   ("MEDIUM.CLOUD", .cell .mediumCloud), ("HIGH.CLOUD", .cell .highCloud),
   ("RH.2M", .cell .RH2M), ("T.DEWPOINT", .cell .dewPointTemperature),
   ("SYMBOL", .cell .symbol), ("SYMBOL.PROBABILITY", .cell .symbol_PROBABILITY),
   ("THUNDER.PROBABILITY", .cell .thunderProability),
   ("FOG.PROBABILITY", .cell .fogProability), ("WIND.PROBABILITY", .cell .WIND_PROBABILITY),
   ("T.2M.PROBABILITY.1", .cell .T2M_PROBABILITY_1),
   ("T.2M.PROBABILITY.2", .cell .T2M_PROBABILITY_2),
   ("T.2M.PROBABILITY.3", .cell .T2M_PROBABILITY_3),
   ("T.2M.PROBABILITY.4", .cell .T2M_PROBABILITY_4),
   ("T.2M.PERCENTILE.10", .cell .T2M_PERCENTILE_10),
   ("T.2M.PERCENTILE.25", .cell .T2M_PERCENTILE_25),
   ("T.2M.PERCENTILE.50", .cell .T2M_PERCENTILE_50),
   ("T.2M.PERCENTILE.75", .cell .T2M_PERCENTILE_75),
   ("T.2M.PERCENTILE.90", .cell .T2M_PERCENTILE_90),
   ("PRECIP.PERCENTILE.10", .cell .PRECIP_PERCENTILE_10),
   ("PRECIP.PERCENTILE.25", .cell .PRECIP_PERCENTILE_25),
   ("PRECIP.PERCENTILE.50", .cell .PRECIP_PERCENTILE_50),
   ("PRECIP.PERCENTILE.75", .cell .PRECIP_PERCENTILE_75),
   ("PRECIP.PERCENTILE.90", .cell .PRECIP_PERCENTILE_90),
   ("PRECIP.PROBABILITY.0,1MM", .cell .PRECIP_PROBABILITY_0_1MM),
   ("PRECIP.PROBABILITY.0,2MM", .cell .PRECIP_PROBABILITY_0_2MM),
   ("PRECIP.PROBABILITY.0,5MM", .cell .PRECIP_PROBABILITY_0_5MM),
   ("PRECIP.PROBABILITY.1,0MM", .cell .PRECIP_PROBABILITY_1_0MM),
   ("PRECIP.PROBABILITY.2,0MM", .cell .PRECIP_PROBABILITY_2_0MM),
   ("PRECIP.PROBABILITY.5,0MM", .cell .PRECIP_PROBABILITY_5_0MM)]

/-- What is left of a row when its parameter, provider and location are found: the value is
absent when it is null, and scaled otherwise. -/
structure DecodedRow (F : Type) where
  paramAlias : String
  providerWithPlacename : Bytes
  validfrom : PTime
  validto : PTime
  value : Option F

/-- The times a row is stored under.  A row that is always valid is a constant field. -/
def storedTimes (row : DecodedRow F) : PTime × PTime :=
  if row.validto = .posInfinity ∧ row.validfrom = .negInfinity then (PTime.epoch, PTime.epoch)
  else (row.validto, row.validfrom)

variable [FloatLimits F]

/-- Store a row in the time series of its location. -/
def storeRow (serie : TimeSerie F) (row : DecodedRow F) : TimeSerie F :=
  let times := storedTimes row
  let key : CellKey := (times.1, times.2, row.providerWithPlacename)
  let created := serie.updateCell key id
  match row.value with
  | none => created
  | some value =>
      match aliases.lookup row.paramAlias with
      | none => created
      | some (.cell member) => created.updateCell key fun data => data.set member value
      | some (.constantField member suffix) =>
          created.updateCell
            (PTime.epoch, PTime.epoch, row.providerWithPlacename ++ Bytes.str suffix)
            fun data => data.set member value

/-- The time series of a location after all its rows. -/
def storeRows (rows : List (DecodedRow F)) : TimeSerie F := rows.foldl storeRow ∅

end DecodePData

end Wdb2ts
