import Wdb2ts.Lib.SortedMap
import Wdb2ts.Lib.Bytes
import Wdb2ts.PTime

/-!
# Point data

The values of one cell are the members of a `PData`.  A cell is addressed by its
location, its valid-to time, its valid-from time and its provider, and the cells are
kept in four nested ordered maps.

Member values stay generic.  The code compares them with `FLT_MAX`, which marks a
missing value.
-/

namespace Wdb2ts

/-- The two constants of `<cfloat>` that mark missing and undefined values. -/
class FloatLimits (F : Type) where
  FLT_MAX : F
  FLT_MIN : F

export FloatLimits (FLT_MAX FLT_MIN)

/-- Exact values of the finite floats. -/
instance : FloatLimits ℚ where
  FLT_MAX := 340282346638528859811704183484516925440
  FLT_MIN := 1 / 2 ^ 126

namespace PData

/-- The data members of a `PData`, in declaration order.  A value of this type plays
the part of a pointer to member, `float PData::*`. -/
inductive Member where
  | windV10m | windU10m | windGust | areaMaxWindSpeed | globalRadiation | PP | PR | TA
  | T2M | T2M_LAND | T2M_NO_ADIABATIC_HIGHT_CORRECTION | maxTemperature_6h
  | minTemperature_6h | temperatureCorrected | dewPointTemperature | UU
  | PRECIP_PROBABILITY | PRECIP_MIN | PRECIP_MAX | PRECIP_MEAN | PRECIP
  | PRECIP_ACCUMULATED | PRECIP_1T | PRECIP_3T | PRECIP_6T | PRECIP_12T | PRECIP_24T
  | precipIntensity | significantSwellWaveHeight | meanSwellWavePeriode
  | meanSwellWaveDirection | peakSwellWavePeriode | peakSwellWaveDirection
  | seaCurrentVelocityU | seaCurrentVelocityV | seaSalinity | seaSurfaceHeight
  | seaTemperature | meanTotalWaveDirection | meanTotalWavePeriode
  | maximumTotalWaveHeight | significantTotalWaveHeight | seaIcePresence | iceingIndex
  | seaBottomTopography | NN | visibility | fog | highCloud | mediumCloud | lowCloud
  | RH2M | thunderProability | fogProability | WIND_PROBABILITY | T2M_PROBABILITY_1
  | T2M_PROBABILITY_2 | T2M_PROBABILITY_3 | T2M_PROBABILITY_4 | T2M_PERCENTILE_10
  | T2M_PERCENTILE_25 | T2M_PERCENTILE_50 | T2M_PERCENTILE_75 | T2M_PERCENTILE_90
  | PRECIP_PERCENTILE_10 | PRECIP_PERCENTILE_25 | PRECIP_PERCENTILE_50
  | PRECIP_PERCENTILE_75 | PRECIP_PERCENTILE_90 | PRECIP_PROBABILITY_0_1MM
  | PRECIP_PROBABILITY_0_2MM | PRECIP_PROBABILITY_0_5MM | PRECIP_PROBABILITY_1_0MM
  | PRECIP_PROBABILITY_2_0MM | PRECIP_PROBABILITY_5_0MM | symbol | symbol_PROBABILITY
  | modeltopography | topography | LANDCOVER
  deriving DecidableEq, Repr

end PData

/-- The values of one cell. -/
structure PData (F : Type) where
  get : PData.Member → F

namespace PData

variable {F : Type}

@[ext (iff := false)] theorem ext_get {left right : PData F}
    (equal : ∀ member, left.get member = right.get member) : left = right := by
  cases left
  cases right
  congr
  exact funext equal

/-- Assign one member. -/
def set (data : PData F) (member : Member) (value : F) : PData F :=
  ⟨Function.update data.get member value⟩

theorem get_set (data : PData F) (member other : Member) (value : F) :
    (data.set member value).get other = if other = member then value else data.get other := by
  by_cases same : other = member
  · subst same
    simp [set]
  · simp [set, same]

variable [FloatLimits F]

/-- `PData()`: every member is missing. -/
def missing : PData F := ⟨fun _ => FLT_MAX⟩

instance : Inhabited (PData F) := ⟨missing⟩

@[simp] theorem get_missing (member : Member) :
    (missing : PData F).get member = FLT_MAX := rfl

@[simp] theorem get_default (member : Member) :
    (default : PData F).get member = FLT_MAX := rfl

variable [DecidableEq F]

/-- The members `PData::merge` copies, in the order of its tests. -/
def mergeMembers : List Member :=
  [.windV10m, .windU10m, .windGust, .areaMaxWindSpeed, .globalRadiation, .PP, .PR, .TA,
   .T2M, .T2M_LAND, .T2M_NO_ADIABATIC_HIGHT_CORRECTION, .maxTemperature_6h,
   .minTemperature_6h, .temperatureCorrected, .dewPointTemperature, .UU,
   .PRECIP_PROBABILITY, .PRECIP_MIN, .PRECIP_MAX, .PRECIP_MEAN, .PRECIP,
   .PRECIP_ACCUMULATED, .PRECIP_1T, .PRECIP_3T, .PRECIP_6T, .PRECIP_12T, .PRECIP_24T,
   .precipIntensity, .significantSwellWaveHeight, .meanSwellWavePeriode,
   .meanSwellWaveDirection, .peakSwellWavePeriode, .peakSwellWaveDirection,
   .seaCurrentVelocityV, .seaCurrentVelocityU, .seaSalinity, .seaSurfaceHeight,
   .seaTemperature, .meanTotalWavePeriode, .meanTotalWaveDirection,
   .maximumTotalWaveHeight, .significantTotalWaveHeight, .seaIcePresence, .iceingIndex,
   .seaBottomTopography, .NN, .visibility, .fog, .highCloud, .mediumCloud, .lowCloud,
   .RH2M, .thunderProability, .fogProability, .WIND_PROBABILITY, .T2M_PROBABILITY_1,
   .T2M_PROBABILITY_2, .T2M_PROBABILITY_3, .T2M_PROBABILITY_4, .T2M_PERCENTILE_10,
   .T2M_PERCENTILE_25, .T2M_PERCENTILE_50, .T2M_PERCENTILE_75, .T2M_PERCENTILE_90,
   .PRECIP_PERCENTILE_10, .PRECIP_PERCENTILE_25, .PRECIP_PERCENTILE_50,
   .PRECIP_PERCENTILE_75, .PRECIP_PERCENTILE_90, .PRECIP_PROBABILITY_0_1MM,
   .PRECIP_PROBABILITY_0_2MM, .PRECIP_PROBABILITY_0_5MM, .PRECIP_PROBABILITY_1_0MM,
   .PRECIP_PROBABILITY_2_0MM, .PRECIP_PROBABILITY_5_0MM, .symbol, .symbol_PROBABILITY,
   .modeltopography, .topography, .LANDCOVER]

/-- The members `PData::count` counts, in the order of its tests. -/
def countMembers : List Member :=
  [.windV10m, .windU10m, .windGust, .areaMaxWindSpeed, .globalRadiation, .PP, .PR, .TA,
   .T2M, .T2M_LAND, .T2M_NO_ADIABATIC_HIGHT_CORRECTION, .maxTemperature_6h,
   .minTemperature_6h, .temperatureCorrected, .dewPointTemperature, .UU,
   .PRECIP_PROBABILITY, .PRECIP_MIN, .PRECIP_MAX, .PRECIP_MEAN, .PRECIP,
   .PRECIP_ACCUMULATED, .PRECIP_1T, .PRECIP_3T, .PRECIP_6T, .PRECIP_12T, .PRECIP_24T,
   .precipIntensity, .significantSwellWaveHeight, .meanSwellWavePeriode,
   .meanSwellWaveDirection, .peakSwellWavePeriode, .peakSwellWaveDirection,
   .seaCurrentVelocityU, .seaCurrentVelocityV, .seaSalinity, .seaSurfaceHeight,
   .seaTemperature, .meanTotalWavePeriode, .meanTotalWaveDirection,
   .maximumTotalWaveHeight, .significantTotalWaveHeight, .seaIcePresence, .iceingIndex,
   .seaBottomTopography, .NN, .visibility, .fog, .highCloud, .mediumCloud, .lowCloud,
   .RH2M, .thunderProability, .fogProability, .WIND_PROBABILITY, .T2M_PROBABILITY_1,
   .T2M_PROBABILITY_2, .T2M_PROBABILITY_3, .T2M_PROBABILITY_4, .T2M_PERCENTILE_10,
   .T2M_PERCENTILE_25, .T2M_PERCENTILE_50, .T2M_PERCENTILE_75, .T2M_PERCENTILE_90,
   .PRECIP_PERCENTILE_10, .PRECIP_PERCENTILE_25, .PRECIP_PERCENTILE_50,
   .PRECIP_PERCENTILE_75, .PRECIP_PERCENTILE_90, .PRECIP_PROBABILITY_0_1MM,
   .PRECIP_PROBABILITY_0_2MM, .PRECIP_PROBABILITY_0_5MM, .PRECIP_PROBABILITY_1_0MM,
   .PRECIP_PROBABILITY_2_0MM, .PRECIP_PROBABILITY_5_0MM, .symbol, .symbol_PROBABILITY,
   .modeltopography, .topography, .LANDCOVER]

/-- `PData::merge`: every member that has a value in `other` is copied. -/
def merge (data other : PData F) : PData F :=
  mergeMembers.foldl
    (fun merged member =>
      if other.get member ≠ FLT_MAX then merged.set member (other.get member) else merged)
    data

/-- `PData::count`: the number of members that have a value. -/
def count (data : PData F) : Nat :=
  countMembers.foldl
    (fun n member => if data.get member ≠ FLT_MAX then n + 1 else n) 0

theorem mem_mergeMembers (member : Member) : member ∈ mergeMembers := by
  cases member <;> decide

private theorem get_foldl_copy (other : PData F) (members : List Member)
    (data : PData F) (member : Member) :
    (members.foldl (fun merged member =>
        if other.get member ≠ FLT_MAX then merged.set member (other.get member) else merged)
      data).get member =
      if member ∈ members ∧ other.get member ≠ FLT_MAX then other.get member
      else data.get member := by
  induction members generalizing data with
  | nil => simp
  | cons head rest ih =>
      rw [List.foldl_cons, ih]
      by_cases inRest : member ∈ rest ∧ other.get member ≠ FLT_MAX
      · simp [inRest]
      · by_cases same : member = head
        · subst same
          by_cases present : other.get member ≠ FLT_MAX
          · simp [present, get_set]
          · simp [present]
        · by_cases present : other.get head ≠ FLT_MAX <;>
            simp [inRest, present, get_set, same]

/-- A merged member is the other one, unless that one is missing. -/
@[simp] theorem get_merge (data other : PData F) (member : Member) :
    (data.merge other).get member =
      if other.get member ≠ FLT_MAX then other.get member else data.get member := by
  rw [merge, get_foldl_copy]
  simp only [mem_mergeMembers, true_and]

@[simp] theorem missing_merge (data : PData F) : missing.merge data = data := by
  ext member
  by_cases absent : data.get member = FLT_MAX <;> simp [absent]

end PData

/-! ## Time series -/

/-- The cells of one pair of times, by provider. -/
abbrev ProviderPDataList (F : Type) := SortedMap Bytes (PData F)

/-- The cells of one valid-to time, by valid-from time. -/
abbrev FromTimeSerie (F : Type) := SortedMap PTime (ProviderPDataList F)

/-- The cells of one location, by valid-to time. -/
abbrev TimeSerie (F : Type) := SortedMap PTime (FromTimeSerie F)

/-- The address of a cell inside a time series: valid-to time, valid-from time and
provider. -/
abbrev CellKey := PTime × PTime × Bytes

namespace TimeSerie

variable {F : Type}

/-- The cell at an address. -/
def cell? (serie : TimeSerie F) (key : CellKey) : Option (PData F) :=
  (serie.find? key.1).bind fun fromTimes =>
    (fromTimes.find? key.2.1).bind fun providers => providers.find? key.2.2

/-- Every cell with its address, in iteration order. -/
def cells (serie : TimeSerie F) : List (CellKey × PData F) :=
  serie.entries.flatMap fun toTime =>
    toTime.2.entries.flatMap fun fromTime =>
      fromTime.2.entries.map fun provider =>
        ((toTime.1, fromTime.1, provider.1), provider.2)

theorem mem_cells_iff {serie : TimeSerie F} {key : CellKey} {data : PData F} :
    (key, data) ∈ serie.cells ↔ serie.cell? key = some data := by
  obtain ⟨toTime, fromTime, provider⟩ := key
  simp only [cells, List.mem_flatMap, List.mem_map, Prod.mk.injEq, cell?,
    Option.bind_eq_some_iff]
  constructor
  · rintro ⟨⟨_, fromTimes⟩, toMember, ⟨_, providers⟩, fromMember, ⟨_, _⟩, member,
      ⟨rfl, rfl, rfl⟩, rfl⟩
    exact ⟨fromTimes, SortedMap.mem_entries_iff.mp toMember, providers,
      SortedMap.mem_entries_iff.mp fromMember, SortedMap.mem_entries_iff.mp member⟩
  · rintro ⟨fromTimes, toFound, providers, fromFound, found⟩
    exact ⟨(toTime, fromTimes), SortedMap.mem_entries_iff.mpr toFound,
      (fromTime, providers), SortedMap.mem_entries_iff.mpr fromFound,
      (provider, data), SortedMap.mem_entries_iff.mpr found, ⟨rfl, rfl, rfl⟩, rfl⟩

/-- Different cells of a time series have different addresses. -/
theorem cells_distinct (serie : TimeSerie F) :
    serie.cells.Pairwise fun left right => left.1 ≠ right.1 := by
  simp only [cells, List.pairwise_flatMap, List.pairwise_map, List.mem_flatMap,
    List.mem_map]
  constructor
  · intro toTime _
    constructor
    · intro fromTime _
      exact fromTime.2.sorted.imp fun less => by simp [less.ne]
    · apply toTime.2.sorted.imp
      intro left right less cell inLeft other inRight
      rcases inLeft with ⟨_, _, rfl⟩
      rcases inRight with ⟨_, _, rfl⟩
      simp [less.ne]
  · apply serie.sorted.imp
    intro left right less cell inLeft other inRight
    rcases inLeft with ⟨_, _, _, _, rfl⟩
    rcases inRight with ⟨_, _, _, _, rfl⟩
    simp [less.ne]

variable [FloatLimits F]

/-- `serie[totime][fromtime][provider]` with an update of its data, where the subscript
operators create what is absent. -/
def updateCell (serie : TimeSerie F) (key : CellKey) (update : PData F → PData F) :
    TimeSerie F :=
  serie.upsert key.1 fun fromTimes =>
    (fromTimes.getD ∅).upsert key.2.1 fun providers =>
      (providers.getD ∅).upsert key.2.2 fun cell => update (cell.getD PData.missing)

/-- Two updates of one cell are one. -/
theorem updateCell_updateCell (serie : TimeSerie F) (key : CellKey)
    (first second : PData F → PData F) :
    (serie.updateCell key first).updateCell key second =
      serie.updateCell key fun data => second (first data) := by
  simp only [updateCell, SortedMap.upsert_upsert, Option.getD_some]

/-- An update of one cell leaves every other cell as it was. -/
theorem cell?_updateCell (serie : TimeSerie F) (key other : CellKey)
    (update : PData F → PData F) :
    (serie.updateCell key update).cell? other =
      if other = key then some (update ((serie.cell? key).getD PData.missing))
      else serie.cell? other := by
  obtain ⟨toTime, fromTime, provider⟩ := key
  obtain ⟨otherTo, otherFrom, otherProvider⟩ := other
  simp only [cell?, updateCell, SortedMap.find?_upsert, Prod.mk.injEq]
  by_cases sameTo : otherTo = toTime
  · subst sameTo
    cases serie.find? otherTo with
    | none =>
        by_cases sameFrom : otherFrom = fromTime <;>
          by_cases sameProvider : otherProvider = provider <;>
          simp [SortedMap.find?_upsert, sameFrom, sameProvider]
    | some fromTimes =>
        by_cases sameFrom : otherFrom = fromTime
        · subst sameFrom
          cases found : fromTimes.find? otherFrom <;>
            by_cases sameProvider : otherProvider = provider <;>
            simp [SortedMap.find?_upsert, found, sameProvider]
        · simp [SortedMap.find?_upsert, sameFrom]
  · simp [sameTo]

variable [DecidableEq F]

/-- `serie[totime][fromtime][provider].merge( data )`. -/
def mergeCell (serie : TimeSerie F) (key : CellKey) (data : PData F) : TimeSerie F :=
  serie.updateCell key fun cell => cell.merge data

theorem cell?_mergeCell (serie : TimeSerie F) (key other : CellKey) (data : PData F) :
    (serie.mergeCell key data).cell? other =
      if other = key then some (((serie.cell? key).getD PData.missing).merge data)
      else serie.cell? other :=
  serie.cell?_updateCell key other _

end TimeSerie

/-! ## Locations -/

/-- A location, by its coordinates in units of 1e-7 degrees.  The value a
`LocationPoint` carries takes no part in its comparison operators. -/
structure LocationPoint where
  latitude : ℤ
  longitude : ℤ
  deriving DecidableEq, Repr

namespace LocationPoint

/-- `LocationPoint::operator<` compares the latitudes first. -/
instance : LinearOrder LocationPoint :=
  LinearOrder.lift' (fun point => toLex (point.latitude, point.longitude))
    fun left right equal => by
      cases left
      cases right
      simpa using equal

end LocationPoint

/-- The time series of every location. -/
abbrev LocationPointData (F : Type) := SortedMap LocationPoint (TimeSerie F)

namespace LocationPointData

variable {F : Type}

/-- The cell of a location at an address. -/
def cell? (data : LocationPointData F) (point : LocationPoint) (key : CellKey) :
    Option (PData F) :=
  (data.find? point).bind fun serie => serie.cell? key

/-- The cells of a location, in iteration order. -/
def cells (data : LocationPointData F) (point : LocationPoint) : List (CellKey × PData F) :=
  (data.find? point).elim [] TimeSerie.cells

theorem mem_cells_iff {data : LocationPointData F} {point : LocationPoint} {key : CellKey}
    {cell : PData F} :
    (key, cell) ∈ data.cells point ↔ data.cell? point key = some cell := by
  cases found : data.find? point with
  | none => simp [cells, cell?, found]
  | some serie => simp [cells, cell?, found, TimeSerie.mem_cells_iff]

theorem cells_distinct (data : LocationPointData F) (point : LocationPoint) :
    (data.cells point).Pairwise fun left right => left.1 ≠ right.1 := by
  cases found : data.find? point with
  | none => simp [cells, found]
  | some serie => simpa [cells, found] using serie.cells_distinct

end LocationPointData

end Wdb2ts
