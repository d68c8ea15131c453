import Wdb2ts.NearestLand

/-!
# Which cells are averaged

The land points count the columns in `x` and the rows in `y`, and the average reads the row
`x` and the column `y`.  So the averaged cells are the transposed ones, and the topography is
read in the corner of its matrix.
-/

namespace Wdb2ts

open LocationPointMatrixTimeserie

variable {F : Type}

/-! ## Land points -/

section LandPoints

variable [FloatLimits F] [DecidableEq F] [LT F] [DecidableLT F]

theorem mem_greaterPoints {values : LocationPointMatrix F} {l r : ℕ} {checkValue : F} {point : XY} :
    point ∈ greaterPoints values l r checkValue ↔
      point.x < r - l ∧ point.y < r - l ∧
        isGreater checkValue (values.cell (l + point.y) (l + point.x)).value = true := by
  simp only [greaterPoints, List.mem_flatMap, List.mem_filterMap, List.mem_range]
  constructor
  · rintro ⟨y, inRows, x, inColumns, found⟩
    split at found
    next greater =>
      cases found
      exact ⟨inColumns, inRows, greater⟩
    next => cases found
  · rintro ⟨inColumns, inRows, greater⟩
    exact ⟨point.y, inRows, point.x, inColumns, if_pos greater⟩

theorem greaterPoints_nodup (values : LocationPointMatrix F) (l r : ℕ) (checkValue : F) :
    (greaterPoints values l r checkValue).Nodup := by
  apply List.nodup_flatMap.mpr
  constructor
  · intro y _
    apply List.Nodup.filterMap _ List.nodup_range
    intro x x' point isX isX'
    split at isX
    · split at isX'
      · cases isX
        cases isX'
        rfl
      · cases isX'
    · cases isX
  · apply List.nodup_range.imp
    intro y y' different point inRow inRow'
    simp only [List.mem_filterMap] at inRow inRow'
    rcases inRow with ⟨x, _, isPoint⟩
    rcases inRow' with ⟨x', _, isPoint'⟩
    split at isPoint
    · split at isPoint'
      · cases isPoint
        cases isPoint'
        exact different rfl
      · cases isPoint'
    · cases isPoint

/-- A level that fits in the matrix has its block in the centre. -/
theorem valuesGreaterThan_six {values : LocationPointMatrix F} (shape : values.shape = (6, 6))
    {suroundLevel : ℕ} (fits : suroundLevel ≤ 3) (checkValue : F) :
    valuesGreaterThan values suroundLevel checkValue =
      .ok (greaterPoints values (3 - suroundLevel) (3 + suroundLevel) checkValue) := by
  have even : ¬(6 % 2 ≠ 0 ∨ (6 : ℕ) ≠ 6) := by decide
  have room : ¬6 < 2 * suroundLevel := by omega
  have upper : 6 - (6 / 2 - suroundLevel) = 3 + suroundLevel := by omega
  simp only [valuesGreaterThan, shape, if_neg even, if_neg room, upper]

end LandPoints

namespace NearestLand

section Averages

variable [Floats F] [DecidableEq F]

/-- A cell of the parameter that is averaged, with the cell of the topography it is
corrected with. -/
structure Sample where
  cell : ℕ × ℕ
  topo : ℕ × ℕ

/-- Does the parameter have a value in a cell? -/
def HasValue (values : LocationPointMatrix F) (r c : ℕ) : Prop := (values.cell r c).value ≠ FLT_MIN

instance (values : LocationPointMatrix F) (r c : ℕ) : Decidable (HasValue values r c) :=
  inferInstanceAs (Decidable (_ ≠ _))

/-- The samples of the loop over the points. -/
def samples (values : LocationPointMatrix F) (xyPoints : List XY) : List Sample :=
  (xyPoints.filter fun itxy => HasValue values itxy.x itxy.y).map
    fun itxy => ⟨(itxy.x, itxy.y), (itxy.x, itxy.y)⟩

/-- The loop counts the samples and adds up their corrected values. -/
theorem sumPoints_eq_samples (altitude : ℤ) (modeltopo values : LocationPointMatrix F)
    (xyPoints : List XY) :
    sumPoints altitude modeltopo values xyPoints =
      ((samples values xyPoints).length,
        (samples values xyPoints).foldl
          (fun sum sample => sum + corrected altitude
            (values.cell sample.cell.1 sample.cell.2).value
            (modeltopo.cell sample.topo.1 sample.topo.2).value) (lit 0)) := by
  have loop : ∀ (points : List XY) (count : ℕ) (sum : F),
      points.foldl (addPoint altitude modeltopo values) (count, sum) =
        (count + (samples values points).length,
          (samples values points).foldl
            (fun sum sample => sum + corrected altitude
              (values.cell sample.cell.1 sample.cell.2).value
              (modeltopo.cell sample.topo.1 sample.topo.2).value) sum) := by
    intro points
    induction points with
    | nil =>
        intro count sum
        rfl
    | cons point rest ih =>
        intro count sum
        rw [List.foldl_cons]
        cases Decidable.em (HasValue values point.x point.y) with
        | inl set =>
            have added : addPoint altitude modeltopo values (count, sum) point =
                (count + 1, sum + corrected altitude (values.cell point.x point.y).value
                  (modeltopo.cell point.x point.y).value) := if_pos set
            have head : samples values (point :: rest) =
                ⟨(point.x, point.y), (point.x, point.y)⟩ :: samples values rest := by
              simp [samples, set]
            rw [added, ih, head, List.length_cons, List.foldl_cons]
            congr 1
            omega
        | inr unset =>
            have skipped : addPoint altitude modeltopo values (count, sum) point = (count, sum) :=
              if_neg unset
            have same : samples values (point :: rest) = samples values rest := by
              simp [samples, unset]
            rw [skipped, ih, same]
  rw [sumPoints, loop, Nat.zero_add]

theorem mem_samples {values : LocationPointMatrix F} {xyPoints : List XY} {sample : Sample} :
    sample ∈ samples values xyPoints ↔
      ∃ point ∈ xyPoints, HasValue values point.x point.y ∧
        sample = ⟨(point.x, point.y), (point.x, point.y)⟩ := by
  simp only [samples, List.mem_map, List.mem_filter, decide_eq_true_eq]
  constructor
  · rintro ⟨point, ⟨inPoints, set⟩, rfl⟩
    exact ⟨point, inPoints, set, rfl⟩
  · rintro ⟨point, inPoints, set, rfl⟩
    exact ⟨point, ⟨inPoints, set⟩, rfl⟩

variable [DecidableLT F]

/-- Is the land mask greater than 0.9 at an offset in the centred block of a level? -/
def IsLand (landMask : LocationPointMatrix F) (suroundLevel r c : ℕ) : Prop :=
  isGreater (lit 0.9) (landMask.cell (3 - suroundLevel + r) (3 - suroundLevel + c)).value = true

instance (landMask : LocationPointMatrix F) (suroundLevel r c : ℕ) :
    Decidable (IsLand landMask suroundLevel r c) := inferInstanceAs (Decidable (_ = _))

/-- The averaged cells are the land cells that have a value, each one once, and every cell is
corrected with the topography of the same grid point. -/
structure AveragesLand (landMask values : LocationPointMatrix F) (suroundLevel : ℕ) (altitude : ℤ)
    (xyPoints : List XY) : Prop where
  cells : ∀ r c, (r, c) ∈ (samples values xyPoints).map Sample.cell ↔
    r < 2 * suroundLevel ∧ c < 2 * suroundLevel ∧ IsLand landMask suroundLevel r c ∧
      HasValue values r c
  once : ((samples values xyPoints).map Sample.cell).Nodup
  topography : altitude ≠ INT_MIN → ∀ sample ∈ samples values xyPoints,
    sample.topo = (3 - suroundLevel + sample.cell.1, 3 - suroundLevel + sample.cell.2)

/-- The averaged cells are the transposed land cells. -/
theorem mem_cells_iff_transposed {landMask values : LocationPointMatrix F} {suroundLevel : ℕ}
    (fits : suroundLevel ≤ 3) {r c : ℕ} :
    (r, c) ∈ (samples values (greaterPoints landMask (3 - suroundLevel) (3 + suroundLevel)
        (lit 0.9))).map Sample.cell ↔
      r < 2 * suroundLevel ∧ c < 2 * suroundLevel ∧ IsLand landMask suroundLevel c r ∧
        HasValue values r c := by
  have size : 3 + suroundLevel - (3 - suroundLevel) = 2 * suroundLevel := by omega
  simp only [List.mem_map, mem_samples, mem_greaterPoints, size]
  constructor
  · rintro ⟨_, ⟨point, ⟨inRows, inColumns, land⟩, set, rfl⟩, equal⟩
    cases equal
    exact ⟨inRows, inColumns, land, set⟩
  · rintro ⟨inRows, inColumns, land, set⟩
    exact ⟨_, ⟨⟨r, c⟩, ⟨inRows, inColumns, land⟩, set, rfl⟩, rfl⟩

omit [DecidableLT F] in
theorem samples_nodup {values : LocationPointMatrix F} {xyPoints : List XY}
    (distinct : xyPoints.Nodup) : ((samples values xyPoints).map Sample.cell).Nodup := by
  rw [samples, List.map_map]
  apply List.Nodup.map_on _ (distinct.filter _)
  intro point _ other _ equal
  rcases point with ⟨x, y⟩
  rcases other with ⟨x', y'⟩
  cases equal
  rfl

/-- The right cells are averaged exactly when the land block is symmetric wherever the
parameter has a value, and the topography block begins in the corner or is not read. -/
theorem averagesLand_iff (landMask values : LocationPointMatrix F) (altitude : ℤ)
    (suroundLevel : ℕ) (shape : landMask.shape = (6, 6)) (fits : suroundLevel ≤ 3) :
    ∃ xyPoints, valuesGreaterThan landMask suroundLevel (lit 0.9) = .ok xyPoints ∧
      (AveragesLand landMask values suroundLevel altitude xyPoints ↔
        (∀ r c, r < 2 * suroundLevel → c < 2 * suroundLevel → HasValue values r c →
          (IsLand landMask suroundLevel r c ↔ IsLand landMask suroundLevel c r)) ∧
        (altitude = INT_MIN ∨ suroundLevel = 3 ∨
          ∀ r c, r < 2 * suroundLevel → c < 2 * suroundLevel →
            IsLand landMask suroundLevel c r → ¬HasValue values r c)) := by
  refine ⟨_, valuesGreaterThan_six shape fits (lit 0.9), ?_⟩
  constructor
  · intro averages
    constructor
    · intro r c inRows inColumns set
      have expected := averages.cells r c
      rw [mem_cells_iff_transposed fits] at expected
      constructor
      · intro land
        exact (expected.mpr ⟨inRows, inColumns, land, set⟩).2.2.1
      · intro land
        exact (expected.mp ⟨inRows, inColumns, land, set⟩).2.2.1
    · cases Decidable.em (altitude = INT_MIN) with
      | inl unknown => exact Or.inl unknown
      | inr known =>
          cases Decidable.em (suroundLevel = 3) with
          | inl whole => exact Or.inr (Or.inl whole)
          | inr inner =>
              apply Or.inr
              apply Or.inr
              intro r c inRows inColumns land set
              have averaged := (mem_cells_iff_transposed fits).mpr ⟨inRows, inColumns, land, set⟩
              rcases List.mem_map.mp averaged with ⟨sample, inSamples, isCell⟩
              have topo := averages.topography known sample inSamples
              rcases mem_samples.mp inSamples with ⟨point, _, _, rfl⟩
              have row := congrArg Prod.fst topo
              change point.x = 3 - suroundLevel + point.x at row
              omega
  · rintro ⟨symmetric, topography⟩
    constructor
    · intro r c
      rw [mem_cells_iff_transposed fits]
      constructor
      · rintro ⟨inRows, inColumns, land, set⟩
        exact ⟨inRows, inColumns, (symmetric r c inRows inColumns set).mpr land, set⟩
      · rintro ⟨inRows, inColumns, land, set⟩
        exact ⟨inRows, inColumns, (symmetric r c inRows inColumns set).mp land, set⟩
    · exact samples_nodup (greaterPoints_nodup _ _ _ _)
    · intro known sample inSamples
      rcases topography with unknown | rfl | none
      · exact absurd unknown known
      · rcases mem_samples.mp inSamples with ⟨point, _, _, rfl⟩
        simp
      · have averaged := (mem_cells_iff_transposed fits).mp
          (List.mem_map_of_mem (f := Sample.cell) inSamples)
        exact absurd averaged.2.2.2 (none _ _ averaged.1 averaged.2.1 averaged.2.2.1)

end Averages

/-! ### The values that are set -/

section SetData

variable [Floats F] [DecidableEq F]

/-- The average of the corrected values of some samples. -/
def average (altitude : ℤ) (modeltopo values : LocationPointMatrix F) (chosen : List Sample) : F :=
  chosen.foldl (fun sum sample => sum + corrected altitude
    (values.cell sample.cell.1 sample.cell.2).value
      (modeltopo.cell sample.topo.1 sample.topo.2).value) (lit 0) / lit chosen.length

/-- A cell with the average of some samples, corrected for the time of the day. -/
def withAverage (clock : PTime → ℤ) (altitude : ℤ) (setval getval : PData.Member)
    (modeltopo values : LocationPointMatrix F) (xyPoints : List XY) (totime : PTime)
    (cell : PData F) : PData F :=
  cell.set setval (correctValue (clock totime)
    (average altitude modeltopo values (samples values xyPoints)) (cell.get getval))

/-- Of the time series, the cells of the provider at the times of the data get the average of the
samples, if there are any.  The other cells stay as they are. -/
structure SetsAverages (clock : PTime → ℤ) (altitude : ℤ) (setval getval : PData.Member)
    (provider : Bytes) (modeltopo : LocationPointMatrix F) (xyPoints : List XY)
    (data : LocationPointMatrixTimeserie F) (serie changed : TimeSerie F) : Prop where
  averaged : ∀ totime fromtime values, data.find? totime = some (fromtime, values) →
    samples values xyPoints ≠ [] →
      changed.cell? (totime, fromtime, provider) =
        (serie.cell? (totime, fromtime, provider)).map
          (withAverage clock altitude setval getval modeltopo values xyPoints totime)
  kept : ∀ totime fromtime other,
    (∀ values, data.find? totime = some (fromtime, values) → other = provider →
      samples values xyPoints = []) →
        changed.cell? (totime, fromtime, other) = serie.cell? (totime, fromtime, other)

section SetTime

variable (clock : PTime → ℤ) (altitude : ℤ) (setval getval : PData.Member) (provider : Bytes)
  (modeltopo : LocationPointMatrix F) (xyPoints : List XY)

/-- A time changes its cell of the provider. -/
theorem cell?_setTime (serie : TimeSerie F) (entry : PTime × PTime × LocationPointMatrix F)
    (key : CellKey) :
    (setTime clock altitude setval getval provider modeltopo xyPoints serie entry).cell? key =
      if key = (entry.1, entry.2.1, provider) ∧ samples entry.2.2 xyPoints ≠ [] then
        (serie.cell? key).map
          (withAverage clock altitude setval getval modeltopo entry.2.2 xyPoints entry.1)
      else serie.cell? key := by
  simp only [setTime, sumPoints_eq_samples, List.length_eq_zero_iff]
  by_cases none : samples entry.2.2 xyPoints = []
  · rw [if_pos none, if_neg fun both => both.2 none]
  · rw [if_neg none]
    by_cases same : key = (entry.1, entry.2.1, provider)
    · subst same
      rw [if_pos ⟨rfl, none⟩]
      cases found : serie.cell? (entry.1, entry.2.1, provider) with
      | none => exact found
      | some data =>
          rw [TimeSerie.cell?_updateCell, if_pos rfl, found]
          rfl
    · rw [if_neg fun both => same both.1]
      split
      · rfl
      · rw [TimeSerie.cell?_updateCell, if_neg same]

/-- What the times make of a cell. -/
theorem cell?_setTimes (data : LocationPointMatrixTimeserie F) (serie : TimeSerie F)
    (key : CellKey) :
    (data.entries.foldl (setTime clock altitude setval getval provider modeltopo xyPoints)
        serie).cell? key =
      (data.find? key.1).elim (serie.cell? key) fun value =>
        if key.2 = (value.1, provider) ∧ samples value.2 xyPoints ≠ [] then
          (serie.cell? key).map
            (withAverage clock altitude setval getval modeltopo value.2 xyPoints key.1)
        else serie.cell? key := by
  apply SortedMap.foldl_entries (fun serie : TimeSerie F => serie.cell? key)
    fun cell (value : PTime × LocationPointMatrix F) =>
      if key.2 = (value.1, provider) ∧ samples value.2 xyPoints ≠ [] then
        cell.map (withAverage clock altitude setval getval modeltopo value.2 xyPoints key.1)
      else cell
  · intro state entry other
    rw [cell?_setTime, if_neg fun both => other (congrArg Prod.fst both.1)]
  · intro state value
    rcases key with ⟨totime, fromtime⟩
    simp only [cell?_setTime, Prod.mk.injEq, true_and]

theorem setsAverages_setTimes (data : LocationPointMatrixTimeserie F) (serie : TimeSerie F) :
    SetsAverages clock altitude setval getval provider modeltopo xyPoints data serie
      (data.entries.foldl (setTime clock altitude setval getval provider modeltopo xyPoints)
        serie) := by
  constructor
  · intro totime fromtime values found some
    rw [cell?_setTimes, found]
    exact if_pos ⟨rfl, some⟩
  · intro totime fromtime other notAveraged
    rw [cell?_setTimes]
    cases found : data.find? totime with
    | none => rfl
    | some value =>
        rcases value with ⟨valueFrom, values⟩
        refine if_neg ?_
        rintro ⟨same, some⟩
        cases same
        exact some (notAveraged values found rfl)

end SetTime

variable [DecidableLT F]

/-- `setData` sets the averages at the first location, with the points that `landPoints` has found:
those of the transposed land cells of the level that have a value, each one once. -/
theorem setData_averages {landMask : LocationPointMatrix F} (shape : landMask.shape = (6, 6))
    {suroundLevel : ℕ} {xyPoints : List XY}
    (isLand : landPoints landMask = .ok (some (suroundLevel, xyPoints)))
    (clock : PTime → ℤ) (altitude : ℤ) {paramname : String} {setval getval : PData.Member}
    (sets : SetPDataHelper.init (setParamname paramname) = some setval)
    (gets : SetPDataHelper.init paramname = some getval) (provider : Bytes)
    (modeltopo : LocationPointMatrix F) (data : LocationPointMatrixTimeserie F)
    {locations : LocationPointData F} {point : LocationPoint} {serie : TimeSerie F}
    (isFirst : locations.entries.head? = some (point, serie)) :
    (∃ changed, setData clock altitude paramname provider modeltopo xyPoints data locations =
        locations.insert point changed ∧
      SetsAverages clock altitude setval getval provider modeltopo xyPoints data serie changed) ∧
    ∀ values : LocationPointMatrix F,
      ((samples values xyPoints).map Sample.cell).Nodup ∧
        ∀ r c, (r, c) ∈ (samples values xyPoints).map Sample.cell ↔
          r < 2 * suroundLevel ∧ c < 2 * suroundLevel ∧ IsLand landMask suroundLevel c r ∧
            HasValue values r c := by
  obtain ⟨⟨_, fits⟩, isPoints⟩ := valuesGreaterThan_of_landPoints isLand
  rw [valuesGreaterThan_six shape fits] at isPoints
  cases isPoints
  constructor
  · refine ⟨_, ?_, setsAverages_setTimes clock altitude setval getval provider modeltopo _ data
      serie⟩
    simp only [setData, sets, gets, isFirst]
  · intro values
    constructor
    · exact samples_nodup (greaterPoints_nodup _ _ _ _)
    · exact fun r c => mem_cells_iff_transposed fits

end SetData

/-! ### One land point beside the diagonal -/

section OneLandPoint

/-- A land mask with one land point, in the inner block. -/
def oneLandPoint : LocationPointMatrix ℚ :=
  ⟨(6, 6), fun r c => ⟨⟨0, 0⟩, if r = 2 ∧ c = 3 then 1 else 0⟩⟩

/-- A parameter with a value at every inner grid point. -/
def innerValues : LocationPointMatrix ℚ := ⟨(2, 2), fun r c => ⟨⟨0, 0⟩, 270 + 2 * r + c⟩⟩

/-- The grid point on the other side of the diagonal is averaged. -/
theorem not_averagesLand_oneLandPoint :
    ∃ xyPoints, landPoints oneLandPoint = .ok (some (1, xyPoints)) ∧
      ¬AveragesLand oneLandPoint innerValues 1 0 xyPoints := by
  refine ⟨[⟨1, 0⟩], by decide +kernel, ?_⟩
  intro averages
  have land := (averages.cells 1 0).mp (by decide +kernel)
  exact absurd land.2.2.1 (by decide +kernel)

theorem averagesLand_iff_oneLandPoint :
    ∃ xyPoints, valuesGreaterThan oneLandPoint 3 (lit 0.9) = .ok xyPoints ∧
      (AveragesLand oneLandPoint oneLandPoint 3 0 xyPoints ↔
        (∀ r c, r < 2 * 3 → c < 2 * 3 → HasValue oneLandPoint r c →
          (IsLand oneLandPoint 3 r c ↔ IsLand oneLandPoint 3 c r)) ∧
        (0 = INT_MIN ∨ 3 = 3 ∨
          ∀ r c, r < 2 * 3 → c < 2 * 3 → IsLand oneLandPoint 3 c r →
            ¬HasValue oneLandPoint r c)) :=
  averagesLand_iff oneLandPoint oneLandPoint 0 3 rfl (by decide)

/-- A temperature of arome at noon. -/
def noonTemperature : TimeSerie ℚ :=
  (∅ : TimeSerie ℚ).updateCell (.ticks (PTime.hours 12), .ticks (PTime.hours 12), Bytes.str "arome")
    fun cell => cell.set .T2M 275

/-- Its location. -/
def noonLocation : LocationPointData ℚ := .ofList [(⟨600000000, 100000000⟩, noonTemperature)]

/-- The inner values at noon. -/
def noonValues : LocationPointMatrixTimeserie ℚ :=
  .ofList [(.ticks (PTime.hours 12), .ticks (PTime.hours 12), innerValues)]

theorem setData_averages_oneLandPoint :
    ∃ changed, setData (fun _ => PTime.hours 12) 0 "T.2M" (Bytes.str "arome") oneLandPoint [⟨1, 0⟩]
        noonValues noonLocation = noonLocation.insert ⟨600000000, 100000000⟩ changed ∧
      changed.cell? (.ticks (PTime.hours 12), .ticks (PTime.hours 12), Bytes.str "arome") =
        (noonTemperature.cell?
            (.ticks (PTime.hours 12), .ticks (PTime.hours 12), Bytes.str "arome")).map
          (withAverage (fun _ => PTime.hours 12) 0 .T2M_NO_ADIABATIC_HIGHT_CORRECTION .T2M
            oneLandPoint innerValues [⟨1, 0⟩] (.ticks (PTime.hours 12))) := by
  have found : landPoints oneLandPoint = .ok (some (1, [⟨1, 0⟩])) := by decide +kernel
  have sets : SetPDataHelper.init (setParamname "T.2M") =
      some .T2M_NO_ADIABATIC_HIGHT_CORRECTION := by decide
  have gets : SetPDataHelper.init "T.2M" = some .T2M := by decide
  have isFirst : noonLocation.entries.head? = some (⟨600000000, 100000000⟩, noonTemperature) := rfl
  obtain ⟨⟨changed, isChanged, averages⟩, _⟩ := setData_averages rfl found
    (fun _ => PTime.hours 12) 0 sets gets (Bytes.str "arome") oneLandPoint noonValues isFirst
  refine ⟨changed, isChanged, averages.averaged _ _ innerValues rfl ?_⟩
  decide +kernel

end OneLandPoint

end NearestLand

end Wdb2ts
