import Wdb2ts.DecodeRows

/-!
# The coordinates of a point

A `LocationPoint` holds its coordinates in units of 1e-7 degrees.  `set` adds half a unit and
truncates, which rounds to the nearest unit from zero on but not below it, and `get` divides
the units as integers.  Both agree with the coordinates only next to a whole degree from zero on.
-/

namespace Wdb2ts

namespace LocationPoint

section Floats

variable {F : Type} [Floats F]

/-- `LATLONG_DEG2INT`. -/
def LATLONG_DEG2INT : ℤ := 10000000

/-- `int((coordinate+ROUND_BEFORE_DEG2INT)*LATLONG_DEG2INT)`. -/
def deg2int (coordinate : F) : ℤ :=
  Floats.toInt ((coordinate + lit (1 / 20000000)) * lit LATLONG_DEG2INT)

/-- `LocationPoint::set`, which throws when a coordinate is out of range. -/
def setCoordinates [DecidableLT F] (latitude longitude : F) : Option LocationPoint :=
  if lit 90 < latitude ∨ latitude < lit (-90) then none
  else if lit 180 < longitude ∨ longitude < lit (-180) then none
  else some ⟨deg2int latitude, deg2int longitude⟩

/-- `float(units)/LATLONG_DEG2INT`. -/
def int2deg (units : ℤ) : F := lit units / lit LATLONG_DEG2INT

/-- `LocationPoint::latitude`, which throws when the point is not initialized. -/
def latitude? (point : LocationPoint) : Option F :=
  if point.latitude = INT_MIN then none else some (int2deg point.latitude)

/-- `LocationPoint::longitude`. -/
def longitude? (point : LocationPoint) : Option F :=
  if point.longitude = INT_MIN then none else some (int2deg point.longitude)

/-- `units/LATLONG_DEG2INT`, a division of integers. -/
def wholeDegrees (units : ℤ) : F := lit (units.tdiv LATLONG_DEG2INT)

/-- `LocationPoint::get`, which throws when the point is not initialized. -/
def get (point : LocationPoint) : Option (F × F) :=
  if point.latitude = INT_MIN ∨ point.longitude = INT_MIN then none
  else some (wholeDegrees point.latitude, wholeDegrees point.longitude)

end Floats

/-- The rows of a result set their points in the same way. -/
theorem set_eq_setCoordinates {F : Type} [RowReading F] [DecidableLT F] (latitude longitude : F) :
    LocationPoint.set latitude longitude = setCoordinates latitude longitude := by
  simp only [LocationPoint.set, setCoordinates, deg2int, LATLONG_DEG2INT, Int.cast_ofNat]

/-! ## Consistent coordinates -/

/-- The units are nearest to the degrees. -/
def IsNearest (units : ℤ) (degrees : ℚ) : Prop := |(units : ℚ) - 10000000 * degrees| ≤ 1 / 2

/-- The point of the coordinates has the nearest units, it stays when it is set from its own
coordinates, and `get` reports them as well. -/
structure KeepsCoordinates (latitude longitude : ℚ) (point : LocationPoint) : Prop where
  isSet : setCoordinates latitude longitude = some point
  latitude_nearest : IsNearest point.latitude latitude
  longitude_nearest : IsNearest point.longitude longitude
  reads : ∃ ownLatitude ownLongitude : ℚ, point.latitude? = some ownLatitude ∧
    point.longitude? = some ownLongitude ∧
      setCoordinates ownLatitude ownLongitude = some point ∧
        point.get = some (ownLatitude, ownLongitude)

/-- The coordinate is within half a unit of a whole degree from zero on. -/
def NearWholeDegree (coordinate : ℚ) : Prop :=
  ∃ degrees : ℕ, (degrees : ℚ) - 1 / 20000000 ≤ coordinate ∧
    coordinate < (degrees : ℚ) + 1 / 20000000

/-! ## One coordinate -/

theorem toInt_of_nonneg {value : ℚ} (nonneg : 0 ≤ value) : Floats.toInt value = ⌊value⌋ :=
  if_neg (not_lt.mpr nonneg)

theorem toInt_of_neg {value : ℚ} (negative : value < 0) : Floats.toInt value = ⌈value⌉ :=
  if_pos negative

/-- Truncating after half a unit is added keeps the numbers from zero on. -/
theorem toInt_add_half_eq_iff (units : ℤ) :
    Floats.toInt ((units : ℚ) + 1 / 2) = units ↔ 0 ≤ units := by
  constructor
  · intro same
    by_contra negative
    have atMost : (units : ℚ) ≤ -1 := by
      exact_mod_cast Int.le_sub_one_of_lt (not_le.mp negative)
    rw [toInt_of_neg (by linarith), Int.ceil_eq_iff] at same
    linarith [same.2]
  · intro nonneg
    have atLeast : (0 : ℚ) ≤ units := by exact_mod_cast nonneg
    rw [toInt_of_nonneg (by linarith), Int.floor_eq_iff]
    constructor
    · linarith
    · linarith

theorem deg2int_int2deg (units : ℤ) :
    deg2int (int2deg units : ℚ) = Floats.toInt ((units : ℚ) + 1 / 2) := by
  have scaled : ((units : ℚ) / 10000000 + 1 / 20000000) * 10000000 = (units : ℚ) + 1 / 2 := by
    ring
  exact congrArg Floats.toInt scaled

/-- Integer division of the units loses nothing exactly for whole degrees. -/
theorem wholeDegrees_eq_iff (units : ℤ) :
    (wholeDegrees units : ℚ) = int2deg units ↔ LATLONG_DEG2INT ∣ units := by
  have shape : (wholeDegrees units : ℚ) = int2deg units ↔
      ((units.tdiv 10000000 : ℤ) : ℚ) = (units : ℚ) / 10000000 := Iff.rfl
  rw [shape, eq_div_iff (by norm_num)]
  constructor
  · intro same
    have exact_ : units.tdiv 10000000 * 10000000 = units := by exact_mod_cast same
    exact Dvd.intro_left _ exact_
  · rintro ⟨degrees, rfl⟩
    rw [LATLONG_DEG2INT, Int.mul_tdiv_cancel_left _ (by norm_num)]
    push_cast
    ring

/-- The units of a coordinate within half a unit of a whole degree. -/
theorem deg2int_of_near {coordinate : ℚ} {degrees : ℕ}
    (above : (degrees : ℚ) - 1 / 20000000 ≤ coordinate)
    (below : coordinate < (degrees : ℚ) + 1 / 20000000) :
    deg2int coordinate = LATLONG_DEG2INT * degrees := by
  have nonneg : (0 : ℚ) ≤ degrees := Nat.cast_nonneg degrees
  have shape : deg2int coordinate = Floats.toInt ((coordinate + 1 / 20000000) * 10000000) := rfl
  rw [shape, toInt_of_nonneg (by linarith), Int.floor_eq_iff, LATLONG_DEG2INT]
  push_cast
  constructor
  · linarith
  · linarith

/-- The nearest units that are whole degrees from zero on. -/
theorem near_of_deg2int {coordinate : ℚ} (nearest : IsNearest (deg2int coordinate) coordinate)
    (nonneg : 0 ≤ deg2int coordinate) (whole : LATLONG_DEG2INT ∣ deg2int coordinate) :
    NearWholeDegree coordinate := by
  obtain ⟨degrees, isWhole⟩ := whole
  have shape : deg2int coordinate = Floats.toInt ((coordinate + 1 / 20000000) * 10000000) := rfl
  have fromZero : 0 ≤ degrees := by
    rw [isWhole, LATLONG_DEG2INT] at nonneg
    omega
  obtain ⟨count, rfl⟩ := Int.eq_ofNat_of_zero_le fromZero
  have rounded : 0 ≤ (coordinate + 1 / 20000000) * 10000000 := by
    have bounds := abs_le.mp nearest
    have units : (0 : ℚ) ≤ deg2int coordinate := by exact_mod_cast nonneg
    linarith [bounds.2]
  rw [shape, toInt_of_nonneg rounded, Int.floor_eq_iff, LATLONG_DEG2INT] at isWhole
  push_cast at isWhole
  refine ⟨count, ?_, ?_⟩
  · linarith [isWhole.1]
  · linarith [isWhole.2]

/-! ## Both coordinates -/

theorem setCoordinates_eq {latitude longitude : ℚ} (latitudes : latitude ∈ Set.Icc (-90) 90)
    (longitudes : longitude ∈ Set.Icc (-180) 180) :
    setCoordinates latitude longitude = some ⟨deg2int latitude, deg2int longitude⟩ := by
  have latitudeRange : ¬((lit 90 : ℚ) < latitude ∨ latitude < lit (-90)) := by
    rintro (above | below)
    · exact absurd latitudes.2 (not_le.mpr above)
    · exact absurd latitudes.1 (not_le.mpr below)
  have longitudeRange : ¬((lit 180 : ℚ) < longitude ∨ longitude < lit (-180)) := by
    rintro (above | below)
    · exact absurd longitudes.2 (not_le.mpr above)
    · exact absurd longitudes.1 (not_le.mpr below)
  rw [setCoordinates, if_neg latitudeRange, if_neg longitudeRange]

theorem eq_of_setCoordinates {latitude longitude : ℚ} {point : LocationPoint}
    (isSet : setCoordinates latitude longitude = some point) :
    point = ⟨deg2int latitude, deg2int longitude⟩ := by
  rw [setCoordinates] at isSet
  split at isSet
  · cases isSet
  · split at isSet
    · cases isSet
    · exact (Option.some.inj isSet).symm

theorem latitude?_of_ne {point : LocationPoint} (set : point.latitude ≠ INT_MIN) :
    (point.latitude? : Option ℚ) = some (int2deg point.latitude) := if_neg set

theorem longitude?_of_ne {point : LocationPoint} (set : point.longitude ≠ INT_MIN) :
    (point.longitude? : Option ℚ) = some (int2deg point.longitude) := if_neg set

theorem get_of_ne {point : LocationPoint} (latitudeSet : point.latitude ≠ INT_MIN)
    (longitudeSet : point.longitude ≠ INT_MIN) :
    (point.get : Option (ℚ × ℚ)) =
      some (wholeDegrees point.latitude, wholeDegrees point.longitude) :=
  if_neg (not_or.mpr ⟨latitudeSet, longitudeSet⟩)

/-- The degrees next to a coordinate within a whole range are within the range. -/
theorem near_int2deg {coordinate : ℚ} {bound : ℕ} (range : coordinate ∈ Set.Icc (-bound : ℚ) bound)
    (near : NearWholeDegree coordinate) :
    IsNearest (deg2int coordinate) coordinate ∧ 0 ≤ deg2int coordinate ∧
      LATLONG_DEG2INT ∣ deg2int coordinate ∧
        (int2deg (deg2int coordinate) : ℚ) ∈ Set.Icc (-bound : ℚ) bound := by
  obtain ⟨degrees, above, below⟩ := near
  have units := deg2int_of_near above below
  have small : degrees ≤ bound := by
    have atMost : (degrees : ℚ) < bound + 1 := by linarith [range.2]
    exact Nat.le_of_lt_succ (by exact_mod_cast atMost)
  have smallRat : (degrees : ℚ) ≤ bound := by exact_mod_cast small
  have nonneg : (0 : ℚ) ≤ degrees := Nat.cast_nonneg degrees
  have back : (int2deg (deg2int coordinate) : ℚ) = degrees := by
    have shape : (int2deg (deg2int coordinate) : ℚ) = (deg2int coordinate : ℚ) / 10000000 := rfl
    rw [shape, units, LATLONG_DEG2INT]
    push_cast
    ring
  refine ⟨?_, ?_, ?_, ?_⟩
  · rw [IsNearest, units, abs_le, LATLONG_DEG2INT]
    push_cast
    constructor
    · linarith
    · linarith
  · rw [units, LATLONG_DEG2INT]
    omega
  · rw [units]
    exact dvd_mul_right _ _
  · rw [back]
    constructor
    · linarith
    · exact smallRat

/-- One coordinate is nearest, stays and is reported exactly next to a whole degree from zero
on. -/
theorem near_of_reads {coordinate : ℚ} (nearest : IsNearest (deg2int coordinate) coordinate)
    (stays : deg2int (int2deg (deg2int coordinate) : ℚ) = deg2int coordinate)
    (reported : (wholeDegrees (deg2int coordinate) : ℚ) = int2deg (deg2int coordinate)) :
    NearWholeDegree coordinate := by
  rw [deg2int_int2deg] at stays
  exact near_of_deg2int nearest ((toInt_add_half_eq_iff _).mp stays)
    ((wholeDegrees_eq_iff _).mp reported)

theorem near_of_keepsCoordinates {latitude longitude : ℚ} {point : LocationPoint}
    (keeps : KeepsCoordinates latitude longitude point) :
    NearWholeDegree latitude ∧ NearWholeDegree longitude := by
  obtain ⟨ownLatitude, ownLongitude, isLatitude, isLongitude, again, got⟩ := keeps.reads
  have latitudeSet : point.latitude ≠ INT_MIN := by
    intro unset
    rw [latitude?, if_pos unset] at isLatitude
    cases isLatitude
  have longitudeSet : point.longitude ≠ INT_MIN := by
    intro unset
    rw [longitude?, if_pos unset] at isLongitude
    cases isLongitude
  rw [latitude?_of_ne latitudeSet, Option.some.injEq] at isLatitude
  rw [longitude?_of_ne longitudeSet, Option.some.injEq] at isLongitude
  rw [get_of_ne latitudeSet longitudeSet, Option.some.injEq, Prod.mk.injEq, ← isLatitude,
    ← isLongitude] at got
  have same := eq_of_setCoordinates again
  rw [← isLatitude, ← isLongitude] at same
  have latitudeStays := (congrArg LocationPoint.latitude same).symm
  have longitudeStays := (congrArg LocationPoint.longitude same).symm
  have nearestLatitude := keeps.latitude_nearest
  have nearestLongitude := keeps.longitude_nearest
  have units := eq_of_setCoordinates keeps.isSet
  rw [units] at got latitudeStays longitudeStays
  rw [units] at nearestLatitude nearestLongitude
  constructor
  · exact near_of_reads nearestLatitude latitudeStays got.1
  · exact near_of_reads nearestLongitude longitudeStays got.2

/-- A point keeps its coordinates exactly if both are next to a whole degree from zero on. -/
theorem keepsCoordinates_iff (latitude : Set.Icc (-90 : ℚ) 90)
    (longitude : Set.Icc (-180 : ℚ) 180) :
    (∃ point, KeepsCoordinates latitude longitude point) ↔
      NearWholeDegree latitude ∧ NearWholeDegree longitude := by
  constructor
  · rintro ⟨point, keeps⟩
    exact near_of_keepsCoordinates keeps
  · rintro ⟨nearLatitude, nearLongitude⟩
    have latitudes : (latitude : ℚ) ∈ Set.Icc (-(90 : ℕ) : ℚ) (90 : ℕ) := by
      exact_mod_cast latitude.2
    have longitudes : (longitude : ℚ) ∈ Set.Icc (-(180 : ℕ) : ℚ) (180 : ℕ) := by
      exact_mod_cast longitude.2
    obtain ⟨latitudeNearest, latitudeNonneg, latitudeWhole, latitudeRange⟩ :=
      near_int2deg latitudes nearLatitude
    obtain ⟨longitudeNearest, longitudeNonneg, longitudeWhole, longitudeRange⟩ :=
      near_int2deg longitudes nearLongitude
    have latitudeSet : deg2int latitude.1 ≠ INT_MIN := by
      rw [INT_MIN]
      omega
    have longitudeSet : deg2int longitude.1 ≠ INT_MIN := by
      rw [INT_MIN]
      omega
    refine ⟨⟨deg2int latitude.1, deg2int longitude.1⟩, ?_⟩
    constructor
    · exact setCoordinates_eq latitude.2 longitude.2
    · exact latitudeNearest
    · exact longitudeNearest
    · refine ⟨int2deg (deg2int latitude.1), int2deg (deg2int longitude.1),
        latitude?_of_ne latitudeSet, longitude?_of_ne longitudeSet, ?_, ?_⟩
      · have again := setCoordinates_eq (by exact_mod_cast latitudeRange)
          (by exact_mod_cast longitudeRange)
        rw [again, deg2int_int2deg, deg2int_int2deg, (toInt_add_half_eq_iff _).mpr latitudeNonneg,
          (toInt_add_half_eq_iff _).mpr longitudeNonneg]
      · rw [get_of_ne latitudeSet longitudeSet, (wholeDegrees_eq_iff _).mpr latitudeWhole,
          (wholeDegrees_eq_iff _).mpr longitudeWhole]

/-- Half a degree south of the equator is stored one unit off, and half a degree north of it is
no whole degree for `get`. -/
theorem not_keepsCoordinates_halfDegree :
    (¬∃ point, KeepsCoordinates (-1 / 2) 10 point) ∧
      ¬∃ point, KeepsCoordinates (1 / 2) 10 point := by
  constructor
  · rintro ⟨point, keeps⟩
    have units := eq_of_setCoordinates keeps.isSet
    have stored : deg2int (-1 / 2 : ℚ) = -4999999 := by decide +kernel
    have nearest := keeps.latitude_nearest
    rw [units, IsNearest, stored] at nearest
    norm_num at nearest
  · rintro ⟨point, keeps⟩
    have units := eq_of_setCoordinates keeps.isSet
    obtain ⟨ownLatitude, ownLongitude, isLatitude, _, _, got⟩ := keeps.reads
    have isGot : (point.get : Option (ℚ × ℚ)) = some (0, 10) := by
      rw [units]
      decide +kernel
    have isRead : (point.latitude? : Option ℚ) = some (1 / 2) := by
      rw [units]
      decide +kernel
    rw [isGot, Option.some.injEq, Prod.mk.injEq] at got
    rw [isRead, Option.some.injEq, ← got.1] at isLatitude
    norm_num at isLatitude

end LocationPoint

end Wdb2ts
