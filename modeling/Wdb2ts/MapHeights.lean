import Mathlib.Algebra.Order.Floor.Ring
import Wdb2ts.Map

/-!
# The heights of the points of a map

With exact arithmetic every point of a map has a height, but those on its right and on its lower
edge.
-/

namespace Wdb2ts

namespace Map

variable (map : Map ℚ)

/-- The closed square of a cell. -/
structure CellContains (r c : ℤ) (x y : ℚ) : Prop where
  left : map.xllcorner_ + c * map.cellsize_ ≤ x
  right : x ≤ map.xllcorner_ + (c + 1) * map.cellsize_
  lower : map.yurcorner_ - (r + 1) * map.cellsize_ ≤ y
  upper : y ≤ map.yurcorner_ - r * map.cellsize_

/-- The closed rectangle of a map. -/
structure Contains (x y : ℚ) : Prop where
  left : map.xllcorner_ ≤ x
  right : x ≤ map.xurcorner_
  lower : map.yllcorner_ ≤ y
  upper : y ≤ map.yurcorner_

/-- A point has the height of a cell that contains it. -/
def HasHeight (lat lon x y : ℚ) : Prop :=
  ∃ r c value, map.altitude lat lon = (some value, false) ∧ map.matrix.InRange r c ∧
    map.matrix.get r c = .ok value ∧ map.CellContains r c x y

/-- The column of a point. -/
def column (x : ℚ) : ℤ := ⌊(x - map.xllcorner_) / map.cellsize_⌋

/-- The row of a point, which is counted from the top. -/
def row (y : ℚ) : ℤ := ⌊map.nrows_ - (y - map.yllcorner_) / map.cellsize_⌋

/-! ## Rows and columns -/

section Grid

variable {map} {x y : ℚ} (cellsize : 1 ≤ map.cellsize_) (inside : map.Contains x y)

include cellsize

theorem cellsize_pos : (0 : ℚ) < map.cellsize_ := by
  exact_mod_cast lt_of_lt_of_le zero_lt_one cellsize

omit cellsize in
theorem xurcorner_eq : map.xurcorner_ = map.xllcorner_ + map.ncols_ * map.cellsize_ := by
  rw [map.right]
  push_cast
  rfl

omit cellsize in
theorem yurcorner_eq : map.yurcorner_ = map.yllcorner_ + map.nrows_ * map.cellsize_ := by
  rw [map.top]
  push_cast
  rfl

/-- A point has a column unless it is on the right edge. -/
theorem column_lt_iff (x : ℚ) : map.column x < map.ncols_ ↔ x < map.xurcorner_ := by
  rw [column, Int.floor_lt, div_lt_iff₀ (cellsize_pos cellsize), xurcorner_eq, sub_lt_iff_lt_add']

/-- A point has a row unless it is on the lower edge. -/
theorem row_lt_iff (y : ℚ) : map.row y < map.nrows_ ↔ map.yllcorner_ < y := by
  rw [row, Int.floor_lt, sub_lt_self_iff, div_pos_iff_of_pos_right (cellsize_pos cellsize), sub_pos]

include inside

theorem column_nonneg : 0 ≤ map.column x :=
  Int.floor_nonneg.mpr (div_nonneg (sub_nonneg.mpr inside.left) (cellsize_pos cellsize).le)

/-- The rows above a point. -/
theorem rows_above_nonneg : 0 ≤ map.nrows_ - (y - map.yllcorner_) / map.cellsize_ := by
  have upper := inside.upper
  rw [yurcorner_eq] at upper
  rw [sub_nonneg, div_le_iff₀ (cellsize_pos cellsize)]
  linarith

theorem row_nonneg : 0 ≤ map.row y := Int.floor_nonneg.mpr (rows_above_nonneg cellsize inside)

theorem column_le : map.column x ≤ map.ncols_ := by
  have atMost : (map.column x : ℚ) ≤ map.ncols_ := by
    refine (Int.floor_le _).trans ?_
    have right := inside.right
    rw [xurcorner_eq] at right
    rw [div_le_iff₀ (cellsize_pos cellsize)]
    linarith
  exact_mod_cast atMost

theorem row_le : map.row y ≤ map.nrows_ := by
  have atMost : (map.row y : ℚ) ≤ map.nrows_ := by
    refine (Int.floor_le _).trans ?_
    exact sub_le_self _ (div_nonneg (sub_nonneg.mpr inside.lower) (cellsize_pos cellsize).le)
  exact_mod_cast atMost

omit inside

theorem cellContains : map.CellContains (map.row y) (map.column x) x y := by
  have positive := cellsize_pos cellsize
  have columnLe := (le_div_iff₀ positive).mp (Int.floor_le ((x - map.xllcorner_) / map.cellsize_))
  have ltColumn := (div_lt_iff₀ positive).mp
    (Int.lt_floor_add_one ((x - map.xllcorner_) / map.cellsize_))
  have rowLe := Int.floor_le (map.nrows_ - (y - map.yllcorner_) / map.cellsize_)
  have ltRow := Int.lt_floor_add_one (map.nrows_ - (y - map.yllcorner_) / map.cellsize_)
  have belowTop := (div_le_iff₀ positive).mp (le_sub_comm.mp rowLe)
  have aboveBottom := (lt_div_iff₀ positive).mp (sub_lt_comm.mp ltRow)
  constructor
  · rw [column]
    linarith
  · rw [column]
    linarith
  · rw [yurcorner_eq, row]
    linarith
  · rw [yurcorner_eq, row]
    linarith

end Grid

/-! ## Heights -/

/-- The lookup of a point that is projected into the map. -/
theorem altitude_eq {map : Map ℚ} (cellsize : 1 ≤ map.cellsize_) {lat lon x y : ℚ}
    (projected : map.latLonToXY.bind (fun project => project lat lon) = some (x, y))
    (inside : map.Contains x y) :
    map.altitude lat lon =
      match map.matrix.get (map.row y) (map.column x) with
      | .ok alt => (some alt, false)
      | .error _ => (none, true) := by
  have notOut : ¬(x < map.xllcorner_ ∨ map.xurcorner_ < x ∨ y < map.yllcorner_ ∨
      map.yurcorner_ < y) := by
    rintro (left | right | lower | upper)
    · exact left.not_ge inside.left
    · exact right.not_ge inside.right
    · exact lower.not_ge inside.lower
    · exact upper.not_ge inside.upper
  have isColumn : Floats.toInt ((x - map.xllcorner_) / lit map.cellsize_) = map.column x :=
    if_neg (div_nonneg (sub_nonneg.mpr inside.left) (cellsize_pos cellsize).le).not_gt
  have isRow : Floats.toInt (lit map.nrows_ - (y - map.yllcorner_) / lit map.cellsize_) =
      map.row y := if_neg (rows_above_nonneg cellsize inside).not_gt
  have inLimits : ¬(map.column x < 0 ∨ map.ncols_ < map.column x ∨ map.row y < 0 ∨
      map.nrows_ < map.row y) := by
    rintro (left | right | upper | lower)
    · exact left.not_ge (column_nonneg cellsize inside)
    · exact right.not_ge (column_le cellsize inside)
    · exact upper.not_ge (row_nonneg cellsize inside)
    · exact lower.not_ge (row_le cellsize inside)
  cases cell : map.matrix.get (map.row y) (map.column x) with
  | error failure =>
      simp only [altitude, projected, if_neg notOut, isColumn, isRow, if_neg inLimits, cell]
  | ok alt => simp only [altitude, projected, if_neg notOut, isColumn, isRow, if_neg inLimits, cell]

/-- A point of a map has a height exactly when it is neither on the right nor on the lower
edge. -/
theorem hasHeight_iff {map : Map ℚ} (cellsize : 1 ≤ map.cellsize_) {lat lon x y : ℚ}
    (projected : map.latLonToXY.bind (fun project => project lat lon) = some (x, y))
    (inside : map.Contains x y) :
    map.HasHeight lat lon x y ↔ x < map.xurcorner_ ∧ map.yllcorner_ < y := by
  have isAltitude := altitude_eq cellsize projected inside
  constructor
  · rintro ⟨r, c, value, found, inRange, isValue, contains⟩
    rw [← column_lt_iff cellsize x, ← row_lt_iff cellsize y]
    by_contra outside
    have beyond : map.matrix.nRows ≤ map.row y ∨ map.matrix.nCols ≤ map.column x := by
      rw [map.rows, map.cols]
      omega
    rw [isAltitude, Matrix.get_eq_error map.hasMemory beyond] at found
    cases found
  · rintro ⟨notRight, notLower⟩
    have inRange : map.matrix.InRange (map.row y) (map.column x) :=
      { row_nonneg := row_nonneg cellsize inside
        row_lt := by
          rw [map.rows]
          exact (row_lt_iff cellsize y).mpr notLower
        col_nonneg := column_nonneg cellsize inside
        col_lt := by
          rw [map.cols]
          exact (column_lt_iff cellsize x).mpr notRight }
    rcases Matrix.exists_get inRange with ⟨value, isValue⟩
    refine ⟨map.row y, map.column x, value, ?_, inRange, isValue, cellContains cellsize⟩
    rw [isAltitude, isValue]

/-- A map of one cell of one metre, whose height is 7. -/
def oneCell : Map ℚ where
  ncols_ := 1
  nrows_ := 1
  xllcorner_ := 0
  yllcorner_ := 0
  xurcorner_ := 1
  yurcorner_ := 1
  cellsize_ := 1
  NODATA_value_ := -99
  latLonToXY := some fun lat lon => some (lon, lat)
  matrix := ⟨1, 1, some [7], by simp⟩
  hasMemory := rfl
  rows := rfl
  cols := rfl
  right := by norm_num [lit]
  top := by norm_num [lit]

theorem oneCell_contains {x y : ℚ} (left : 0 ≤ x) (right : x ≤ 1) (lower : 0 ≤ y) (upper : y ≤ 1) :
    oneCell.Contains x y := ⟨left, right, lower, upper⟩

theorem hasHeight_iff_middle :
    oneCell.HasHeight (1 / 2) (1 / 2) (1 / 2) (1 / 2) ↔
      1 / 2 < oneCell.xurcorner_ ∧ oneCell.yllcorner_ < 1 / 2 :=
  hasHeight_iff le_rfl rfl
    (oneCell_contains (by norm_num) (by norm_num) (by norm_num) (by norm_num))

/-- A point on the right edge has no height, and the lookup reports an error. -/
theorem not_hasHeight_rightEdge :
    oneCell.Contains 1 (1 / 2) ∧ oneCell.altitude (1 / 2) 1 = (none, true) ∧
      ¬oneCell.HasHeight (1 / 2) 1 1 (1 / 2) := by
  have fails : oneCell.altitude (1 / 2) 1 = (none, true) := by decide +kernel
  refine ⟨oneCell_contains (by norm_num) (by norm_num) (by norm_num) (by norm_num), fails, ?_⟩
  rintro ⟨r, c, value, found, _⟩
  rw [fails] at found
  cases found

end Map

end Wdb2ts
