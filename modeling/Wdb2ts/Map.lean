import Wdb2ts.Floats

/-!
# Height maps

A `Map` holds the heights of a grid of square cells, whose first row is the northernmost one.
`altitude` looks up the cell of a point.  Its bounds take the right and the lower edge of the
map in, but the matrix has no cells for them.
-/

namespace Wdb2ts

/-- How a function fails: by an exception that leaves it, or by an operation whose result is not
defined. -/
inductive Failure where
  | rangeError (what : Bytes)
  | undefined
  deriving DecidableEq, Repr

/-- A number that an `int` holds. -/
def FitsInt (number : ℤ) : Prop := INT_MIN ≤ number ∧ number ≤ INT_MAX

instance (number : ℤ) : Decidable (FitsInt number) := inferInstanceAs (Decidable (_ ∧ _))

/-! ## Matrices -/

/-- A `Matrix`.  Without memory `mat` is null. -/
structure Matrix where
  nRows : ℤ
  nCols : ℤ
  mat : Option (List ℤ)
  sized : ∀ cells ∈ mat, (cells.length : ℤ) = nRows * nCols

namespace Matrix

/-- `Matrix::init`, when an `int` holds the number of cells.  The new cells hold what was in the
memory before.  A negative number of cells makes `new` throw, which is caught. -/
def init (uninitialised : ℕ → ℤ) (rows cols : ℤ) : Matrix where
  nRows := rows
  nCols := cols
  mat :=
    if 0 ≤ rows * cols then some ((List.range (rows * cols).toNat).map uninitialised) else none
  sized := by
    intro cells isMat
    split at isMat
    · rename_i nonneg
      cases isMat
      rw [List.length_map, List.length_range, Int.toNat_of_nonneg nonneg]
    · cases isMat

/-- `Matrix::valid`. -/
def valid (matrix : Matrix) : Bool := matrix.mat.isSome

/-- The text of the `range_error`. -/
def indexOutOfRange : Bytes := Bytes.str "Index out of range!"

/-- The position of a cell in the memory. -/
def index (matrix : Matrix) (r c : ℤ) : ℤ := matrix.nCols * r + c

/-- `Matrix::set`. -/
def set (matrix : Matrix) (r c val : ℤ) : Except Failure Matrix :=
  match isMat : matrix.mat with
  | none => .ok matrix
  | some cells =>
      if r ≥ matrix.nRows ∨ c ≥ matrix.nCols then .error (.rangeError indexOutOfRange)
      else if 0 ≤ matrix.index r c ∧ matrix.index r c < cells.length then
        .ok
          { nRows := matrix.nRows
            nCols := matrix.nCols
            mat := some (cells.set (matrix.index r c).toNat val)
            sized := by
              intro changed isChanged
              cases isChanged
              rw [List.length_set]
              exact matrix.sized cells isMat }
      else .error .undefined

/-- `Matrix::get`. -/
def get (matrix : Matrix) (r c : ℤ) : Except Failure ℤ :=
  match matrix.mat with
  | none => .ok 0
  | some cells =>
      if r ≥ matrix.nRows ∨ c ≥ matrix.nCols then .error (.rangeError indexOutOfRange)
      else if matrix.index r c < 0 then .error .undefined
      else
        match cells[(matrix.index r c).toNat]? with
        | some value => .ok value
        | none => .error .undefined

/-- A matrix keeps its size and its memory when a cell is set. -/
theorem set_eq_ok {matrix changed : Matrix} {r c val : ℤ}
    (sets : matrix.set r c val = .ok changed) :
    changed.nRows = matrix.nRows ∧ changed.nCols = matrix.nCols ∧
      changed.valid = matrix.valid := by
  rw [set] at sets
  split at sets
  · cases sets
    exact ⟨rfl, rfl, rfl⟩
  · rename_i cells isMat
    split at sets
    · cases sets
    · split at sets
      · cases sets
        exact ⟨rfl, rfl, (congrArg Option.isSome isMat).symm⟩
      · cases sets

/-- A row and a column of a matrix. -/
structure InRange (matrix : Matrix) (r c : ℤ) : Prop where
  row_nonneg : 0 ≤ r
  row_lt : r < matrix.nRows
  col_nonneg : 0 ≤ c
  col_lt : c < matrix.nCols

variable {matrix : Matrix} {r c : ℤ}

theorem InRange.index_nonneg (inRange : matrix.InRange r c) : 0 ≤ matrix.index r c := by
  have product := mul_nonneg (inRange.col_nonneg.trans inRange.col_lt.le) inRange.row_nonneg
  exact add_nonneg product inRange.col_nonneg

theorem InRange.index_lt (inRange : matrix.InRange r c) :
    matrix.index r c < matrix.nRows * matrix.nCols := by
  have columns := inRange.col_nonneg.trans inRange.col_lt.le
  calc matrix.nCols * r + c
      < matrix.nCols * r + matrix.nCols := by linarith [inRange.col_lt]
    _ = matrix.nCols * (r + 1) := by ring
    _ ≤ matrix.nCols * matrix.nRows :=
        mul_le_mul_of_nonneg_left (Int.add_one_le_of_lt inRange.row_lt) columns
    _ = matrix.nRows * matrix.nCols := mul_comm _ _

/-- Different cells have different positions. -/
theorem InRange.index_inj (inRange : matrix.InRange r c) {r' c' : ℤ}
    (other : matrix.InRange r' c') (same : matrix.index r c = matrix.index r' c') :
    r = r' ∧ c = c' := by
  have row (r c : ℤ) (inRange : matrix.InRange r c) : matrix.index r c / matrix.nCols = r := by
    have positive := inRange.col_nonneg.trans_lt inRange.col_lt
    rw [index, Int.mul_add_ediv_left _ _ positive.ne',
      Int.ediv_eq_zero_of_lt inRange.col_nonneg inRange.col_lt, add_zero]
  have rows : r = r' := by
    rw [← row r c inRange, same, row r' c' other]
  refine ⟨rows, ?_⟩
  rw [index, index, rows] at same
  exact add_left_cancel same

theorem InRange.not_outside (inRange : matrix.InRange r c) :
    ¬(r ≥ matrix.nRows ∨ c ≥ matrix.nCols) := by
  intro outside
  cases outside with
  | inl row => exact row.not_gt inRange.row_lt
  | inr column => exact column.not_gt inRange.col_lt

/-- The value of a cell is that at its position. -/
theorem get_eq_ok_iff {cells : List ℤ} (isMat : matrix.mat = some cells)
    (inRange : matrix.InRange r c) {value : ℤ} :
    matrix.get r c = .ok value ↔ cells[(matrix.index r c).toNat]? = some value := by
  simp only [get, isMat, if_neg inRange.not_outside, if_neg inRange.index_nonneg.not_gt]
  cases cells[(matrix.index r c).toNat]? with
  | none => simp
  | some stored => simp

/-- A cell of a matrix has a value. -/
theorem exists_get (inRange : matrix.InRange r c) : ∃ value, matrix.get r c = .ok value := by
  cases isMat : matrix.mat with
  | none => exact ⟨0, by simp only [get, isMat]⟩
  | some cells =>
      have inside : (matrix.index r c).toNat < cells.length := by
        have size := matrix.sized cells isMat
        have less := inRange.index_lt
        have nonneg := inRange.index_nonneg
        omega
      refine ⟨cells[(matrix.index r c).toNat], ?_⟩
      rw [get_eq_ok_iff isMat inRange]
      exact List.getElem?_eq_getElem inside

/-- A matrix with memory has no other rows and columns. -/
theorem get_eq_error (hasMemory : matrix.valid = true)
    (outside : matrix.nRows ≤ r ∨ matrix.nCols ≤ c) :
    matrix.get r c = .error (.rangeError indexOutOfRange) := by
  cases isMat : matrix.mat with
  | none =>
      rw [valid, isMat] at hasMemory
      cases hasMemory
  | some cells => simp only [get, isMat, ge_iff_le, if_pos outside]

/-- Setting a cell of a matrix with memory. -/
theorem set_of_inRange {cells : List ℤ} (isMat : matrix.mat = some cells)
    (inRange : matrix.InRange r c) (val : ℤ) :
    ∃ changed, matrix.set r c val = .ok changed ∧
      changed.mat = some (cells.set (matrix.index r c).toNat val) := by
  have inside : 0 ≤ matrix.index r c ∧ matrix.index r c < cells.length := by
    rw [matrix.sized cells isMat]
    exact ⟨inRange.index_nonneg, inRange.index_lt⟩
  rw [set]
  split
  · rename_i isNone
    cases isMat.symm.trans isNone
  · rename_i stored isStored
    cases isMat.symm.trans isStored
    rw [if_neg inRange.not_outside, if_pos inside]
    exact ⟨_, rfl, rfl⟩

/-- A matrix with memory has no cell to set behind its rows and columns. -/
theorem set_eq_error (hasMemory : matrix.valid = true)
    (outside : matrix.nRows ≤ r ∨ matrix.nCols ≤ c) (val : ℤ) :
    matrix.set r c val = .error (.rangeError indexOutOfRange) := by
  rw [set]
  split
  · rename_i isNone
    rw [valid, isNone] at hasMemory
    cases hasMemory
  · exact if_pos outside

/-- A cell that is set has the new value, and the others keep theirs. -/
theorem get_set {changed : Matrix} {val : ℤ} (hasMemory : matrix.valid = true)
    (inRange : matrix.InRange r c) (sets : matrix.set r c val = .ok changed) {r' c' value : ℤ}
    (other : matrix.InRange r' c') :
    changed.get r' c' = .ok value ↔
      if r' = r ∧ c' = c then value = val else matrix.get r' c' = .ok value := by
  rcases Option.isSome_iff_exists.mp hasMemory with ⟨cells, isMat⟩
  rcases set_of_inRange isMat inRange val with ⟨result, isResult, isChanged⟩
  cases sets.symm.trans isResult
  have size := set_eq_ok sets
  have sameIndex : changed.index r' c' = matrix.index r' c' := by
    rw [index, index, size.2.1]
  have inChanged : changed.InRange r' c' :=
    ⟨other.row_nonneg, size.1 ▸ other.row_lt, other.col_nonneg, size.2.1 ▸ other.col_lt⟩
  have nonneg := inRange.index_nonneg
  have otherNonneg := other.index_nonneg
  have less := inRange.index_lt
  have length := matrix.sized cells isMat
  rw [get_eq_ok_iff isChanged inChanged, get_eq_ok_iff isMat other, sameIndex, List.getElem?_set]
  by_cases isCell : r' = r ∧ c' = c
  · rcases isCell with ⟨rfl, rfl⟩
    have inside : (matrix.index r' c').toNat < cells.length := by omega
    simp [inside, eq_comm]
  · have differ : (matrix.index r c).toNat ≠ (matrix.index r' c').toNat := by
      intro same
      have sameCell := inRange.index_inj other (by omega)
      exact isCell ⟨sameCell.1.symm, sameCell.2.symm⟩
    rw [if_neg differ, if_neg isCell]

end Matrix

/-! ## Maps -/

/-- A `Map` that was loaded.  The projection from latitude and longitude is that of `pjFrom_` and
`pjTo_`, when both could be initialised. -/
structure Map (F : Type) [Floats F] where
  ncols_ : ℤ
  nrows_ : ℤ
  xllcorner_ : F
  yllcorner_ : F
  xurcorner_ : F
  yurcorner_ : F
  cellsize_ : ℤ
  NODATA_value_ : ℤ
  latLonToXY : Option (F → F → Option (F × F))
  matrix : Matrix
  hasMemory : matrix.valid = true
  rows : matrix.nRows = nrows_
  cols : matrix.nCols = ncols_
  right : xurcorner_ = xllcorner_ + lit ((ncols_ * cellsize_ : ℤ) : ℚ)
  top : yurcorner_ = yllcorner_ + lit ((nrows_ * cellsize_ : ℤ) : ℚ)

namespace Map

variable {F : Type} [Floats F]

/-- `map->matrix.set`. -/
def setCell (map : Map F) (r c val : ℤ) : Except Failure (Map F) :=
  match sets : map.matrix.set r c val with
  | .ok matrix =>
      have same := Matrix.set_eq_ok sets
      .ok
        { map with
          matrix := matrix
          hasMemory := same.2.2.trans map.hasMemory
          rows := same.1.trans map.rows
          cols := same.2.1.trans map.cols }
  | .error failure => .error failure

/-- The grid of a map is not changed by setting a cell. -/
theorem setCell_eq_ok {map changed : Map F} {r c val : ℤ}
    (sets : map.setCell r c val = .ok changed) :
    changed.nrows_ = map.nrows_ ∧ changed.ncols_ = map.ncols_ ∧
      map.matrix.set r c val = .ok changed.matrix := by
  rw [setCell] at sets
  split at sets
  · rename_i matrix isSet
    cases sets
    exact ⟨rfl, rfl, isSet⟩
  · cases sets

/-- The cells of a map are those of its grid. -/
theorem inRange_iff {map : Map F} {r c : ℤ} :
    map.matrix.InRange r c ↔ 0 ≤ r ∧ r < map.nrows_ ∧ 0 ≤ c ∧ c < map.ncols_ := by
  rw [← map.rows, ← map.cols]
  constructor
  · intro inRange
    exact ⟨inRange.row_nonneg, inRange.row_lt, inRange.col_nonneg, inRange.col_lt⟩
  · rintro ⟨row_nonneg, row_lt, col_nonneg, col_lt⟩
    exact ⟨row_nonneg, row_lt, col_nonneg, col_lt⟩

/-- Maps of one size have the same cells. -/
theorem inRange_of_size_eq {map other : Map F} (nrows : other.nrows_ = map.nrows_)
    (ncols : other.ncols_ = map.ncols_) {r c : ℤ} (inRange : map.matrix.InRange r c) :
    other.matrix.InRange r c := by
  rw [inRange_iff] at inRange ⊢
  rwa [nrows, ncols]

/-- A cell can be set exactly when it is in the grid. -/
theorem exists_setCell_iff {map : Map F} {r c : ℤ} (row_nonneg : 0 ≤ r) (col_nonneg : 0 ≤ c)
    (val : ℤ) :
    (∃ changed, map.setCell r c val = .ok changed) ↔ r < map.nrows_ ∧ c < map.ncols_ := by
  constructor
  · rintro ⟨changed, sets⟩
    by_contra outside
    have isError := Matrix.set_eq_error map.hasMemory
      (by rw [map.rows, map.cols]; omega : map.matrix.nRows ≤ r ∨ map.matrix.nCols ≤ c) val
    rw [(setCell_eq_ok sets).2.2] at isError
    cases isError
  · rintro ⟨row_lt, col_lt⟩
    have inRange : map.matrix.InRange r c := inRange_iff.mpr ⟨row_nonneg, row_lt, col_nonneg, col_lt⟩
    rcases Option.isSome_iff_exists.mp map.hasMemory with ⟨cells, isMat⟩
    rcases Matrix.set_of_inRange isMat inRange val with ⟨matrix, isSet, _⟩
    rw [setCell]
    split
    · exact ⟨_, rfl⟩
    · rename_i failure isError
      cases isSet.symm.trans isError

/-- `Map::altitude`: the altitude, if there is one, and `error`. -/
def altitude [DecidableLT F] (map : Map F) (lat lon : F) :
    Option ℤ × Bool :=
  match map.latLonToXY.bind fun project => project lat lon with
  | none => (none, true)
  | some (x, y) =>
      if x < map.xllcorner_ ∨ map.xurcorner_ < x ∨ y < map.yllcorner_ ∨ map.yurcorner_ < y then
        (none, false)
      else
        let iX := Floats.toInt ((x - map.xllcorner_) / lit map.cellsize_)
        let iY := Floats.toInt (lit map.nrows_ - (y - map.yllcorner_) / lit map.cellsize_)
        if iX < 0 ∨ map.ncols_ < iX ∨ iY < 0 ∨ map.nrows_ < iY then (none, true)
        else
          match map.matrix.get iY iX with
          | .ok alt => (some alt, false)
          | .error _ => (none, true)

end Map

end Wdb2ts
