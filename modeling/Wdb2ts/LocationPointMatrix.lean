import Wdb2ts.Floats
import Wdb2ts.PointData

/-!
# Matrices of location points

The grid points around a location are read as the rows of a database result and stored in
a square matrix, one matrix for each valid-to time.
-/

namespace Wdb2ts

variable {F : Type}

/-- A `LocationPoint` with the value it carries. -/
structure LocationValue (F : Type) where
  point : LocationPoint
  value : F

/-- `LocationPointMatrix`, by its shape and the cell of each row and column. -/
structure LocationPointMatrix (F : Type) where
  shape : ℕ × ℕ
  cell : ℕ → ℕ → LocationValue F

namespace LocationPointMatrix

/-- Assign to one cell. -/
def set (matrix : LocationPointMatrix F) (row column : ℕ) (value : LocationValue F) :
    LocationPointMatrix F :=
  { matrix with cell := fun r c => if r = row ∧ c = column then value else matrix.cell r c }

variable [FloatLimits F]

/-- The point of a default constructed `LocationPoint`. -/
def undefinedPoint : LocationPoint := ⟨INT_MIN, INT_MIN⟩

/-- A matrix of default constructed points. -/
def undefined (n : ℕ) : LocationPointMatrix F := ⟨(n, n), fun _ _ => ⟨undefinedPoint, FLT_MIN⟩⟩

/-- `matrix != undefPointMatrix`, which compares the points. -/
def isSet (matrix : LocationPointMatrix F) : Bool :=
  (List.range matrix.shape.1).any fun row =>
    (List.range matrix.shape.2).any fun column =>
      decide ((matrix.cell row column).point ≠ undefinedPoint)

end LocationPointMatrix

/-! ## Reading a matrix -/

/-- The values of a `LocationPointMatrixTimeserie`. -/
abbrev LocationPointMatrixTimeserie (F : Type) := SortedMap PTime (PTime × LocationPointMatrix F)

namespace LocationPointMatrixTimeserie

/-- `LocationPointMatrixTimeserie::insert` without the permission to replace. -/
def insertNew (serie : LocationPointMatrixTimeserie F) (validTo validFrom : PTime)
    (point : LocationPointMatrix F) : LocationPointMatrixTimeserie F :=
  match serie.find? validTo with
  | none => serie.insert validTo (validFrom, point)
  | some _ => serie

end LocationPointMatrixTimeserie

/-- A row of the database: the value unless it is null, the scale and the offset of its
parameter definition if there is one, and the point if it can be decoded. -/
structure MatrixRow (F : Type) where
  value : Option F
  param : Option (F × F)
  point : Option LocationPoint
  validtimefrom : PTime
  validtimeto : PTime

namespace LocationPointMatrixData

variable [Floats F]

/-- The point that a row stores. -/
def decoded (row : MatrixRow F) : Option (LocationValue F) :=
  match row.value, row.param, row.point with
  | some value, some (scale, offset), some point => some ⟨point, value * scale + offset⟩
  | _, _, _ => none

/-- The variables of the loop of `LocationPointMatrixData::operator()`. -/
structure State (F : Type) where
  locations_ : LocationPointMatrixTimeserie F
  prevValidTimeTo : PTime
  prevValidTimeFrom : PTime
  pointMatrix : LocationPointMatrix F
  x : ℕ
  y : ℕ

/-- The variables before the loop. -/
def State.start (n : ℕ) : State F := ⟨∅, default, default, .undefined n, 0, 0⟩

/-- The part of the loop that starts a new matrix when the valid-to time changes. -/
def nextTime (n : ℕ) (state : State F) (row : MatrixRow F) : State F :=
  if state.prevValidTimeTo.isSpecial then
    { state with prevValidTimeTo := row.validtimeto, prevValidTimeFrom := row.validtimefrom }
  else if state.prevValidTimeTo ≠ row.validtimeto then
    { locations_ := state.locations_.insertNew state.prevValidTimeFrom state.prevValidTimeTo
        state.pointMatrix
      prevValidTimeTo := row.validtimeto
      prevValidTimeFrom := row.validtimefrom
      pointMatrix := .undefined n
      x := 0
      y := 0 }
  else state

/-- The part of the loop that starts a new row when the last one is full. -/
def nextPlace (n : ℕ) (state : State F) : State F :=
  if n ≤ state.x ∧ state.y < n then { state with x := 0, y := state.y + 1 } else state

/-- The part of the loop that stores a point. -/
def store (n : ℕ) (state : State F) (point : LocationValue F) : State F :=
  if state.x < n ∧ state.y < n then
    { state with
      pointMatrix := state.pointMatrix.set state.y state.x point
      x := state.x + 1 }
  else state

/-- The body of the loop. -/
def readRow (n : ℕ) (state : State F) (row : MatrixRow F) : State F :=
  match decoded row with
  | none => state
  | some point => store n (nextPlace n (nextTime n state row)) point

/-- `LocationPointMatrixData::operator()`, for the rows of the result and a matrix size. -/
def read (n : ℕ) (rows : List (MatrixRow F)) : LocationPointMatrixTimeserie F :=
  let state := rows.foldl (readRow n) (State.start n)
  if state.pointMatrix.isSet then
    state.locations_.insertNew state.prevValidTimeFrom state.prevValidTimeTo state.pointMatrix
  else state.locations_

/-! ### Row-major order -/

/-- The loop after the first rows of one valid-to time: the points are stored row by row. -/
structure RowMajor (n : ℕ) (points : ℕ → LocationValue F) (validTo validFrom : PTime) (count : ℕ)
    (state : State F) : Prop where
  locations : state.locations_ = ∅
  shape : state.pointMatrix.shape = (n, n)
  position : state.y * n + state.x = count
  column : state.x ≤ n
  row : state.y < n
  times : state.prevValidTimeTo = validTo ∧ state.prevValidTimeFrom = validFrom
  cells : ∀ r c, c < n → state.pointMatrix.cell r c =
    if r * n + c < count then points (r * n + c) else ⟨LocationPointMatrix.undefinedPoint, FLT_MIN⟩

/-- The first row starts the matrix of its valid-to time. -/
theorem rowMajor_start {n : ℕ} (positive : 0 < n) (points : ℕ → LocationValue F)
    (row : MatrixRow F) :
    RowMajor n points row.validtimeto row.validtimefrom 0 (nextTime n (State.start n) row) := by
  constructor
  · rfl
  · rfl
  · exact Nat.zero_mul n
  · exact Nat.zero_le n
  · exact positive
  · exact ⟨rfl, rfl⟩
  · intro r c _
    rw [if_neg (Nat.not_lt_zero _)]
    rfl

/-- Places in different rows or columns have different numbers. -/
theorem rowMajor_injective {n r c row column : ℕ} (inside : c < n) (inside' : column < n)
    (equal : r * n + c = row * n + column) : r = row ∧ c = column := by
  have positive : 0 < n := by omega
  have rows := congrArg (· / n) equal
  simp only [mul_comm _ n, Nat.mul_add_div positive, Nat.div_eq_of_lt inside,
    Nat.div_eq_of_lt inside', add_zero] at rows
  subst rows
  exact ⟨rfl, by omega⟩

/-- A point that is stored in the column after the last one. -/
theorem rowMajor_set {n count : ℕ} {points : ℕ → LocationValue F} {validTo validFrom : PTime}
    {state : State F} (invariant : RowMajor n points validTo validFrom count state)
    (inside : state.x < n) :
    RowMajor n points validTo validFrom (count + 1)
      { state with
        pointMatrix := state.pointMatrix.set state.y state.x (points count)
        x := state.x + 1 } := by
  have position := invariant.position
  constructor
  · exact invariant.locations
  · exact invariant.shape
  · change state.y * n + (state.x + 1) = count + 1
    omega
  · exact inside
  · exact invariant.row
  · exact invariant.times
  · intro r c column
    change (if r = state.y ∧ c = state.x then points count else state.pointMatrix.cell r c) = _
    rw [invariant.cells r c column]
    cases Decidable.em (r * n + c = count) with
    | inl same =>
        have place := rowMajor_injective column inside (same.trans position.symm)
        rw [if_pos place, if_pos (by omega), same]
    | inr different =>
        have other : ¬(r = state.y ∧ c = state.x) := by
          rintro ⟨rfl, rfl⟩
          exact different position
        rw [if_neg other]
        split
        · rw [if_pos (by omega)]
        · rw [if_neg (by omega)]

theorem rowMajor_nextPlace {n count : ℕ} {points : ℕ → LocationValue F}
    {validTo validFrom : PTime} {state : State F}
    (invariant : RowMajor n points validTo validFrom count state) (room : count < n * n) :
    RowMajor n points validTo validFrom count (nextPlace n state) ∧
      (nextPlace n state).x < n := by
  have position := invariant.position
  simp only [nextPlace]
  split
  next full =>
    have atEnd : state.x = n := le_antisymm invariant.column full.1
    have nextPosition : (state.y + 1) * n = count := by
      rw [Nat.succ_mul]
      omega
    have nextRow : state.y + 1 < n := by
      rw [← nextPosition] at room
      exact Nat.lt_of_mul_lt_mul_right room
    constructor
    · exact { invariant with position := nextPosition, column := Nat.zero_le n, row := nextRow }
    · exact Nat.zero_lt_of_lt nextRow
  next notFull =>
    constructor
    · exact invariant
    · exact not_le.mp fun full => notFull ⟨full, invariant.row⟩

/-- A point is stored at the next place of the matrix. -/
theorem rowMajor_store {n count : ℕ} {points : ℕ → LocationValue F} {validTo validFrom : PTime}
    {state : State F} (invariant : RowMajor n points validTo validFrom count state)
    (room : count < n * n) :
    RowMajor n points validTo validFrom (count + 1)
      (store n (nextPlace n state) (points count)) := by
  rcases rowMajor_nextPlace invariant room with ⟨next, inside⟩
  rw [store, if_pos ⟨inside, next.row⟩]
  exact rowMajor_set next inside

end LocationPointMatrixData

end Wdb2ts
