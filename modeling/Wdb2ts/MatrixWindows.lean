import Wdb2ts.LocationPointMatrix

/-!
# The windows of a matrix time series

The rows of a query come in groups, one group of `n * n` rows for each valid-to time.  The loop
stores the values of a group one after the other, skips the rows without a value, and passes
the two times of a group to `insert` in the wrong order.  So a group finds its own matrix only
when its times are equal and its rows without a value come last.
-/

namespace Wdb2ts

namespace LocationPointMatrixData

variable {F : Type} [Floats F] {n : ℕ}

open LocationPointMatrix (undefinedPoint)

/-! ## Groups of rows -/

/-- A default constructed point. -/
def undefinedValue : LocationValue F := ⟨undefinedPoint, FLT_MIN⟩

/-- The rows of one pair of times.  A decoded point has coordinates within the range that
`LocationPoint::set` checks. -/
structure RowGroup (n : ℕ) (F : Type) where
  validtimeto : PTime
  validtimefrom : PTime
  rows : List (MatrixRow F)
  length_rows : rows.length = n * n
  times : ∀ row ∈ rows, row.validtimeto = validtimeto ∧ row.validtimefrom = validtimefrom
  points : ∀ row ∈ rows, row.point ≠ some undefinedPoint

/-- The groups in the order of their valid-to times, with one group for each. -/
structure RowGroups (n : ℕ) (F : Type) where
  groups : List (RowGroup n F)
  ascending : groups.Pairwise fun earlier later => earlier.validtimeto < later.validtimeto

/-- The rows of the groups. -/
def RowGroups.rows (groups : RowGroups n F) : List (MatrixRow F) :=
  groups.groups.flatMap RowGroup.rows

namespace RowGroup

/-- The values of a group. -/
def values (group : RowGroup n F) : List (LocationValue F) := group.rows.filterMap decoded

/-- The value of a row. -/
def value? (group : RowGroup n F) (row : ℕ) : Option (LocationValue F) :=
  group.rows[row]?.bind decoded

end RowGroup

/-- The time series has the matrix of the group under its valid-to time, with the valid-from
time and one cell for each row. -/
def Stores (serie : LocationPointMatrixTimeserie F) (group : RowGroup n F) : Prop :=
  ∃ matrix, serie.find? group.validtimeto = some (group.validtimefrom, matrix) ∧
    matrix.shape = (n, n) ∧
      ∀ row < n * n, matrix.cell (row / n) (row % n) = (group.value? row).getD undefinedValue

/-- Every group has its own entry. -/
def StoresAll (groups : RowGroups n F) : Prop :=
  ∀ group ∈ groups.groups, Stores (read n groups.rows) group

/-- The groups that survive the loop: each has a value, its values come first, the group with the
exchanged times (the group itself if its times are equal) has the same values, and only the
last valid-to time may be special. -/
structure Survives (groups : RowGroups n F) : Prop where
  visible : ∀ group ∈ groups.groups, group.values ≠ []
  filled : ∀ group ∈ groups.groups, ∀ row, group.value? row = group.values[row]?
  exchanged : ∀ group ∈ groups.groups, ∃ other ∈ groups.groups,
    other.validtimefrom = group.validtimeto ∧ other.validtimeto = group.validtimefrom ∧
      other.values = group.values
  plain : ∀ group ∈ groups.groups.dropLast, group.validtimeto.isSpecial = false

/-! ## Values in a matrix -/

/-- The value at a place of a list, or a default constructed point. -/
def valueAt (stored : List (LocationValue F)) (place : ℕ) : LocationValue F :=
  stored[place]?.getD undefinedValue

/-- The values of a list fill the matrix row by row. -/
structure IsPacked (n : ℕ) (stored : List (LocationValue F)) (matrix : LocationPointMatrix F) :
    Prop where
  shape : matrix.shape = (n, n)
  cells : ∀ row column, column < n → matrix.cell row column = valueAt stored (row * n + column)

/-- The loop within a group. -/
structure Packed (n : ℕ) (locations : LocationPointMatrixTimeserie F) (validTo validFrom : PTime)
    (stored : List (LocationValue F)) (state : State F) : Prop where
  locations : state.locations_ = locations
  rowMajor : RowMajor n (valueAt stored) validTo validFrom stored.length
    { state with locations_ := ∅ }

section Packed

variable {locations : LocationPointMatrixTimeserie F} {validTo validFrom : PTime}
  {stored : List (LocationValue F)} {state : State F}

theorem valueAt_of_le {place : ℕ} (beyond : stored.length ≤ place) :
    valueAt stored place = undefinedValue := by
  rw [valueAt, List.getElem?_eq_none beyond]
  rfl

theorem Packed.isPacked (packed : Packed n locations validTo validFrom stored state) :
    IsPacked n stored state.pointMatrix := by
  constructor
  · exact packed.rowMajor.shape
  · intro row column inside
    have cell : state.pointMatrix.cell row column = _ := packed.rowMajor.cells row column inside
    rw [cell]
    split
    · rfl
    · rename_i beyond
      exact (valueAt_of_le (Nat.le_of_not_lt beyond)).symm

theorem RowMajor.congr {points others : ℕ → LocationValue F} {count : ℕ}
    (invariant : RowMajor n points validTo validFrom count state)
    (same : ∀ place < count, points place = others place) :
    RowMajor n others validTo validFrom count state := by
  refine { invariant with cells := ?_ }
  intro row column inside
  rw [invariant.cells row column inside]
  split
  · rename_i stored
    exact same _ stored
  · rfl

theorem valueAt_concat_self (stored : List (LocationValue F)) (value : LocationValue F) :
    valueAt (stored ++ [value]) stored.length = value := by
  rw [valueAt, List.getElem?_concat_length]
  rfl

omit [Floats F] in
/-- Storing a value touches the matrix only. -/
theorem locations_store (n : ℕ) (state : State F) (value : LocationValue F) :
    (store n (nextPlace n state) value).locations_ = state.locations_ := by
  simp only [nextPlace, store]
  split
  · split
    · rfl
    · rfl
  · split
    · rfl
    · rfl

omit [Floats F] in
theorem times_store (n : ℕ) (state : State F) (value : LocationValue F) :
    (store n (nextPlace n state) value).prevValidTimeTo = state.prevValidTimeTo ∧
      (store n (nextPlace n state) value).prevValidTimeFrom = state.prevValidTimeFrom := by
  simp only [nextPlace, store]
  split
  · split
    · exact ⟨rfl, rfl⟩
    · exact ⟨rfl, rfl⟩
  · split
    · exact ⟨rfl, rfl⟩
    · exact ⟨rfl, rfl⟩

/-- A value goes to the next place. -/
theorem Packed.store (packed : Packed n locations validTo validFrom stored state)
    (room : stored.length < n * n) (value : LocationValue F) :
    Packed n locations validTo validFrom (stored ++ [value])
      (store n (nextPlace n state) value) := by
  have frame : { LocationPointMatrixData.store n (nextPlace n state) value with locations_ := ∅ } =
      LocationPointMatrixData.store n (nextPlace n { state with locations_ := ∅ }) value := by
    simp only [nextPlace, LocationPointMatrixData.store]
    split
    · split
      · rfl
      · rfl
    · split
      · rfl
      · rfl
  have same : ∀ place < stored.length,
      valueAt stored place = valueAt (stored ++ [value]) place := by
    intro place inside
    rw [valueAt, valueAt, List.getElem?_append_left inside]
  have filled := rowMajor_store (packed.rowMajor.congr same) room
  constructor
  · exact (locations_store n state value).trans packed.locations
  · rw [frame, List.length_append, List.length_singleton]
    rw [valueAt_concat_self] at filled
    exact filled

/-- A row of the same times goes on with the matrix. -/
theorem nextTime_of_same {row : MatrixRow F} (sameTo : row.validtimeto = state.prevValidTimeTo)
    (sameFrom : row.validtimefrom = state.prevValidTimeFrom) : nextTime n state row = state := by
  simp only [nextTime, sameTo, sameFrom]
  split
  · rfl
  · rw [if_neg (not_not_intro rfl)]

/-- More rows of the times of the group. -/
theorem Packed.foldl_readRow (packed : Packed n locations validTo validFrom stored state)
    {rows : List (MatrixRow F)}
    (times : ∀ row ∈ rows, row.validtimeto = validTo ∧ row.validtimefrom = validFrom)
    (room : stored.length + (rows.filterMap decoded).length ≤ n * n) :
    Packed n locations validTo validFrom (stored ++ rows.filterMap decoded)
      (rows.foldl (readRow n) state) := by
  induction rows generalizing stored state with
  | nil =>
      rw [List.filterMap_nil, List.append_nil]
      exact packed
  | cons row rest ih =>
      have timesRest : ∀ other ∈ rest, other.validtimeto = validTo ∧
          other.validtimefrom = validFrom :=
        fun other member => times other (List.mem_cons_of_mem row member)
      cases value : decoded row with
      | none =>
          rw [List.filterMap_cons_none value] at room ⊢
          rw [List.foldl_cons, readRow, value]
          exact ih packed timesRest room
      | some point =>
          have isTime := times row List.mem_cons_self
          have current : validTo = state.prevValidTimeTo ∧ validFrom = state.prevValidTimeFrom :=
            ⟨packed.rowMajor.times.1.symm, packed.rowMajor.times.2.symm⟩
          rw [List.filterMap_cons_some value, List.length_cons] at room
          have next := packed.store (by omega) point
          rw [List.filterMap_cons_some value, List.append_cons, List.foldl_cons, readRow, value,
            nextTime_of_same (isTime.1.trans current.1) (isTime.2.trans current.2)]
          apply ih next timesRest
          rw [List.length_append, List.length_singleton]
          omega

/-- The rows of a group that opens its matrix. -/
theorem packed_of_opens {rows : List (MatrixRow F)}
    (opens : ∀ row ∈ rows, Packed n locations validTo validFrom [] (nextTime n state row))
    (times : ∀ row ∈ rows, row.validtimeto = validTo ∧ row.validtimefrom = validFrom)
    (some_value : rows.filterMap decoded ≠ [])
    (room : (rows.filterMap decoded).length ≤ n * n) :
    Packed n locations validTo validFrom (rows.filterMap decoded)
      (rows.foldl (readRow n) state) := by
  induction rows with
  | nil => exact absurd rfl some_value
  | cons row rest ih =>
      have timesRest : ∀ other ∈ rest, other.validtimeto = validTo ∧
          other.validtimefrom = validFrom :=
        fun other member => times other (List.mem_cons_of_mem row member)
      cases value : decoded row with
      | none =>
          rw [List.filterMap_cons_none value] at some_value room ⊢
          rw [List.foldl_cons, readRow, value]
          exact ih (fun other member => opens other (List.mem_cons_of_mem row member)) timesRest
            some_value room
      | some point =>
          rw [List.filterMap_cons_some value, List.length_cons] at room
          have opened := opens row List.mem_cons_self
          have first := opened.store (by rw [List.length_nil]; omega) point
          rw [List.filterMap_cons_some value, List.foldl_cons, readRow, value]
          apply first.foldl_readRow timesRest
          rw [List.nil_append, List.length_singleton]
          omega

/-- The first group opens the first matrix. -/
theorem packed_start (positive : 0 < n) (row : MatrixRow F) :
    Packed n ∅ row.validtimeto row.validtimefrom [] (nextTime n (State.start n) row) := by
  constructor
  · rfl
  · exact rowMajor_start positive _ row

/-- Another valid-to time stores the matrix and opens the next one. -/
theorem Packed.opens (packed : Packed n locations validTo validFrom stored state)
    (positive : 0 < n) (plain : validTo.isSpecial = false) {row : MatrixRow F}
    (other : row.validtimeto ≠ validTo) :
    Packed n (locations.insertNew validFrom validTo state.pointMatrix) row.validtimeto
      row.validtimefrom [] (nextTime n state row) := by
  have times : state.prevValidTimeTo = validTo ∧ state.prevValidTimeFrom = validFrom :=
    packed.rowMajor.times
  have notSpecial : ¬state.prevValidTimeTo.isSpecial = true := by
    rw [times.1, plain]
    exact Bool.false_ne_true
  have changes : state.prevValidTimeTo ≠ row.validtimeto := by
    rw [times.1]
    exact Ne.symm other
  rw [nextTime, if_neg notSpecial, if_pos changes]
  constructor
  · rw [times.1, times.2, packed.locations]
  · exact rowMajor_start positive _ row

end Packed

/-! ## The groups one after the other -/

/-- The time series has, under the valid-from time of the first group that has it, the valid-to
time and the values of that group. -/
structure HoldsGroups (locations : LocationPointMatrixTimeserie F) (groups : List (RowGroup n F)) :
    Prop where
  absent : ∀ key, (∀ group ∈ groups, group.validtimefrom ≠ key) → locations.find? key = none
  held : ∀ key group, groups.find? (fun group => group.validtimefrom = key) = some group →
    ∃ matrix, locations.find? key = some (group.validtimeto, matrix) ∧
      IsPacked n group.values matrix

omit [Floats F] in
theorem find?_insertNew (locations : LocationPointMatrixTimeserie F) (validTo validFrom key : PTime)
    (matrix : LocationPointMatrix F) :
    (locations.insertNew validTo validFrom matrix).find? key =
      if key = validTo ∧ locations.find? validTo = none then some (validFrom, matrix)
      else locations.find? key := by
  rw [LocationPointMatrixTimeserie.insertNew]
  cases found : locations.find? validTo with
  | none =>
      by_cases same : key = validTo
      · rw [if_pos ⟨same, rfl⟩, same]
        exact SortedMap.find?_insert_self _ _ _
      · rw [if_neg fun this => same this.1]
        exact SortedMap.find?_insert_of_ne _ same _
  | some value => simp

theorem HoldsGroups.insertNew {locations : LocationPointMatrixTimeserie F}
    {groups : List (RowGroup n F)} (holds : HoldsGroups locations groups) (group : RowGroup n F)
    {matrix : LocationPointMatrix F} (packed : IsPacked n group.values matrix) :
    HoldsGroups (locations.insertNew group.validtimefrom group.validtimeto matrix)
      (groups ++ [group]) := by
  constructor
  · intro key others
    have notThis : key ≠ group.validtimefrom :=
      (others group (List.mem_append_right _ (List.mem_singleton_self group))).symm
    rw [find?_insertNew, if_neg fun this => notThis this.1]
    exact holds.absent key fun other member => others other (List.mem_append_left _ member)
  · intro key found isFound
    rw [List.find?_append] at isFound
    cases earlier : groups.find? (fun group => group.validtimefrom = key) with
    | some first =>
        rw [earlier] at isFound
        cases isFound
        obtain ⟨stored, isStored, isPacked⟩ := holds.held key found earlier
        have taken : ¬(key = group.validtimefrom ∧
            locations.find? group.validtimefrom = none) := by
          rintro ⟨same, isNew⟩
          rw [← same, isStored] at isNew
          cases isNew
        refine ⟨stored, ?_, isPacked⟩
        rw [find?_insertNew, if_neg taken, isStored]
    | none =>
        rw [earlier, Option.none_or, List.find?_singleton] at isFound
        split at isFound
        · rename_i isKey
          cases isFound
          have fresh : locations.find? group.validtimefrom = none := by
            apply holds.absent
            intro other member
            have notKey := List.find?_eq_none.mp earlier other member
            rw [of_decide_eq_true isKey]
            simpa using notKey
          refine ⟨matrix, ?_, packed⟩
          rw [find?_insertNew, if_pos ⟨(of_decide_eq_true isKey).symm, fresh⟩]
        · cases isFound

namespace RowGroup

theorem length_values_le (group : RowGroup n F) : group.values.length ≤ n * n := by
  rw [← group.length_rows]
  exact List.length_filterMap_le _ _

theorem positive_of_visible {group : RowGroup n F} (visible : group.values ≠ []) : 0 < n := by
  apply Nat.pos_of_ne_zero
  rintro rfl
  apply visible
  have noRows : group.rows = [] := List.length_eq_zero_iff.mp group.length_rows
  rw [values, noRows]
  rfl

theorem point_ne_undefined {group : RowGroup n F} {row : MatrixRow F} (member : row ∈ group.rows)
    {value : LocationValue F} (isValue : decoded row = some value) :
    value.point ≠ undefinedPoint := by
  have isPoint : row.point = some value.point := by
    rw [decoded] at isValue
    split at isValue
    · rename_i point _ _ isPoint
      cases isValue
      exact isPoint
    · cases isValue
  intro undefined
  apply group.points row member
  rw [isPoint, undefined]

theorem values_point_ne_undefined {group : RowGroup n F} {value : LocationValue F}
    (member : value ∈ group.values) : value.point ≠ undefinedPoint := by
  rcases List.mem_filterMap.mp member with ⟨row, isRow, isValue⟩
  exact point_ne_undefined isRow isValue

end RowGroup

/-- The loop after the rows of some visible groups, of which only the last may have a special
time. -/
theorem packed_groups (groups : List (RowGroup n F)) (last : RowGroup n F)
    (visible : ∀ group ∈ groups ++ [last], group.values ≠ [])
    (plain : ∀ group ∈ groups, group.validtimeto.isSpecial = false)
    (ascending : (groups ++ [last]).Pairwise
      fun earlier later => earlier.validtimeto < later.validtimeto) :
    ∃ locations, HoldsGroups locations groups ∧
      Packed n locations last.validtimeto last.validtimefrom last.values
        (((groups ++ [last]).flatMap RowGroup.rows).foldl (readRow n) (State.start n)) := by
  have positive := RowGroup.positive_of_visible
    (visible last (List.mem_append_right _ (List.mem_singleton_self last)))
  induction groups using List.reverseRecOn generalizing last with
  | nil =>
      refine ⟨∅, ⟨fun key _ => rfl, ?_⟩, ?_⟩
      · intro key group found
        cases found
      · rw [List.nil_append, List.flatMap_singleton]
        apply packed_of_opens
        · intro row member
          rw [← (last.times row member).1, ← (last.times row member).2]
          exact packed_start positive row
        · exact last.times
        · exact visible last (List.mem_singleton_self last)
        · exact last.length_values_le
  | append_singleton groups group ih =>
      rw [List.pairwise_append] at ascending
      obtain ⟨locations, holds, packed⟩ := ih group
        (fun other member => visible other (List.mem_append_left _ member))
        (fun other member => plain other (List.mem_append_left _ member)) ascending.1
      have isPlain := plain group (List.mem_append_right _ (List.mem_singleton_self group))
      have later : group.validtimeto < last.validtimeto :=
        ascending.2.2 group (List.mem_append_right _ (List.mem_singleton_self group)) last
          (List.mem_singleton_self last)
      refine ⟨_, holds.insertNew group packed.isPacked, ?_⟩
      have rows : (groups ++ [group] ++ [last]).flatMap RowGroup.rows =
          (groups ++ [group]).flatMap RowGroup.rows ++ last.rows := by
        rw [List.flatMap_append, List.flatMap_singleton]
      rw [rows, List.foldl_append]
      apply packed_of_opens
      · intro row member
        have times := last.times row member
        have other : row.validtimeto ≠ group.validtimeto := by
          rw [times.1]
          exact later.ne'
        rw [← times.1, ← times.2]
        exact packed.opens positive isPlain other
      · exact last.times
      · exact visible last (List.mem_append_right _ (List.mem_singleton_self last))
      · exact last.length_values_le

theorem isSet_of_packed {stored : List (LocationValue F)} {matrix : LocationPointMatrix F}
    (packed : IsPacked n stored matrix) (positive : 0 < n) (nonempty : stored ≠ [])
    (points : ∀ value ∈ stored, value.point ≠ undefinedPoint) : matrix.isSet = true := by
  obtain ⟨first, rest, rfl⟩ := List.exists_cons_of_ne_nil nonempty
  have cell := packed.cells 0 0 positive
  rw [Nat.zero_mul] at cell
  simp only [LocationPointMatrix.isSet, packed.shape, List.any_eq_true, List.mem_range,
    decide_eq_true_eq]
  refine ⟨0, positive, 0, positive, ?_⟩
  rw [cell]
  exact points first List.mem_cons_self

theorem isSet_undefined (n : ℕ) : (LocationPointMatrix.undefined n : LocationPointMatrix F).isSet =
    false := by
  simp [LocationPointMatrix.isSet, LocationPointMatrix.undefined]

/-- The result of visible groups, of which only the last may have a special time. -/
theorem holdsGroups_read {groups : RowGroups n F}
    (visible : ∀ group ∈ groups.groups, group.values ≠ [])
    (plain : ∀ group ∈ groups.groups.dropLast, group.validtimeto.isSpecial = false) :
    HoldsGroups (read n groups.rows) groups.groups := by
  rcases List.eq_nil_or_concat groups.groups with none_left | ⟨front, last, split⟩
  · have empty : read n ([] : List (MatrixRow F)) = ∅ := by
      simp only [read, List.foldl_nil, State.start, isSet_undefined, Bool.false_eq_true, if_false]
    rw [RowGroups.rows, none_left, List.flatMap_nil, empty]
    constructor
    · intro key _
      rfl
    · intro key group found
      cases found
  · have ascending := groups.ascending
    rw [RowGroups.rows]
    rw [List.concat_eq_append] at split
    rw [split] at visible plain ascending ⊢
    rw [List.dropLast_concat] at plain
    obtain ⟨locations, holds, packed⟩ := packed_groups front last visible plain ascending
    have isVisible := visible last (List.mem_append_right _ (List.mem_singleton_self last))
    have set := isSet_of_packed packed.isPacked (RowGroup.positive_of_visible isVisible) isVisible
      fun value => RowGroup.values_point_ne_undefined
    simp only [read, set, if_true]
    have times := packed.rowMajor.times
    simp only at times
    rw [times.1, times.2, packed.locations]
    exact holds.insertNew last packed.isPacked

/-! ## Where the entries come from -/

/-- The rows with a value. -/
def valued (rows : List (MatrixRow F)) : List (MatrixRow F) :=
  rows.filter fun row => (decoded row).isSome

/-- The stored times are those of rows, and the pending ones those of the last row. -/
structure Sourced (n : ℕ) (rows : List (MatrixRow F)) (state : State F) : Prop where
  entries : ∀ key value, state.locations_.find? key = some value →
    value.1.isSpecial = false ∧
      ∃ row ∈ valued rows, row.validtimefrom = key ∧ row.validtimeto = value.1
  start : valued rows = [] → state = State.start n
  times : ∀ row ∈ (valued rows).getLast?,
    state.prevValidTimeTo = row.validtimeto ∧ state.prevValidTimeFrom = row.validtimefrom

/-- The pending times are those of a row, unless there is none. -/
theorem Sourced.start_or_last {rows : List (MatrixRow F)} {state : State F}
    (sourced : Sourced n rows state) :
    state = State.start n ∨ ∃ row ∈ valued rows, (valued rows).getLast? = some row ∧
      state.prevValidTimeTo = row.validtimeto ∧
        state.prevValidTimeFrom = row.validtimefrom := by
  cases isLast : (valued rows).getLast? with
  | none => exact Or.inl (sourced.start (List.getLast?_eq_none_iff.mp isLast))
  | some row =>
      right
      exact ⟨row, List.mem_of_mem_getLast? isLast, rfl, sourced.times row isLast⟩

theorem Sourced.entries_nextTime {rows : List (MatrixRow F)} {state : State F}
    (sourced : Sourced n rows state) (row : MatrixRow F) (key : PTime)
    (value : PTime × LocationPointMatrix F)
    (found : (nextTime n state row).locations_.find? key = some value) :
    value.1.isSpecial = false ∧
      ∃ row ∈ valued rows, row.validtimefrom = key ∧ row.validtimeto = value.1 := by
  rw [nextTime] at found
  split at found
  · exact sourced.entries key value found
  · rename_i plain
    split at found
    · simp only [find?_insertNew] at found
      split at found
      · rename_i isNew
        rcases sourced.start_or_last with isStart | ⟨last, isRow, _, isTo, isFrom⟩
        · rw [isStart] at plain
          exact absurd rfl plain
        · cases found
          exact ⟨Bool.eq_false_of_not_eq_true plain, last, isRow, isFrom.symm.trans isNew.1.symm,
            isTo.symm⟩
      · exact sourced.entries key value found
    · exact sourced.entries key value found

theorem Sourced.times_nextTime {rows : List (MatrixRow F)} {state : State F}
    (sourced : Sourced n rows state) {row : MatrixRow F}
    (oneFrom : ∀ other ∈ valued rows, other.validtimeto = row.validtimeto →
      other.validtimefrom = row.validtimefrom) :
    (nextTime n state row).prevValidTimeTo = row.validtimeto ∧
      (nextTime n state row).prevValidTimeFrom = row.validtimefrom := by
  rw [nextTime]
  split
  · exact ⟨rfl, rfl⟩
  · rename_i plain
    split
    · exact ⟨rfl, rfl⟩
    · rename_i same
      rcases sourced.start_or_last with isStart | ⟨last, isRow, _, isTo, isFrom⟩
      · rw [isStart] at plain
        exact absurd rfl plain
      · have sameTo := of_not_not same
        exact ⟨sameTo, isFrom.trans (oneFrom last isRow (isTo.symm.trans sameTo))⟩

theorem sourced_foldl {rows : List (MatrixRow F)}
    (oneFrom : ∀ row ∈ rows, ∀ other ∈ rows, row.validtimeto = other.validtimeto →
      row.validtimefrom = other.validtimefrom) :
    Sourced n rows (rows.foldl (readRow n) (State.start n)) := by
  induction rows using List.reverseRecOn with
  | nil =>
      constructor
      · intro key value found
        cases found
      · intro _
        rfl
      · intro row isLast
        cases isLast
  | append_singleton rows row ih =>
      have before := ih fun other member another isMember =>
        oneFrom other (List.mem_append_left _ member) another (List.mem_append_left _ isMember)
      have isRow : row ∈ rows ++ [row] := List.mem_append_right _ (List.mem_singleton_self row)
      rw [List.foldl_append, List.foldl_cons, List.foldl_nil]
      cases isValue : decoded row with
      | none =>
          have same : valued (rows ++ [row]) = valued rows := by
            simp [valued, isValue]
          rw [readRow, isValue]
          constructor
          · rw [same]
            exact before.entries
          · rw [same]
            exact before.start
          · rw [same]
            exact before.times
      | some point =>
          have grown : valued (rows ++ [row]) = valued rows ++ [row] := by
            simp [valued, isValue]
          have rowFrom : ∀ other ∈ valued rows, other.validtimeto = row.validtimeto →
              other.validtimefrom = row.validtimefrom :=
            fun other member => oneFrom other
              (List.mem_append_left _ (List.mem_of_mem_filter member)) row isRow
          rw [readRow, isValue]
          constructor
          · intro key value found
            rw [locations_store] at found
            obtain ⟨plain, source, isSource, times⟩ :=
              before.entries_nextTime row key value found
            rw [grown]
            exact ⟨plain, source, List.mem_append_left _ isSource, times⟩
          · rw [grown]
            intro noRows
            exact absurd noRows (List.append_ne_nil_of_right_ne_nil _ (List.cons_ne_nil row []))
          · rw [grown, List.getLast?_concat]
            intro last isLast
            cases isLast
            rw [(times_store n _ point).1, (times_store n _ point).2]
            exact before.times_nextTime rowFrom

/-- An entry of the result has the times of a row, and a special one those of the last row. -/
theorem exists_row_of_read {rows : List (MatrixRow F)}
    (oneFrom : ∀ row ∈ rows, ∀ other ∈ rows, row.validtimeto = other.validtimeto →
      row.validtimefrom = other.validtimefrom) {key : PTime}
    {value : PTime × LocationPointMatrix F} (found : (read n rows).find? key = some value) :
    ∃ row ∈ valued rows, row.validtimefrom = key ∧ row.validtimeto = value.1 ∧
      (value.1.isSpecial = true → (valued rows).getLast? = some row) := by
  have sourced := sourced_foldl (n := n) oneFrom
  have stored : ∀ key value, (rows.foldl (readRow n) (State.start n)).locations_.find? key =
      some value → ∃ row ∈ valued rows, row.validtimefrom = key ∧ row.validtimeto = value.1 ∧
        (value.1.isSpecial = true → (valued rows).getLast? = some row) := by
    intro key value isStored
    obtain ⟨plain, row, isRow, isFrom, isTo⟩ := sourced.entries key value isStored
    refine ⟨row, isRow, isFrom, isTo, ?_⟩
    rw [plain]
    intro special
    cases special
  simp only [read] at found
  split at found
  · rename_i set
    rw [find?_insertNew] at found
    split at found
    · rename_i isNew
      rcases sourced.start_or_last with isStart | ⟨last, isRow, isLast, isTo, isFrom⟩
      · rw [isStart] at set
        exact absurd set (by rw [State.start, isSet_undefined]; exact Bool.false_ne_true)
      · cases found
        exact ⟨last, isRow, isFrom.symm.trans isNew.1.symm, isTo.symm, fun _ => isLast⟩
    · exact stored key value found
  · exact stored key value found

/-! ## The groups that find their own matrix -/

omit [Floats F] in
theorem exists_group_of_mem_rows {groups : RowGroups n F} {row : MatrixRow F}
    (member : row ∈ groups.rows) : ∃ group ∈ groups.groups, row ∈ group.rows ∧
      row.validtimeto = group.validtimeto ∧ row.validtimefrom = group.validtimefrom := by
  obtain ⟨group, isGroup, isRow⟩ := List.mem_flatMap.mp member
  exact ⟨group, isGroup, isRow, group.times row isRow⟩

omit [Floats F] in
/-- There is one group for each valid-to time. -/
theorem RowGroups.eq_of_validtimeto {groups : RowGroups n F} {group other : RowGroup n F}
    (isGroup : group ∈ groups.groups) (isOther : other ∈ groups.groups)
    (same : group.validtimeto = other.validtimeto) : group = other := by
  have distinct : (groups.groups.map RowGroup.validtimeto).Nodup := by
    rw [List.nodup_iff_pairwise_ne, List.pairwise_map]
    exact groups.ascending.imp fun later => later.ne
  exact List.inj_on_of_nodup_map distinct isGroup isOther same

omit [Floats F] in
theorem RowGroups.oneFrom (groups : RowGroups n F) :
    ∀ row ∈ groups.rows, ∀ other ∈ groups.rows, row.validtimeto = other.validtimeto →
      row.validtimefrom = other.validtimefrom := by
  intro row isRow other isOther same
  obtain ⟨group, isGroup, _, rowTo, rowFrom⟩ := exists_group_of_mem_rows isRow
  obtain ⟨another, isAnother, _, otherTo, otherFrom⟩ := exists_group_of_mem_rows isOther
  have sameGroup : group = another :=
    RowGroups.eq_of_validtimeto isGroup isAnother (rowTo.symm.trans (same.trans otherTo))
  rw [rowFrom, otherFrom, sameGroup]

/-- An entry of the result comes from a group with a value, and a special one from the last group
if it has a value. -/
theorem exists_group_of_read {groups : RowGroups n F} {key : PTime}
    {value : PTime × LocationPointMatrix F}
    (found : (read n groups.rows).find? key = some value) :
    ∃ group ∈ groups.groups, group.validtimefrom = key ∧ group.validtimeto = value.1 ∧
      group.values ≠ [] ∧
        (value.1.isSpecial = true → ∀ last ∈ groups.groups.getLast?, last.values ≠ [] →
          last.validtimeto = value.1) := by
  obtain ⟨row, isRow, isFrom, isTo, isLast⟩ := exists_row_of_read groups.oneFrom found
  have inRows : row ∈ groups.rows := List.mem_of_mem_filter isRow
  have isSome : (decoded row).isSome = true := (List.mem_filter.mp isRow).2
  obtain ⟨group, isGroup, inGroup, rowTo, rowFrom⟩ := exists_group_of_mem_rows inRows
  refine ⟨group, isGroup, rowFrom.symm.trans isFrom, rowTo.symm.trans isTo, ?_, ?_⟩
  · obtain ⟨point, isValue⟩ := Option.isSome_iff_exists.mp isSome
    exact List.ne_nil_of_mem (List.mem_filterMap.mpr ⟨row, inGroup, isValue⟩)
  · intro special last isLastGroup visible
    obtain ⟨front, split⟩ := List.getLast?_eq_some_iff.mp isLastGroup
    have rows : valued groups.rows = valued (front.flatMap RowGroup.rows) ++ valued last.rows := by
      rw [RowGroups.rows, split, List.flatMap_append, List.flatMap_singleton, valued,
        List.filter_append]
      rfl
    have lastRows : valued last.rows ≠ [] := by
      intro noRows
      apply visible
      apply List.filterMap_eq_nil_iff.mpr
      intro other isOther
      by_contra isValue
      have member : other ∈ valued last.rows :=
        List.mem_filter.mpr ⟨isOther, Option.isSome_iff_ne_none.mpr isValue⟩
      rw [noRows] at member
      cases member
    have lastRow := isLast special
    rw [rows, List.getLast?_append_of_ne_nil _ lastRows] at lastRow
    have inLast : row ∈ last.rows := List.mem_of_mem_filter (List.mem_of_mem_getLast? lastRow)
    rw [← (last.times row inLast).1, isTo]

/-- What every group finds under its valid-to time comes from the group with the exchanged
times. -/
theorem exchanged_of_storesAll {groups : RowGroups n F} (stores : StoresAll groups)
    {group : RowGroup n F} (isGroup : group ∈ groups.groups) :
    ∃ other ∈ groups.groups, other.validtimefrom = group.validtimeto ∧
      other.validtimeto = group.validtimefrom ∧ other.values ≠ [] ∧
        (other.validtimeto.isSpecial = true → ∀ last ∈ groups.groups.getLast?,
          last.values ≠ [] → last.validtimeto = other.validtimeto) := by
  obtain ⟨matrix, found, _⟩ := stores group isGroup
  obtain ⟨other, isOther, isFrom, isTo, visible, special⟩ := exists_group_of_read found
  refine ⟨other, isOther, isFrom, isTo, visible, ?_⟩
  rw [isTo]
  exact special

theorem visible_of_storesAll {groups : RowGroups n F} (stores : StoresAll groups)
    {group : RowGroup n F} (isGroup : group ∈ groups.groups) :
    group.values ≠ [] ∧
      (group.validtimeto.isSpecial = true → ∀ last ∈ groups.groups.getLast?,
        last.values ≠ [] → last.validtimeto = group.validtimeto) := by
  obtain ⟨other, isOther, isFrom, isTo, _⟩ := exchanged_of_storesAll stores isGroup
  obtain ⟨back, isBack, _, backTo, visible, special⟩ := exchanged_of_storesAll stores isOther
  have same : back = group := RowGroups.eq_of_validtimeto isBack isGroup (backTo.trans isFrom)
  rw [same] at visible special
  exact ⟨visible, special⟩

theorem plain_of_storesAll {groups : RowGroups n F} (stores : StoresAll groups) :
    ∀ group ∈ groups.groups.dropLast, group.validtimeto.isSpecial = false := by
  intro group inFront
  have isGroup : group ∈ groups.groups := List.mem_of_mem_dropLast inFront
  rcases List.eq_nil_or_concat groups.groups with none_left | ⟨front, last, split⟩
  · rw [none_left] at isGroup
    cases isGroup
  · rw [List.concat_eq_append] at split
    have isLast : last ∈ groups.groups.getLast? := by
      rw [split, List.getLast?_concat]
      rfl
    have lastVisible := (visible_of_storesAll stores (List.mem_of_mem_getLast? isLast)).1
    have ascending := groups.ascending
    rw [split, List.pairwise_append] at ascending
    rw [split, List.dropLast_concat] at inFront
    have later := ascending.2.2 group inFront last (List.mem_singleton_self last)
    cases special : group.validtimeto.isSpecial with
    | false => rfl
    | true =>
        have same := (visible_of_storesAll stores isGroup).2 special last isLast lastVisible
        exact absurd same later.ne'

theorem value?_ne_undefined {group : RowGroup n F} {row : ℕ} {value : LocationValue F}
    (isValue : group.value? row = some value) : value ≠ undefinedValue := by
  obtain ⟨source, isSource, isDecoded⟩ := Option.bind_eq_some_iff.mp isValue
  intro undefined
  have point := RowGroup.point_ne_undefined (List.mem_of_getElem? isSource) isDecoded
  rw [undefined] at point
  exact point rfl

theorem getElem?_values_ne_undefined {group : RowGroup n F} {place : ℕ} {value : LocationValue F}
    (isValue : group.values[place]? = some value) : value ≠ undefinedValue := by
  intro undefined
  have point := RowGroup.values_point_ne_undefined (List.mem_of_getElem? isValue)
  rw [undefined] at point
  exact point rfl

theorem eq_of_getD_eq {left right : Option (LocationValue F)}
    (leftDefined : ∀ value, left = some value → value ≠ undefinedValue)
    (rightDefined : ∀ value, right = some value → value ≠ undefinedValue)
    (same : left.getD undefinedValue = right.getD undefinedValue) : left = right := by
  cases left with
  | none =>
      cases right with
      | none => rfl
      | some value => exact absurd same.symm (rightDefined value rfl)
  | some value =>
      cases right with
      | none => exact absurd same (leftDefined value rfl)
      | some other => exact congrArg some same

/-- A list whose places are those of a map that may fail is what the map gives. -/
theorem filterMap_eq_of_getElem? {α β : Type} {image : α → Option β} {list : List α}
    {images : List β} (same : ∀ place : ℕ, list[place]?.bind image = images[place]?) :
    list.filterMap image = images := by
  induction list generalizing images with
  | nil =>
      have first : none = images[0]? := same 0
      rw [← List.head?_eq_getElem?] at first
      exact (List.head?_eq_none_iff.mp first.symm).symm
  | cons head rest ih =>
      have first := same 0
      cases isImage : image head with
      | none =>
          rw [List.getElem?_cons_zero, Option.bind_some, isImage, ← List.head?_eq_getElem?] at first
          have noImages := List.head?_eq_none_iff.mp first.symm
          subst noImages
          rw [List.filterMap_cons_none isImage]
          apply ih
          intro place
          exact same (place + 1)
      | some value =>
          cases images with
          | nil =>
              rw [List.getElem?_cons_zero, Option.bind_some, isImage] at first
              cases first
          | cons other others =>
              rw [List.getElem?_cons_zero, Option.bind_some, isImage,
                List.getElem?_cons_zero] at first
              cases first
              rw [List.filterMap_cons_some isImage]
              apply congrArg (value :: ·)
              apply ih
              intro place
              exact same (place + 1)

/-- A matrix with the values of one group shows the rows of another one. -/
theorem value?_eq_of_packed {group other : RowGroup n F} {matrix : LocationPointMatrix F}
    (packed : IsPacked n other.values matrix)
    (cells : ∀ row < n * n, matrix.cell (row / n) (row % n) =
      (group.value? row).getD undefinedValue) (row : ℕ) :
    group.value? row = other.values[row]? := by
  by_cases inside : row < n * n
  · have positive : 0 < n := Nat.pos_of_ne_zero (by rintro rfl; simp at inside)
    have cell := packed.cells (row / n) (row % n) (Nat.mod_lt row positive)
    rw [cells row inside, Nat.div_add_mod'] at cell
    exact eq_of_getD_eq (fun value => value?_ne_undefined)
      (fun value => getElem?_values_ne_undefined) cell
  · have beyond := Nat.le_of_not_lt inside
    have noRow : group.rows[row]? = none :=
      List.getElem?_eq_none (by rw [group.length_rows]; exact beyond)
    rw [RowGroup.value?, noRow,
      List.getElem?_eq_none (other.length_values_le.trans beyond)]
    rfl

/-- What a group finds under its valid-to time are the values of the group with the exchanged
times. -/
theorem exists_source {groups : RowGroups n F}
    (holds : HoldsGroups (read n groups.rows) groups.groups)
    {group : RowGroup n F} (stores : Stores (read n groups.rows) group) :
    ∃ other ∈ groups.groups, other.validtimefrom = group.validtimeto ∧
      other.validtimeto = group.validtimefrom ∧ ∀ row, group.value? row = other.values[row]? := by
  obtain ⟨matrix, found, _, cells⟩ := stores
  cases isFirst :
    groups.groups.find? (fun other => other.validtimefrom = group.validtimeto) with
  | none =>
      have absent := holds.absent group.validtimeto (by
        simpa using List.find?_eq_none.mp isFirst)
      rw [absent] at found
      cases found
  | some other =>
      obtain ⟨held, isHeld, packed⟩ := holds.held _ other isFirst
      rw [isHeld, Option.some.injEq, Prod.mk.injEq] at found
      have isFrom : other.validtimefrom = group.validtimeto := by
        simpa using List.find?_some isFirst
      rw [found.2] at packed
      exact ⟨other, List.mem_of_find?_eq_some isFirst, isFrom, found.1,
        value?_eq_of_packed packed cells⟩

theorem survives_of_storesAll {groups : RowGroups n F} (stores : StoresAll groups) :
    Survives groups := by
  have visible : ∀ group ∈ groups.groups, group.values ≠ [] :=
    fun group member => (visible_of_storesAll stores member).1
  have plain := plain_of_storesAll stores
  have holds := holdsGroups_read visible plain
  have sameValues : ∀ group other : RowGroup n F,
      (∀ row, group.value? row = other.values[row]?) → other.values = group.values :=
    fun group other same => (filterMap_eq_of_getElem? same).symm
  constructor
  · exact visible
  · intro group isGroup row
    obtain ⟨other, _, _, _, same⟩ := exists_source holds (stores group isGroup)
    rw [same row, sameValues group other same]
  · intro group isGroup
    obtain ⟨other, isOther, isFrom, isTo, same⟩ := exists_source holds (stores group isGroup)
    exact ⟨other, isOther, isFrom, isTo, sameValues group other same⟩
  · exact plain

/-- The first group that starts at the valid-to time of a group is the one with the exchanged
times. -/
theorem find?_eq_exchanged {groups : RowGroups n F} (survives : Survives groups)
    {group other : RowGroup n F} (isGroup : group ∈ groups.groups)
    (isOther : other ∈ groups.groups) (isFrom : other.validtimefrom = group.validtimeto)
    (isTo : other.validtimeto = group.validtimefrom) :
    groups.groups.find? (fun other => other.validtimefrom = group.validtimeto) = some other := by
  cases isFirst :
    groups.groups.find? (fun other => other.validtimefrom = group.validtimeto) with
  | none =>
      have absent := List.find?_eq_none.mp isFirst other isOther
      simp [isFrom] at absent
  | some first =>
      have firstFrom : first.validtimefrom = group.validtimeto := by
        simpa using List.find?_some isFirst
      have isFirstGroup := List.mem_of_find?_eq_some isFirst
      obtain ⟨back, isBack, backFrom, backTo, _⟩ := survives.exchanged first isFirstGroup
      have isSame : back = group :=
        RowGroups.eq_of_validtimeto isBack isGroup (backTo.trans firstFrom)
      apply congrArg some
      apply RowGroups.eq_of_validtimeto isFirstGroup isOther
      rw [isTo, ← isSame, backFrom]

/-- Every group has its own matrix exactly if the groups survive the loop. -/
theorem storesAll_iff (groups : RowGroups n F) : StoresAll groups ↔ Survives groups := by
  constructor
  · exact survives_of_storesAll
  · intro survives group isGroup
    have holds := holdsGroups_read survives.visible survives.plain
    obtain ⟨other, isOther, isFrom, isTo, same⟩ := survives.exchanged group isGroup
    obtain ⟨matrix, isHeld, packed⟩ :=
      holds.held _ other (find?_eq_exchanged survives isGroup isOther isFrom isTo)
    refine ⟨matrix, by rw [isHeld, isTo], packed.shape, ?_⟩
    intro row inside
    have positive := RowGroup.positive_of_visible (survives.visible group isGroup)
    rw [packed.cells _ _ (Nat.mod_lt row positive), Nat.div_add_mod', valueAt, same,
      survives.filled group isGroup row]

section Windows

/-- A group with the given values, all at one point. -/
def groupOf (validtimeto validtimefrom : PTime) (values : List (Option ℚ))
    (length_values : values.length = n * n) : RowGroup n ℚ where
  validtimeto := validtimeto
  validtimefrom := validtimefrom
  rows := values.map fun value =>
    { value := value
      param := some (1, 0)
      point := some ⟨600000000, 100000000⟩
      validtimefrom := validtimefrom
      validtimeto := validtimeto }
  length_rows := by rw [List.length_map, length_values]
  times := by simp
  points := by simp [undefinedPoint, INT_MIN]

/-- The only group of a query. -/
def single (group : RowGroup n ℚ) : RowGroups n ℚ where
  groups := [group]
  ascending := List.pairwise_singleton _ _

/-- The value of an hour, such as the precipitation. -/
def hourGroup : RowGroup 1 ℚ :=
  groupOf (.ticks (PTime.hours 2)) (.ticks (PTime.hours 1)) [some 5] rfl

/-- The values of a moment, the first of which is null. -/
def nullFirst : RowGroup 2 ℚ :=
  groupOf (.ticks (PTime.hours 1)) (.ticks (PTime.hours 1)) [none, some 5, some 6, some 7] rfl

/-- The matrix of an hour is stored under its start, and a null value moves the other values. -/
theorem not_storesAll_hour_nullFirst :
    ¬StoresAll (single hourGroup) ∧ ¬StoresAll (single nullFirst) := by
  constructor
  · intro stores
    obtain ⟨matrix, found, _⟩ := stores hourGroup (List.mem_singleton_self hourGroup)
    have missing : (read 1 (single hourGroup).rows).find? hourGroup.validtimeto = none := by rfl
    rw [missing] at found
    cases found
  · intro stores
    obtain ⟨matrix, found, _, cells⟩ := stores nullFirst (List.mem_singleton_self nullFirst)
    have first : ((read 2 (single nullFirst).rows).find? nullFirst.validtimeto).map
        (fun entry => (entry.2.cell 0 0).point) = some ⟨600000000, 100000000⟩ := by rfl
    have isNull : nullFirst.value? 0 = none := by rfl
    have cell := cells 0 (by decide)
    rw [isNull] at cell
    rw [found, Option.map_some, Option.some.injEq] at first
    rw [show (0 : ℕ) / 2 = 0 from rfl, show (0 : ℕ) % 2 = 0 from rfl] at cell
    rw [cell] at first
    revert first
    decide

end Windows

end LocationPointMatrixData

end Wdb2ts
