import Wdb2ts.PointData

/-!
# Merging query results

`WdbDataRequestManager::mergeData` merges the results of all completed requests into
one `LocationPointData`.  The first result is taken as it is, and every later one is
merged cell by cell.  The iterator of a location is looked up once, before the cells of
that location are merged, so a location that the accumulator does not hold yet gets a
fresh time series for every one of its cells.
-/

namespace Wdb2ts

variable {F : Type} [FloatLimits F] [DecidableEq F]

/-- What `mergeData` reads of a `WdbDataRequestCommand`. -/
structure WdbDataRequestCommand (F : Type) where
  data : LocationPointData F
  ok : Bool

/-- What `mergeData` reads of a `ThreadInfo`. -/
structure ThreadInfo (F : Type) where
  command : WdbDataRequestCommand F
  mustHaveData : Bool
  completed : Bool

/-- A completed and successful request, that has data when it must. -/
structure ThreadInfo.Accepted (info : ThreadInfo F) : Prop where
  completed : info.completed = true
  ok : info.command.ok = true
  hasData : info.mustHaveData = true → info.command.data.entries ≠ []

omit [FloatLimits F] [DecidableEq F] in
theorem ThreadInfo.Accepted.notEmpty {info : ThreadInfo F} (accepted : info.Accepted) :
    (info.mustHaveData && info.command.data.entries.isEmpty) = false := by
  simpa using accepted.hasData

namespace WdbDataRequestManager

/-- The body of the innermost loop of `mergeData`.  `found` tells whether the iterator
of the location, looked up before its first cell was merged, is not `end()`. -/
def mergeCell (isPolygon found : Bool) (point : LocationPoint)
    (data : LocationPointData F) (cell : CellKey × PData F) : LocationPointData F :=
  if isPolygon || data.size == 0 then
    let data := if found then data else data.insert point ∅
    data.upsert point fun serie => (serie.getD ∅).mergeCell cell.1 cell.2
  else
    match data.entries with
    | [] => data
    | (first, _) :: _ =>
        data.upsert first fun serie => (serie.getD ∅).mergeCell cell.1 cell.2

/-- Merge the time series of one location: the three nested loops over its cells. -/
def mergeLocation (isPolygon : Bool) (data : LocationPointData F)
    (location : LocationPoint × TimeSerie F) : LocationPointData F :=
  let found := data.contains location.1
  location.2.entries.foldl (fun data toTime =>
    toTime.2.entries.foldl (fun data fromTime =>
      fromTime.2.entries.foldl (fun data provider =>
        mergeCell isPolygon found location.1 data
          ((toTime.1, fromTime.1, provider.1), provider.2)) data) data) data

/-- Merge the result of one request. -/
def mergeRequest (isPolygon : Bool) (data request : LocationPointData F) :
    LocationPointData F :=
  request.entries.foldl (mergeLocation isPolygon) data

/-- The loop of `mergeData` over `threadInfos`. -/
def mergeLoop (isPolygon : Bool) :
    List (ThreadInfo F) → Bool → LocationPointData F → LocationPointData F
  | [], _, data => data
  | info :: rest, first, data =>
      if !info.completed then mergeLoop isPolygon rest first data
      else if !info.command.ok then ∅
      else if info.mustHaveData && info.command.data.entries.isEmpty then ∅
      else if first then mergeLoop isPolygon rest false info.command.data
      else mergeLoop isPolygon rest first (mergeRequest isPolygon data info.command.data)

/-- `WdbDataRequestManager::mergeData`. -/
def mergeData (threadInfos : List (ThreadInfo F)) (isPolygon : Bool) :
    LocationPointData F :=
  mergeLoop isPolygon threadInfos true ∅

/-! ## The union of the results -/

/-- Merge a cell, when there is one, into an accumulated cell. -/
def mergedCell (accumulated : Option (PData F)) : Option (PData F) → Option (PData F)
  | none => accumulated
  | some data => some ((accumulated.getD PData.missing).merge data)

@[simp] theorem mergedCell_none (cell : Option (PData F)) : mergedCell none cell = cell := by
  cases cell with
  | none => rfl
  | some data => simp [mergedCell]

/-- The cell that results when the cells of all the requests are merged in order. -/
def unionCell (requests : List (LocationPointData F)) (point : LocationPoint)
    (key : CellKey) (start : Option (PData F)) : Option (PData F) :=
  requests.foldl (fun cell request => mergedCell cell (request.cell? point key)) start

/-- The values, in request order, that the requests give a member of a cell. -/
def memberValues (requests : List (LocationPointData F)) (point : LocationPoint)
    (key : CellKey) (member : PData.Member) : List F :=
  ((requests.filterMap fun request => request.cell? point key).map
    (PData.get · member)).filter (· ≠ FLT_MAX)

/-- The last of these values, or missing when there is none. -/
def lastValue (requests : List (LocationPointData F)) (point : LocationPoint)
    (key : CellKey) (member : PData.Member) : F :=
  (memberValues requests point key member).getLast?.getD FLT_MAX

/-- The cells of `data` are the union of the cells of the requests, and each member of
a cell has the last value that is not missing. -/
def IsUnion (requests : List (LocationPointData F)) (data : LocationPointData F) : Prop :=
  (∀ point key, (data.cell? point key).isSome ↔
    ∃ request ∈ requests, (request.cell? point key).isSome) ∧
  ∀ point key cell, data.cell? point key = some cell →
    ∀ member, cell.get member = lastValue requests point key member

/-- Some later request has the cell, and each value the cell has is also given by a
later request. -/
def SuppliedAgain (later : List (LocationPointData F)) (point : LocationPoint)
    (key : CellKey) (cell : PData F) : Prop :=
  (∃ request ∈ later, (request.cell? point key).isSome) ∧
  ∀ member, cell.get member ≠ FLT_MAX →
    ∃ request ∈ later, ∃ other, request.cell? point key = some other ∧
      other.get member ≠ FLT_MAX

/-- In the first of the requests that has cells of the location, every cell but the last
one, in iteration order, is supplied again. -/
def FirstCellsSuppliedAgain (point : LocationPoint) : List (LocationPointData F) → Prop
  | [] => True
  | request :: later =>
      (∀ cell ∈ (request.cells point).dropLast, SuppliedAgain later point cell.1 cell.2) ∧
      (request.cells point = [] → FirstCellsSuppliedAgain point later)

/-- For every location the first request does not have, the cells that are lost when a
later request brings the location are supplied again. -/
def NewLocationsSuppliedAgain : List (LocationPointData F) → Prop
  | [] => True
  | first :: rest => ∀ point, first.find? point = none → FirstCellsSuppliedAgain point rest

section Union

variable {requests : List (LocationPointData F)} {point : LocationPoint} {key : CellKey}

@[simp] theorem unionCell_cons (request : LocationPointData F)
    (rest : List (LocationPointData F)) (point : LocationPoint) (key : CellKey)
    (start : Option (PData F)) :
    unionCell (request :: rest) point key start =
      unionCell rest point key (mergedCell start (request.cell? point key)) := rfl

theorem unionCell_isSome (start : Option (PData F)) :
    (unionCell requests point key start).isSome ↔
      start.isSome ∨ ∃ request ∈ requests, (request.cell? point key).isSome := by
  induction requests generalizing start with
  | nil => simp [unionCell]
  | cons request rest ih =>
      rw [unionCell_cons, ih]
      cases found : request.cell? point key with
      | none => simp [mergedCell, found]
      | some data => simp [mergedCell, found]

/-- A member of a merged cell is its last value, or the one it started with. -/
theorem unionCell_get (requests : List (LocationPointData F)) (point : LocationPoint)
    (key : CellKey) (member : PData.Member) (start : Option (PData F)) :
    ((unionCell requests point key start).getD PData.missing).get member =
      (memberValues requests point key member).getLast?.getD
        ((start.getD PData.missing).get member) := by
  induction requests generalizing start with
  | nil => simp [unionCell, memberValues]
  | cons request rest ih =>
      rw [unionCell_cons, ih]
      cases found : request.cell? point key with
      | none => simp [mergedCell, memberValues, found]
      | some data =>
          cases Decidable.em (data.get member = FLT_MAX) with
          | inl absent => simp [mergedCell, memberValues, found, absent]
          | inr present => simp [mergedCell, memberValues, found, present, List.getLast?_cons]

theorem memberValues_eq_nil_iff {member : PData.Member} :
    memberValues requests point key member = [] ↔
      ¬∃ request ∈ requests, ∃ other, request.cell? point key = some other ∧
        other.get member ≠ FLT_MAX := by
  simp only [memberValues, List.filter_eq_nil_iff, List.mem_map, List.mem_filterMap]
  constructor
  · intro every found
    rcases found with ⟨request, member', other, cell, value⟩
    exact every _ ⟨other, ⟨request, member', cell⟩, rfl⟩ (by simpa using value)
  · intro none value found
    rcases found with ⟨other, ⟨request, member', cell⟩, rfl⟩
    intro present
    exact none ⟨request, member', other, cell, by simpa using present⟩

omit [DecidableEq F] in
/-- Cells agree when they agree on being there and on every member. -/
private theorem cell_ext {left right : Option (PData F)} (same : left.isSome = right.isSome)
    (members : ∀ member, (left.getD PData.missing).get member =
      (right.getD PData.missing).get member) : left = right := by
  cases left with
  | none => exact (Option.isNone_iff_eq_none.mp (by simpa using same.symm)).symm
  | some cell =>
      rcases Option.isSome_iff_exists.mp same.symm with ⟨other, rfl⟩
      exact congrArg some (PData.ext_get members)

/-- The cells are the union of the requests' cells exactly when each of them is the
merge of the requests' cells in order. -/
theorem isUnion_iff {data : LocationPointData F} :
    IsUnion requests data ↔
      ∀ point key, data.cell? point key = unionCell requests point key none := by
  constructor
  · intro union point key
    apply cell_ext
    · rw [Bool.eq_iff_iff, union.1, unionCell_isSome]
      simp
    · intro member
      rw [unionCell_get]
      cases found : data.cell? point key with
      | some cell => exact union.2 point key cell found member
      | none =>
          have absent : memberValues requests point key member = [] := by
            rw [memberValues_eq_nil_iff]
            intro supplied
            rcases supplied with ⟨request, inside, other, cell, _⟩
            have held := (union.1 point key).mpr ⟨request, inside, by simp [cell]⟩
            simp [found] at held
          simp [absent]
  · intro equal
    constructor
    · intro point key
      rw [equal, unionCell_isSome]
      simp
    · intro point key cell found member
      have value := unionCell_get requests point key member none
      rw [← equal, found] at value
      exact value

/-- Starting without a cell makes no difference exactly when it is supplied again. -/
theorem unionCell_none_eq_some_iff (cell : PData F) :
    unionCell requests point key none = unionCell requests point key (some cell) ↔
      SuppliedAgain requests point key cell := by
  constructor
  · intro equal
    constructor
    · have held : (unionCell requests point key (some cell)).isSome := by
        simp [unionCell_isSome]
      rw [← equal, unionCell_isSome] at held
      simpa using held
    · intro member present
      apply Classical.byContradiction
      intro never
      have absent := memberValues_eq_nil_iff.mpr never
      have before := unionCell_get requests point key member none
      have after := unionCell_get requests point key member (some cell)
      rw [equal, after] at before
      simp only [absent, List.getLast?_nil, Option.getD_none, Option.getD_some] at before
      exact present before
  · intro again
    apply cell_ext
    · rw [Bool.eq_iff_iff, unionCell_isSome, unionCell_isSome]
      simpa using again.1
    · intro member
      rw [unionCell_get, unionCell_get]
      cases values : memberValues requests point key member with
      | cons head rest => simp [List.getLast?_cons]
      | nil =>
          have absent : cell.get member = FLT_MAX := by
            apply Classical.byContradiction
            intro present
            exact memberValues_eq_nil_iff.mp values (again.2 member present)
          simp [absent]

end Union

/-! ## One request -/

/-- What merging a time series does to the one held at its location. -/
def mergedSerie (held : Option (TimeSerie F)) (serie : TimeSerie F) :
    Option (TimeSerie F) :=
  match held with
  | some old => some (serie.cells.foldl (fun old cell => old.mergeCell cell.1 cell.2) old)
  | none => serie.cells.getLast?.map fun cell =>
      TimeSerie.mergeCell ∅ cell.1 cell.2

/-- The nested loops visit the cells in iteration order. -/
theorem mergeLocation_eq_foldl (isPolygon : Bool) (data : LocationPointData F)
    (location : LocationPoint × TimeSerie F) :
    mergeLocation isPolygon data location =
      location.2.cells.foldl
        (mergeCell isPolygon (data.contains location.1) location.1) data := by
  simp only [mergeLocation, TimeSerie.cells, List.foldl_flatMap, List.foldl_map]

/-- The new value of the location after one cell. -/
theorem find?_mergeCell (found : Bool) (point other : LocationPoint)
    (data : LocationPointData F) (cell : CellKey × PData F) :
    (mergeCell true found point data cell).find? other =
      if other = point then
        some (((if found then data.find? point else none).getD ∅).mergeCell cell.1 cell.2)
      else data.find? other := by
  cases found with
  | true => simp [mergeCell, SortedMap.find?_upsert]
  | false =>
      cases Decidable.em (other = point) with
      | inl same => simp [mergeCell, same]
      | inr different =>
          simp [mergeCell, SortedMap.find?_upsert, SortedMap.find?_insert, different]

private theorem find?_foldl_held (point : LocationPoint) (cells : List (CellKey × PData F))
    (data : LocationPointData F) (serie : TimeSerie F) (held : data.find? point = some serie) :
    (cells.foldl (mergeCell true true point) data).find? point =
      some (cells.foldl (fun old cell => old.mergeCell cell.1 cell.2) serie) := by
  induction cells generalizing data serie with
  | nil => exact held
  | cons cell rest ih =>
      apply ih
      simp [find?_mergeCell, held]

private theorem find?_foldl_new (point : LocationPoint) (cells : List (CellKey × PData F))
    (data : LocationPointData F) :
    (cells.foldl (mergeCell true false point) data).find? point =
      match cells.getLast? with
      | none => data.find? point
      | some cell => some (TimeSerie.mergeCell ∅ cell.1 cell.2) := by
  induction cells using List.reverseRecOn with
  | nil => rfl
  | append_singleton rest cell _ => simp [find?_mergeCell]

/-- Merging the time series of a location changes that location only. -/
theorem find?_mergeLocation_of_ne (data : LocationPointData F)
    (location : LocationPoint × TimeSerie F) (other : LocationPoint)
    (different : other ≠ location.1) :
    (mergeLocation true data location).find? other = data.find? other := by
  rw [mergeLocation_eq_foldl]
  generalize data.contains location.1 = found
  induction location.2.cells generalizing data with
  | nil => rfl
  | cons cell rest ih => simp [ih, find?_mergeCell, different]

theorem find?_mergeLocation_self (data : LocationPointData F)
    (location : LocationPoint × TimeSerie F) :
    (mergeLocation true data location).find? location.1 =
      mergedSerie (data.find? location.1) location.2 := by
  rw [mergeLocation_eq_foldl]
  cases held : data.find? location.1 with
  | none =>
      have absent : data.contains location.1 = false := by simp [SortedMap.contains, held]
      rw [absent, find?_foldl_new]
      cases last : location.2.cells.getLast? with
      | none => simp [mergedSerie, held, last]
      | some cell => simp [mergedSerie, last]
  | some serie =>
      have present : data.contains location.1 = true := by simp [SortedMap.contains, held]
      rw [present]
      exact find?_foldl_held _ _ _ _ held

/-- One request, seen at one location. -/
theorem find?_mergeRequest (data request : LocationPointData F) (point : LocationPoint) :
    (mergeRequest true data request).find? point =
      (request.find? point).elim (data.find? point) (mergedSerie (data.find? point)) := by
  apply SortedMap.foldl_entries
    (fun data : LocationPointData F => data.find? point) mergedSerie
  · intro data location different
    exact find?_mergeLocation_of_ne data location point different
  · intro data serie
    exact find?_mergeLocation_self data (point, serie)

/-- Merging every cell of a time series into another one. -/
theorem cell?_foldl_mergeCell (serie old : TimeSerie F) (key : CellKey) :
    (serie.cells.foldl (fun old cell => old.mergeCell cell.1 cell.2) old).cell? key =
      mergedCell (old.cell? key) (serie.cell? key) := by
  have frame : ∀ (old : TimeSerie F) (cell : CellKey × PData F), key ≠ cell.1 →
      (old.mergeCell cell.1 cell.2).cell? key = old.cell? key := by
    intro old cell different
    simp [TimeSerie.cell?_mergeCell, different]
  cases found : serie.cell? key with
  | none =>
      apply SortedMap.foldl_unobserved (TimeSerie.cell? · key) frame
      intro cell member same
      rw [same, TimeSerie.mem_cells_iff.mp (show (cell.1, cell.2) ∈ _ from member)] at found
      cases found
  | some data =>
      have effect : ∀ (old : TimeSerie F) (data : PData F),
          (old.mergeCell key data).cell? key = mergedCell (old.cell? key) (some data) := by
        intro old data
        simp [TimeSerie.cell?_mergeCell, mergedCell]
      exact SortedMap.foldl_observed (TimeSerie.cell? · key)
        (fun held data => mergedCell held (some data))
        frame effect serie.cells_distinct (TimeSerie.mem_cells_iff.mpr found) old

/-- A location that is held gets every cell of a request. -/
theorem cell?_mergeRequest_of_held (data request : LocationPointData F)
    (point : LocationPoint) (key : CellKey) (held : data.contains point) :
    (mergeRequest true data request).cell? point key =
      mergedCell (data.cell? point key) (request.cell? point key) := by
  rcases Option.isSome_iff_exists.mp held with ⟨old, found⟩
  cases given : request.find? point with
  | none =>
      simp [LocationPointData.cell?, find?_mergeRequest, given, mergedCell]
  | some serie =>
      simp [LocationPointData.cell?, find?_mergeRequest, given, found, mergedSerie,
        cell?_foldl_mergeCell]

/-- A location that is not held keeps the last cell only. -/
theorem find?_mergeRequest_of_new (data request : LocationPointData F)
    (point : LocationPoint) (new : data.find? point = none) :
    (mergeRequest true data request).find? point =
      (request.cells point).getLast?.map fun cell =>
        TimeSerie.mergeCell ∅ cell.1 cell.2 := by
  rw [find?_mergeRequest, new]
  cases found : request.find? point with
  | none => simp [LocationPointData.cells, found]
  | some serie => simp [LocationPointData.cells, found, mergedSerie]

/-! ## The whole loop -/

/-- A location that is held gets the cells of all the requests. -/
theorem cell?_foldl_mergeRequest (requests : List (LocationPointData F))
    (data : LocationPointData F) (point : LocationPoint) (key : CellKey)
    (held : data.contains point) :
    (requests.foldl (mergeRequest true) data).cell? point key =
      unionCell requests point key (data.cell? point key) := by
  induction requests generalizing data with
  | nil => rfl
  | cons request rest ih =>
      have stillHeld : (mergeRequest true data request).contains point := by
        rcases Option.isSome_iff_exists.mp held with ⟨old, found⟩
        simp only [SortedMap.contains, find?_mergeRequest, found]
        cases request.find? point with
        | none => rfl
        | some serie => rfl
      rw [List.foldl_cons, ih _ stillHeld, unionCell_cons,
        cell?_mergeRequest_of_held data request point key held]

/-- The last cell is kept and the others are not, so the later requests must make up for
those. -/
private theorem keptCell_iff (later : List (LocationPointData F))
    (data request : LocationPointData F) (point : LocationPoint)
    (new : data.find? point = none) (init : List (CellKey × PData F))
    (last : CellKey × PData F) (split : request.cells point = init ++ [last]) :
    (∀ key, unionCell later point key ((mergeRequest true data request).cell? point key) =
        unionCell later point key (request.cell? point key)) ↔
      ∀ cell ∈ init, SuppliedAgain later point cell.1 cell.2 := by
  have kept : ∀ key, (mergeRequest true data request).cell? point key =
      if key = last.1 then some last.2 else none := by
    intro key
    have noCell (other : CellKey) : (∅ : TimeSerie F).cell? other = none := rfl
    simp [LocationPointData.cell?, find?_mergeRequest_of_new data request point new, split,
      TimeSerie.cell?_mergeCell, noCell]
  have distinct := request.cells_distinct point
  rw [split, List.pairwise_append] at distinct
  have cellOf : ∀ cell ∈ init ++ [last], request.cell? point cell.1 = some cell.2 := by
    intro cell member
    rw [← split] at member
    exact LocationPointData.mem_cells_iff.mp member
  constructor
  · intro equal cell member
    have different : cell.1 ≠ last.1 := distinct.2.2 cell member last (List.mem_singleton_self _)
    have atCell := equal cell.1
    rw [kept, if_neg different, cellOf cell (List.mem_append_left _ member)] at atCell
    exact (unionCell_none_eq_some_iff cell.2).mp atCell
  · intro again key
    rw [kept]
    cases found : request.cell? point key with
    | none =>
        have different : key ≠ last.1 := by
          intro same
          rw [same, cellOf last (by simp)] at found
          cases found
        rw [if_neg different]
    | some cell =>
        have member := LocationPointData.mem_cells_iff.mpr found
        rw [split, List.mem_append, List.mem_singleton] at member
        rcases member with inInit | isLast
        · have different : key ≠ last.1 :=
            distinct.2.2 (key, cell) inInit last (List.mem_singleton_self _)
          rw [if_neg different]
          exact (unionCell_none_eq_some_iff cell).mpr (again (key, cell) inInit)
        · simp [← isLast]

/-- The cells of a new location come out right exactly when those that are lost are
supplied again. -/
theorem newLocation_iff (requests : List (LocationPointData F))
    (data : LocationPointData F) (point : LocationPoint) (new : data.find? point = none) :
    (∀ key, (requests.foldl (mergeRequest true) data).cell? point key =
        unionCell requests point key none) ↔
      FirstCellsSuppliedAgain point requests := by
  induction requests generalizing data with
  | nil => simp [FirstCellsSuppliedAgain, unionCell, LocationPointData.cell?, new]
  | cons request later ih =>
      have after := find?_mergeRequest_of_new data request point new
      simp only [List.foldl_cons, unionCell_cons, mergedCell_none]
      rcases List.eq_nil_or_concat (request.cells point) with empty | ⟨init, last, split⟩
      · have absent : ∀ key, request.cell? point key = none := by
          intro key
          apply Option.eq_none_iff_forall_ne_some.mpr
          intro cell found
          have member := LocationPointData.mem_cells_iff.mpr found
          simp [empty] at member
        rw [empty] at after
        simp only [FirstCellsSuppliedAgain, empty, List.dropLast_nil, List.not_mem_nil,
          false_implies, implies_true, true_implies, true_and, absent]
        exact ih _ after
      · rw [List.concat_eq_append] at split
        have held : (mergeRequest true data request).contains point := by
          simp [SortedMap.contains, after, split]
        simp only [FirstCellsSuppliedAgain, split, List.dropLast_concat,
          List.append_eq_nil_iff, List.cons_ne_nil, and_false, false_implies, and_true,
          cell?_foldl_mergeRequest later _ point _ held]
        exact keptCell_iff later data request point new init last split

/-- Accepted requests are merged one after the other into the result of the first. -/
theorem mergeLoop_of_accepted (isPolygon : Bool) (infos : List (ThreadInfo F))
    (accepted : ∀ info ∈ infos, info.Accepted) (data : LocationPointData F) :
    mergeLoop isPolygon infos false data =
      (infos.map fun info => info.command.data).foldl (mergeRequest isPolygon) data := by
  induction infos generalizing data with
  | nil => rfl
  | cons info rest ih =>
      have head := accepted info List.mem_cons_self
      simp only [mergeLoop, head.completed, head.ok, head.notEmpty, Bool.not_true,
        Bool.false_eq_true, if_false, List.map_cons, List.foldl_cons]
      exact ih (fun other member => accepted other (List.mem_cons_of_mem _ member)) _

/-- The merged data is the union of the results exactly when no cell that a new location
loses is needed. -/
theorem mergeData_isUnion_iff (infos : List (ThreadInfo F))
    (accepted : ∀ info ∈ infos, info.Accepted) :
    IsUnion (infos.map fun info => info.command.data) (mergeData infos true) ↔
      NewLocationsSuppliedAgain (infos.map fun info => info.command.data) := by
  rw [isUnion_iff]
  cases infos with
  | nil => simp [NewLocationsSuppliedAgain, mergeData, mergeLoop, unionCell,
      LocationPointData.cell?]
  | cons first rest =>
      have head := accepted first List.mem_cons_self
      have result : mergeData (first :: rest) true =
          (rest.map fun info => info.command.data).foldl (mergeRequest true)
            first.command.data := by
        simp only [mergeData, mergeLoop, head.completed, head.ok, head.notEmpty, Bool.not_true,
          Bool.false_eq_true, if_false, if_true]
        exact mergeLoop_of_accepted true rest
          (fun other member => accepted other (List.mem_cons_of_mem _ member)) _
      simp only [result, List.map_cons, NewLocationsSuppliedAgain, unionCell_cons,
        mergedCell_none]
      constructor
      · intro equal point new
        apply (newLocation_iff _ first.command.data point new).mp
        intro key
        rw [equal point key]
        simp [LocationPointData.cell?, new]
      · intro again point key
        cases found : first.command.data.find? point with
        | none =>
            have cell := (newLocation_iff _ first.command.data point found).mpr
              (again point found) key
            simpa [LocationPointData.cell?, found] using cell
        | some serie =>
            apply cell?_foldl_mergeRequest
            simp [SortedMap.contains, found]

/-! ### A location in the second result -/

section LostCell

private def oneCell (key : CellKey) (value : ℚ) : TimeSerie ℚ :=
  TimeSerie.mergeCell ∅ key (PData.missing.set .T2M value)

/-- The first result, with one cell at the origin. -/
def originResult : LocationPointData ℚ :=
  (∅ : LocationPointData ℚ).insert ⟨0, 0⟩
    (oneCell (PTime.ticks 0, PTime.ticks 0, Bytes.str "arome") 280)

/-- The second result, with two cells at another location. -/
def otherResult : LocationPointData ℚ :=
  (∅ : LocationPointData ℚ).insert ⟨600000000, 100000000⟩
    ((oneCell (PTime.ticks 0, PTime.ticks 0, Bytes.str "arome") 281).mergeCell
      (PTime.ticks 1, PTime.ticks 1, Bytes.str "arome") (PData.missing.set .T2M 282))

/-- Two successful requests. -/
def twoRequests : List (ThreadInfo ℚ) :=
  [⟨⟨originResult, true⟩, false, true⟩, ⟨⟨otherResult, true⟩, false, true⟩]

theorem twoRequests_accepted : ∀ info ∈ twoRequests, info.Accepted := by
  intro info member
  simp only [twoRequests, List.mem_cons, List.not_mem_nil, or_false] at member
  rcases member with rfl | rfl
  · exact ⟨rfl, rfl, by simp⟩
  · exact ⟨rfl, rfl, by simp⟩

/-- The first of the two cells of the new location is lost. -/
theorem mergeData_loses_cell :
    (∀ info ∈ twoRequests, info.Accepted) ∧
    ¬IsUnion (twoRequests.map fun info => info.command.data) (mergeData twoRequests true) := by
  constructor
  · exact twoRequests_accepted
  · intro union
    have supplied := (union.1 ⟨600000000, 100000000⟩
      (PTime.ticks 0, PTime.ticks 0, Bytes.str "arome")).mpr
        ⟨otherResult, by simp [twoRequests], by decide⟩
    revert supplied
    decide

theorem mergeData_isUnion_iff_twoRequests :
    IsUnion (twoRequests.map fun info => info.command.data) (mergeData twoRequests true) ↔
      NewLocationsSuppliedAgain (twoRequests.map fun info => info.command.data) :=
  mergeData_isUnion_iff twoRequests twoRequests_accepted

end LostCell

end WdbDataRequestManager

end Wdb2ts
