import Wdb2ts.DecodeRows
import Wdb2ts.UrlParam

/-!
# The fields that the rows of a result write

What a row does is told by the row alone, whatever the variables of `decodePData` hold from
the rows before.  A row that is stored writes at most one field of one cell.
-/

namespace Wdb2ts

namespace DecodePData

variable {F : Type} [RowReading F]

/-! ## What a row does -/

/-- What becomes of a row. -/
inductive RowOutcome (F : Type) where
  | unknownParam
  | noProvider
  | otherDataversion
  | noPoint
  | stored (locationPoint : LocationPoint) (row : DecodedRow F)

/-- The effect of a row on the data. -/
def RowOutcome.apply (isPolygonRequest : Bool) (data : LocationPointData F) :
    RowOutcome F → LocationPointData F
  | .unknownParam => data
  | .noProvider => data
  | .otherDataversion => data
  | .noPoint => data
  | .stored locationPoint row => store (locate isPolygonRequest locationPoint data) row data

/-- What becomes of a row, from the row alone. -/
def outcome [DecidableLT F] (decoder : Decoder F) (row : Row) :
    Except RowException (RowOutcome F) := do
  let found ← decoder.paramDefs.findParam row
  match found.1 with
  | none => pure .unknownParam
  | some paramDef =>
    let _reftime ← row.time F "referencetime"
    let from_ ← row.time F (if 2 < decoder.protocol then "validtimefrom" else "validfrom")
    let to_ ← row.time F (if 2 < decoder.protocol then "validtimeto" else "validto")
    let dataprovidername ← row.text F "dataprovidername"
    let placename ← row.text F "placename"
    let itProvider ← decoder.providers.findProviderFromWdb F dataprovidername placename
    let provider := rowProvider paramDef dataprovidername itProvider
    if itProvider.1 = false ∧ paramDef.alias_ ≠ Bytes.str "TOPOGRAPHY" ∧ provider.isEmpty then
      pure .noProvider
    else
      let isOther ← otherDataversion F (decoder.refTimeList.getDataversion provider) row
      if isOther then pure .otherDataversion
      else
        let point ← row.text F "point"
        match decodePoint F point with
        | none => pure .noPoint
        | some locationPoint =>
          let isConst := to_ = .posInfinity ∧ from_ = .negInfinity
          let value ← readValue paramDef row
          pure (.stored locationPoint
            { paramAlias := nameOf paramDef.alias_
              providerWithPlacename := renameProvider provider found.2
              validfrom := if isConst then PTime.epoch else from_
              validto := if isConst then PTime.epoch else to_
              value := value })

/-- A round of the loop does what becomes of its row. -/
def Agrees (isPolygonRequest : Bool) (data : LocationPointData F)
    (outcome : Except RowException (RowOutcome F))
    (decoded : Except RowException Unit × DecodeState F) : Prop :=
  match outcome with
  | .error exception => decoded.1 = .error exception
  | .ok outcome =>
      decoded.1 = .ok () ∧ decoded.2.locationPointData = outcome.apply isPolygonRequest data

theorem agrees_onOk {α : Type} {isPolygonRequest : Bool} {data : LocationPointData F}
    {result : Except RowException α} {state : DecodeState F}
    {next : α → Except RowException Unit × DecodeState F}
    {outcome : α → Except RowException (RowOutcome F)}
    (agrees : ∀ value, Agrees isPolygonRequest data (outcome value) (next value)) :
    Agrees isPolygonRequest data (result >>= outcome) (onOk result state next) := by
  cases result with
  | error exception => rfl
  | ok value => exact agrees value

/-- No variable that lives across the rows matters for a row. -/
theorem decodeRow_agrees [DecidableLT F] (decoder : Decoder F) (row : Row)
    (state : DecodeState F) :
    Agrees decoder.isPolygonRequest state.locationPointData (outcome decoder row)
      (decodeRow decoder row state) := by
  refine agrees_onOk fun found => ?_
  cases isParam : found.1 with
  | none => exact ⟨rfl, rfl⟩
  | some paramDef =>
      refine agrees_onOk fun reftime => ?_
      refine agrees_onOk fun from_ => ?_
      refine agrees_onOk fun to_ => ?_
      refine agrees_onOk fun dataprovidername => ?_
      refine agrees_onOk fun placename => ?_
      refine agrees_onOk fun itProvider => ?_
      simp only
      split
      · exact ⟨rfl, rfl⟩
      · refine agrees_onOk fun isOther => ?_
        cases isOther with
        | true => exact ⟨rfl, rfl⟩
        | false =>
            refine agrees_onOk fun point => ?_
            cases isPoint : decodePoint F point with
            | none => exact ⟨rfl, rfl⟩
            | some locationPoint =>
                refine agrees_onOk fun value => ?_
                exact ⟨rfl, rfl⟩

/-! ## Fields -/

/-- The address of a field: location, cell and member. -/
abbrev FieldAddress := LocationPoint × CellKey × PData.Member

/-- The value of a field of a time series, where a cell that is absent has no value. -/
def serieField (serie : TimeSerie F) (key : CellKey) (member : PData.Member) : F :=
  ((serie.cell? key).getD PData.missing).get member

/-- The value of a field. -/
def field (data : LocationPointData F) (address : FieldAddress) : F :=
  serieField ((data.find? address.1).getD ∅) address.2.1 address.2.2

/-- The cell of a row. -/
def rowKey (row : DecodedRow F) : CellKey :=
  ((storedTimes row).1, (storedTimes row).2, row.providerWithPlacename)

/-- The field that a row writes, with its value. -/
def writtenField (locationPoint : LocationPoint) (row : DecodedRow F) :
    Option (FieldAddress × F) :=
  match row.value with
  | none => none
  | some value =>
      match aliases.lookup row.paramAlias with
      | none => none
      | some (.cell member) => some ((locationPoint, rowKey row, member), value)
      | some (.constantField member suffix) =>
          some ((locationPoint,
            (PTime.epoch, PTime.epoch, row.providerWithPlacename ++ Bytes.str suffix), member),
            value)

/-- Write a field. -/
def write (fields : FieldAddress → F) (written : Option (FieldAddress × F)) : FieldAddress → F :=
  match written with
  | none => fields
  | some target => Function.update fields target.1 target.2

theorem serieField_updateCell (serie : TimeSerie F) (key : CellKey)
    (update : PData F → PData F) (other : CellKey) (member : PData.Member) :
    serieField (serie.updateCell key update) other member =
      if other = key then (update ((serie.cell? key).getD PData.missing)).get member
      else serieField serie other member := by
  simp only [serieField, TimeSerie.cell?_updateCell]
  split
  · rfl
  · rfl

/-- A new cell has no values. -/
theorem serieField_created (serie : TimeSerie F) (key other : CellKey) (member : PData.Member) :
    serieField (serie.updateCell key id) other member = serieField serie other member := by
  rw [serieField_updateCell]
  split
  · rename_i same
    rw [same]
    rfl
  · rfl

/-- A member of one cell is assigned. -/
theorem serieField_assigned (serie : TimeSerie F) (key : CellKey) (assigned : PData.Member)
    (value : F) (other : CellKey) (member : PData.Member) :
    serieField (serie.updateCell key fun data => data.set assigned value) other member =
      if other = key ∧ member = assigned then value else serieField serie other member := by
  rw [serieField_updateCell]
  by_cases same : other = key
  · rw [if_pos same, PData.get_set]
    simp only [same, true_and]
    rfl
  · rw [if_neg same, if_neg fun both => same both.1]

/-- The field of a time series that a row with a value assigns. -/
def rowTarget (row : DecodedRow F) : Option (CellKey × PData.Member) :=
  match aliases.lookup row.paramAlias with
  | none => none
  | some (.cell member) => some (rowKey row, member)
  | some (.constantField member suffix) =>
      some ((PTime.epoch, PTime.epoch, row.providerWithPlacename ++ Bytes.str suffix), member)

/-- A row that assigns no field creates its cell. -/
theorem storeRow_of_none {row : DecodedRow F} (unassigned : row.value = none ∨ rowTarget row = none)
    (serie : TimeSerie F) : storeRow serie row = serie.updateCell (rowKey row) id := by
  rw [storeRow]
  cases isValue : row.value with
  | none => rfl
  | some value =>
      have noTarget : rowTarget row = none := by simpa [isValue] using unassigned
      cases found : aliases.lookup row.paramAlias with
      | none => rfl
      | some target =>
          cases target with
          | cell member => simp [rowTarget, found] at noTarget
          | constantField member suffix => simp [rowTarget, found] at noTarget

/-- A row that assigns a field creates its cell first. -/
theorem storeRow_of_some {row : DecodedRow F} {value : F} {target : CellKey × PData.Member}
    (isValue : row.value = some value) (isTarget : rowTarget row = some target)
    (serie : TimeSerie F) :
    storeRow serie row =
      (serie.updateCell (rowKey row) id).updateCell target.1 fun data =>
        data.set target.2 value := by
  rw [rowTarget] at isTarget
  rw [storeRow, isValue]
  cases found : aliases.lookup row.paramAlias with
  | none =>
      rw [found] at isTarget
      cases isTarget
  | some entry =>
      rw [found] at isTarget
      cases entry with
      | cell member =>
          cases isTarget
          rfl
      | constantField member suffix =>
          cases isTarget
          rfl

theorem serieField_storeRow (serie : TimeSerie F) (row : DecodedRow F) (key : CellKey)
    (member : PData.Member) :
    serieField (storeRow serie row) key member =
      if rowTarget row = some (key, member) then row.value.getD (serieField serie key member)
      else serieField serie key member := by
  cases isValue : row.value with
  | none =>
      rw [Option.getD_none, ite_self, storeRow_of_none (Or.inl isValue), serieField_created]
  | some value =>
      cases isTarget : rowTarget row with
      | none => rw [storeRow_of_none (Or.inr isTarget), serieField_created, if_neg nofun]
      | some target =>
          rcases target with ⟨assignedKey, assigned⟩
          rw [storeRow_of_some isValue isTarget, serieField_assigned, serieField_created,
            Option.getD_some]
          simp only [Option.some.injEq, Prod.mk.injEq, @eq_comm _ key, @eq_comm _ member]

omit [RowReading F] in
theorem writtenField_eq (locationPoint : LocationPoint) (row : DecodedRow F) :
    writtenField locationPoint row = row.value.bind fun value =>
      (rowTarget row).map fun target => ((locationPoint, target), value) := by
  rw [writtenField, rowTarget]
  cases row.value with
  | none => rfl
  | some value =>
      cases aliases.lookup row.paramAlias with
      | none => rfl
      | some target =>
          cases target with
          | cell member => rfl
          | constantField member suffix => rfl

/-- Storing a row writes its field. -/
theorem field_store (locationPoint : LocationPoint) (row : DecodedRow F)
    (data : LocationPointData F) :
    field (store locationPoint row data) =
      write (field data) (writtenField locationPoint row) := by
  funext address
  obtain ⟨location, key, member⟩ := address
  rw [writtenField_eq]
  simp only [field, store, SortedMap.find?_upsert]
  cases isValue : row.value with
  | none =>
      by_cases same : location = locationPoint
      · rw [if_pos same, same, Option.getD_some, serieField_storeRow, isValue]
        simp [write, field]
      · rw [if_neg same]
        rfl
  | some value =>
      by_cases same : location = locationPoint
      · rw [if_pos same, same, Option.getD_some, serieField_storeRow, isValue]
        cases rowTarget row with
        | none => rfl
        | some target => simp [write, field, Function.update_apply, @eq_comm _ target]
      · rw [if_neg same]
        cases rowTarget row with
        | none => rfl
        | some target => simp [write, field, same]

/-! ## The fields of a result -/

/-- The field that a row writes, if it writes one. -/
def RowOutcome.written : RowOutcome F → Option (FieldAddress × F)
  | .stored locationPoint row => writtenField locationPoint row
  | _ => none

omit [RowReading F] in
theorem locate_polygon (locationPoint : LocationPoint) (data : LocationPointData F) :
    locate true locationPoint data = locationPoint := by
  simp only [locate]
  cases data.find? locationPoint <;> rfl

theorem field_apply (outcome : RowOutcome F) (data : LocationPointData F) :
    field (outcome.apply true data) = write (field data) outcome.written := by
  cases outcome with
  | unknownParam => rfl
  | noProvider => rfl
  | otherDataversion => rfl
  | noPoint => rfl
  | stored locationPoint row =>
      simp only [RowOutcome.apply, locate_polygon, field_store]
      rfl

/-- The cells that a stored row may add: its own cell, and the cell of its field. -/
def IsCellOf (locationPoint : LocationPoint) (row : DecodedRow F) (location : LocationPoint)
    (key : CellKey) : Prop :=
  location = locationPoint ∧
    (key = rowKey row ∨ ∃ target ∈ writtenField locationPoint row, key = target.1.2.1)

/-- Storing a row leaves the other cells alone. -/
theorem cell?_store_of_not {locationPoint location : LocationPoint} {row : DecodedRow F}
    {key : CellKey} (other : ¬IsCellOf locationPoint row location key)
    (data : LocationPointData F) :
    (store locationPoint row data).cell? location key = data.cell? location key := by
  simp only [LocationPointData.cell?, store, SortedMap.find?_upsert]
  by_cases same : location = locationPoint
  · rw [if_pos same, same, Option.bind_some]
    simp only [IsCellOf, same, true_and, not_or, not_exists, not_and] at other
    obtain ⟨otherKey, otherTarget⟩ := other
    have atOld : ((data.find? locationPoint).getD ∅).cell? key =
        (data.find? locationPoint).bind fun serie => serie.cell? key := by
      cases data.find? locationPoint with
      | none => rfl
      | some serie => rfl
    have atCreated : (((data.find? locationPoint).getD ∅).updateCell (rowKey row) id).cell? key =
        ((data.find? locationPoint).getD ∅).cell? key := by
      rw [TimeSerie.cell?_updateCell, if_neg otherKey]
    have created : (storeRow ((data.find? locationPoint).getD ∅) row).cell? key =
        ((data.find? locationPoint).getD ∅).cell? key := by
      cases isValue : row.value with
      | none => rw [storeRow_of_none (Or.inl isValue), atCreated]
      | some value =>
          cases isTarget : rowTarget row with
          | none => rw [storeRow_of_none (Or.inr isTarget), atCreated]
          | some target =>
              have notTarget : key ≠ target.1 :=
                otherTarget ((locationPoint, target), value)
                  (by rw [writtenField_eq, isValue, isTarget]; rfl)
              rw [storeRow_of_some isValue isTarget, TimeSerie.cell?_updateCell,
                if_neg notTarget, atCreated]
    exact created.trans atOld
  · rw [if_neg same]

/-- What a row does to the data: a row that is not stored does nothing, a row with a null value
adds at most an empty cell, and every row writes at most its own field and leaves the other cells
alone. -/
def RowEffect (outcome : RowOutcome F) (before next : LocationPointData F) : Prop :=
  field next = write (field before) outcome.written ∧
    match outcome with
    | .stored locationPoint row =>
        (row.value = none →
          next = before.upsert locationPoint fun serie =>
            (serie.getD ∅).updateCell (rowKey row) id) ∧
          ∀ location key, ¬IsCellOf locationPoint row location key →
            next.cell? location key = before.cell? location key
    | _ => next = before

theorem rowEffect_apply (outcome : RowOutcome F) (data : LocationPointData F) :
    RowEffect outcome data (outcome.apply true data) := by
  refine ⟨field_apply outcome data, ?_⟩
  cases outcome with
  | unknownParam => rfl
  | noProvider => rfl
  | otherDataversion => rfl
  | noPoint => rfl
  | stored locationPoint row =>
      simp only [RowOutcome.apply, locate_polygon]
      constructor
      · intro isNull
        simp only [store, storeRow, isNull]
        rfl
      · intro location key other
        exact cell?_store_of_not other data

/-! ## The rows of a result -/

variable [DecidableLT F]

/-- The field that a row of the result writes, if it writes one. -/
def writtenBy (decoder : Decoder F) (row : Row) : Option (FieldAddress × F) :=
  match outcome decoder row with
  | .error _ => none
  | .ok rowOutcome => rowOutcome.written

/-- The address of the field that a row of the result writes, if it writes one. -/
def targetOf (decoder : Decoder F) (row : Row) : Option FieldAddress :=
  (writtenBy decoder row).map Prod.fst

/-- The loop ends, exactly when each of its rows is decoded. -/
theorem decodeRows_ok_iff {decoder : Decoder F} {rows : List Row} {state : DecodeState F} :
    (decodeRows decoder rows state).1 = .ok () ↔
      ∀ row ∈ rows, ∃ rowOutcome, outcome decoder row = .ok rowOutcome := by
  induction rows generalizing state with
  | nil => simp [decodeRows]
  | cons row rest ih =>
      have agrees := decodeRow_agrees decoder row state
      cases isOutcome : outcome decoder row with
      | error exception =>
          rw [isOutcome] at agrees
          simp only [Agrees] at agrees
          simp [decodeRows, agrees, isOutcome]
      | ok rowOutcome =>
          rw [isOutcome] at agrees
          simp [decodeRows, agrees.1, ih, isOutcome]

theorem decodeRows_append {decoder : Decoder F} {earlier later : List Row}
    {state : DecodeState F} (isOk : (decodeRows decoder earlier state).1 = .ok ()) :
    decodeRows decoder (earlier ++ later) state =
      decodeRows decoder later (decodeRows decoder earlier state).2 := by
  induction earlier generalizing state with
  | nil => rfl
  | cons row rest ih =>
      cases isRow : (decodeRow decoder row state).1 with
      | error exception =>
          simp only [decodeRows, isRow] at isOk
          cases isOk
      | ok nothing =>
          simp only [decodeRows, isRow] at isOk
          simp only [List.cons_append, decodeRows, isRow]
          exact ih isOk

/-- The fields behind the loop are the fields that its rows write. -/
theorem field_decodeRows {decoder : Decoder F} (isPolygon : decoder.isPolygonRequest = true)
    {rows : List Row} {state : DecodeState F} (isOk : (decodeRows decoder rows state).1 = .ok ()) :
    field (decodeRows decoder rows state).2.locationPointData =
      rows.foldl (fun fields row => write fields (writtenBy decoder row))
        (field state.locationPointData) := by
  induction rows generalizing state with
  | nil => rfl
  | cons row rest ih =>
      obtain ⟨rowOutcome, isOutcome⟩ := decodeRows_ok_iff.mp isOk row List.mem_cons_self
      have agrees := decodeRow_agrees decoder row state
      rw [isOutcome, isPolygon] at agrees
      obtain ⟨isRow, isData⟩ := agrees
      simp only [decodeRows, isRow] at isOk
      simp only [decodeRows, isRow, List.foldl_cons, ih isOk, isData, field_apply, writtenBy,
        isOutcome]

omit [RowReading F] [DecidableLT F] in
/-- Fields with different addresses are written in any order. -/
theorem write_comm {first second : Option (FieldAddress × F)}
    (different : ∀ target ∈ first, ∀ other ∈ second, target.1 ≠ other.1)
    (fields : FieldAddress → F) :
    write (write fields first) second = write (write fields second) first := by
  cases first with
  | none => rfl
  | some target =>
      cases second with
      | none => rfl
      | some other => exact Function.update_comm (different target rfl other rfl) _ _ _

/-- Two rows write no common field. -/
def Apart (decoder : Decoder F) (first second : Row) : Prop :=
  ∀ target, targetOf decoder first = some target →
    ∀ other, targetOf decoder second = some other → target ≠ other

instance (decoder : Decoder F) : Std.Symm (Apart decoder) :=
  ⟨fun _ _ apart target isTarget other isOther => (apart other isOther target isTarget).symm⟩

/-- Rows with distinct targets write their fields in any order. -/
theorem foldl_write_perm {decoder : Decoder F} {rows rows' : List Row} (isPerm : rows.Perm rows')
    (distinct : (rows.filterMap (targetOf decoder)).Nodup) (fields : FieldAddress → F) :
    rows.foldl (fun fields row => write fields (writtenBy decoder row)) fields =
      rows'.foldl (fun fields row => write fields (writtenBy decoder row)) fields := by
  have apart : rows.Pairwise (Apart decoder) := List.pairwise_filterMap.mp distinct
  refine isPerm.foldl_eq' (fun first isFirst second isSecond fields => ?_) fields
  by_cases same : first = second
  · rw [same]
  · refine write_comm (fun target isTarget other isOther => ?_) fields
    exact apart.forall isFirst isSecond same target.1 (congrArg (Option.map Prod.fst) isTarget)
      other.1 (congrArg (Option.map Prod.fst) isOther)

/-- `decodePData` ends, exactly when each row is decoded. -/
theorem decodePData_ok_iff {decoder : Decoder F} {rows : List Row}
    {data : LocationPointData F} :
    (decodePData decoder rows data).1 = .ok () ↔
      ∀ row ∈ rows, ∃ rowOutcome, outcome decoder row = .ok rowOutcome := by
  have isLoop : (decodeRows decoder rows (start data)).1 = .ok () ↔ _ := decodeRows_ok_iff
  rw [← isLoop]
  simp only [decodePData]
  cases (decodeRows decoder rows (start data)).1 with
  | error exception => simp [Except.mapError]
  | ok nothing => simp [Except.mapError]

/-- Every row writes at most the one field that its point, times, provider and parameter give,
and rows with distinct targets give the same fields in every order. -/
theorem decodePData_fields {decoder : Decoder F} {rows : List Row} {data : LocationPointData F}
    (isPolygon : decoder.isPolygonRequest = true)
    (isOk : (decodePData decoder rows data).1 = .ok ()) :
    (∀ earlier row later, rows = earlier ++ row :: later →
      ∃ rowOutcome before next, outcome decoder row = .ok rowOutcome ∧
        decodePData decoder earlier data = (.ok (), before) ∧
        decodePData decoder (earlier ++ [row]) data = (.ok (), next) ∧
        RowEffect rowOutcome before next) ∧
      ∀ rows', rows'.Perm rows → (rows.filterMap (targetOf decoder)).Nodup →
        (decodePData decoder rows' data).1 = .ok () ∧
          field (decodePData decoder rows' data).2 = field (decodePData decoder rows data).2 := by
  have decoded := decodePData_ok_iff.mp isOk
  constructor
  · intro earlier row later isRows
    obtain ⟨rowOutcome, isOutcome⟩ := decoded row (by simp [isRows])
    have isEarlier : (decodeRows decoder earlier (start data)).1 = .ok () :=
      decodeRows_ok_iff.mpr fun other member => decoded other (by simp [isRows, member])
    have agrees := decodeRow_agrees decoder row (decodeRows decoder earlier (start data)).2
    rw [isOutcome, isPolygon] at agrees
    obtain ⟨isRow, isData⟩ := agrees
    refine ⟨rowOutcome, (decodeRows decoder earlier (start data)).2.locationPointData, _,
      isOutcome, ?_, ?_, rowEffect_apply rowOutcome _⟩
    · simp only [decodePData, isEarlier]
      rfl
    · simp only [decodePData, decodeRows_append isEarlier, decodeRows, isRow, isData]
      rfl
  · intro rows' isPerm distinct
    have isOk' : (decodePData decoder rows' data).1 = .ok () :=
      decodePData_ok_iff.mpr fun row member => decoded row (isPerm.mem_iff.mp member)
    refine ⟨isOk', ?_⟩
    have isLoop : (decodeRows decoder rows (start data)).1 = .ok () :=
      decodeRows_ok_iff.mpr decoded
    have isLoop' : (decodeRows decoder rows' (start data)).1 = .ok () :=
      decodeRows_ok_iff.mpr (decodePData_ok_iff.mp isOk')
    simp only [decodePData, field_decodeRows isPolygon isLoop, field_decodeRows isPolygon isLoop']
    exact (foldl_write_perm isPerm.symm distinct _).symm

/-! ## An example -/

/-- The texts of whole numbers, and the times that are no dates. -/
instance : RowReading ℚ where
  asInt text := ((scanInt text).map Except.ok).getD (.error (.runtimeError text))
  asFloat text :=
    ((scanInt text).map fun number => Except.ok (number : ℚ)).getD (.error (.runtimeError text))
  nullConversion := .runtimeError (Bytes.str "Attempt to read null field")
  unknownColumn _ := .logicError (Bytes.str "Unknown column name")
  ptimeFromIsoString text :=
    if text = Bytes.str "infinity" then .ok .posInfinity
    else if text = Bytes.str "-infinity" then .ok .negInfinity
    else if text = Bytes.str "1970-01-01 00:00:00" then .ok PTime.epoch
    else .error (.logicError text)
  scanPair text :=
    match miutil.splitstr text (Bytes.chr ' ') (Bytes.chr '"') with
    | [first, second] => do
        let first ← scanInt first
        let second ← scanInt second
        some (first, second)
    | _ => none
  rint value := round value
  file := Bytes.str "ProviderList.cpp"

/-- A parameter of the ground level, in its own unit. -/
def groundParam (alias_ : String) : ParamDef ℚ :=
  { alias_ := Bytes.str alias_
    valueparametername := Bytes.str alias_
    valueparameterunit := Bytes.str "1"
    levelparametername := Bytes.str "height"
    levelfrom := 0
    levelto := 0
    levelunitname := Bytes.str "m"
    scale := 1
    offset := 0
    dataversion := -1
    compare := .undef
    compareValue := 0
    interpolation := [] }

/-- A row of a parameter of the ground level. -/
def groundRow (alias_ value : String) : Row :=
  [("value", some (Bytes.str value)), ("dataprovidername", some (Bytes.str "met.no")),
    ("placename", some (Bytes.str "hirlam_grid")), ("point", some (Bytes.str "POINT(10 60)")),
    ("referencetime", some (Bytes.str "1970-01-01 00:00:00")),
    ("validtimefrom", some (Bytes.str "-infinity")),
    ("validtimeto", some (Bytes.str "infinity")),
    ("valueparametername", some (Bytes.str alias_)),
    ("valueparameterunit", some (Bytes.str "1")),
    ("levelparametername", some (Bytes.str "height")), ("levelfrom", some (Bytes.str "0")),
    ("levelto", some (Bytes.str "0")), ("levelunitname", some (Bytes.str "m")),
    ("dataversion", some (Bytes.str "0"))]

/-- A table with a temperature and the topography. -/
def groundDecoder : Decoder ℚ :=
  { paramDefs :=
      ⟨(∅ : SortedMap Bytes (List (ParamDef ℚ))).upsert defaultProvider fun _ =>
          [groundParam "T.2M", groundParam "TOPOGRAPHY"], ∅⟩
    providers := [⟨Bytes.str "met.no", []⟩]
    refTimeList := ∅
    isPolygonRequest := true
    protocol := 5 }

theorem decodePData_fields_twoRows :
    field (decodePData groundDecoder [groundRow "TOPOGRAPHY" "210", groundRow "T.2M" "4"] ∅).2 =
      field (decodePData groundDecoder [groundRow "T.2M" "4", groundRow "TOPOGRAPHY" "210"] ∅).2 :=
  ((decodePData_fields rfl (by decide +kernel)).2 _ (List.Perm.swap _ _ _)
    (by decide +kernel)).2

end DecodePData

end Wdb2ts
