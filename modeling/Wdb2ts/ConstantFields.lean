import Wdb2ts.Cleanup
import Wdb2ts.FieldDecoders
import Wdb2ts.ModelTopography

/-!
# Constant fields

The values of the constant fields do not change with time.  `decodePData` moves most of them to
the pseudo time 1970-01-01, where the accessors of a `LocationElem` look for them.
-/

namespace Wdb2ts

variable {F : Type}

/-! ## The rows of a location -/

namespace DecodePData

variable [RowReading F]

/-- The row that an outcome stores at a location, if it stores one there. -/
def RowOutcome.storedAt (isPolygonRequest : Bool) (data : LocationPointData F)
    (location : LocationPoint) : RowOutcome F → Option (DecodedRow F)
  | .stored locationPoint row =>
      if locate isPolygonRequest locationPoint data = location then some row else none
  | _ => none

/-- The rows that `decodePData` stores at a location, in their order. -/
def storedAt [DecidableLT F] (decoder : Decoder F) :
    List Row → LocationPointData F → LocationPoint → List (DecodedRow F)
  | [], _, _ => []
  | row :: rest, data, location =>
      match outcome decoder row with
      | .error _ => []
      | .ok rowOutcome =>
          (rowOutcome.storedAt decoder.isPolygonRequest data location).toList ++
            storedAt decoder rest (rowOutcome.apply decoder.isPolygonRequest data) location

theorem serie_apply (isPolygonRequest : Bool) (data : LocationPointData F)
    (location : LocationPoint) (rowOutcome : RowOutcome F) :
    ((rowOutcome.apply isPolygonRequest data).find? location).getD ∅ =
      (rowOutcome.storedAt isPolygonRequest data location).toList.foldl storeRow
        ((data.find? location).getD ∅) := by
  cases rowOutcome with
  | unknownParam => rfl
  | noProvider => rfl
  | otherDataversion => rfl
  | noPoint => rfl
  | stored locationPoint row =>
      simp only [RowOutcome.apply, RowOutcome.storedAt, store, SortedMap.find?_upsert,
        @eq_comm _ location]
      by_cases here : locate isPolygonRequest locationPoint data = location
      · rw [if_pos here, if_pos here, here]
        rfl
      · rw [if_neg here, if_neg here]
        rfl

variable [DecidableLT F]

/-- The time series of a location is what its rows leave of it. -/
theorem serie_decodeRows {decoder : Decoder F} {rows : List Row} {state : DecodeState F}
    (isOk : (decodeRows decoder rows state).1 = .ok ()) (location : LocationPoint) :
    ((decodeRows decoder rows state).2.locationPointData.find? location).getD ∅ =
      (storedAt decoder rows state.locationPointData location).foldl storeRow
        ((state.locationPointData.find? location).getD ∅) := by
  induction rows generalizing state with
  | nil => rfl
  | cons row rest induction =>
      obtain ⟨rowOutcome, isOutcome⟩ := decodeRows_ok_iff.mp isOk row List.mem_cons_self
      have agrees := decodeRow_agrees decoder row state
      rw [isOutcome] at agrees
      obtain ⟨isRow, isData⟩ := agrees
      simp only [decodeRows, isRow] at isOk
      simp only [decodeRows, isRow, storedAt, isOutcome, List.foldl_append, induction isOk, isData,
        serie_apply]

theorem serie_decodePData {decoder : Decoder F} {rows : List Row} {data : LocationPointData F}
    (isOk : (decodePData decoder rows data).1 = .ok ()) (location : LocationPoint) :
    ((decodePData decoder rows data).2.find? location).getD ∅ =
      (storedAt decoder rows data location).foldl storeRow ((data.find? location).getD ∅) := by
  have isLoop : (decodeRows decoder rows (start data)).1 = .ok () :=
    decodeRows_ok_iff.mpr (decodePData_ok_iff.mp isOk)
  exact serie_decodeRows isLoop location

omit [DecidableLT F] in
/-- Rows that do not assign a member leave it alone. -/
theorem serieField_foldl_storeRow {rows : List (DecodedRow F)} {key : CellKey}
    {member : PData.Member}
    (others : ∀ row ∈ rows, row.value ≠ none → rowTarget row ≠ some (key, member))
    (serie : TimeSerie F) :
    serieField (rows.foldl storeRow serie) key member = serieField serie key member := by
  induction rows generalizing serie with
  | nil => rfl
  | cons row rest induction =>
      have tail : ∀ other ∈ rest, other.value ≠ none → rowTarget other ≠ some (key, member) :=
        fun other member => others other (List.mem_cons_of_mem _ member)
      rw [List.foldl_cons, induction tail, serieField_storeRow]
      cases isValue : row.value with
      | none => rw [Option.getD_none, ite_self]
      | some value => exact if_neg (others row List.mem_cons_self (by simp [isValue]))

/-- The cells that a row creates. -/
def Creates (row : DecodedRow F) (key : CellKey) : Prop :=
  key = rowKey row ∨ (row.value ≠ none ∧ ∃ member, rowTarget row = some (key, member))

omit [DecidableLT F] in
theorem isSome_cell?_storeRow (serie : TimeSerie F) (row : DecodedRow F) (key : CellKey) :
    ((storeRow serie row).cell? key).isSome = true ↔
      (serie.cell? key).isSome = true ∨ Creates row key := by
  have updated (changed : TimeSerie F) (other : CellKey) (update : PData F → PData F) :
      ((changed.updateCell other update).cell? key).isSome = true ↔
        (changed.cell? key).isSome = true ∨ key = other := by
    rw [TimeSerie.cell?_updateCell]
    by_cases same : key = other
    · simp [same]
    · simp [same]
  cases isValue : row.value with
  | none =>
      rw [storeRow_of_none (Or.inl isValue), updated]
      simp [Creates, isValue]
  | some value =>
      cases isTarget : rowTarget row with
      | none =>
          rw [storeRow_of_none (Or.inr isTarget), updated]
          simp [Creates, isTarget]
      | some target =>
          have isAssigned : (∃ member, some target = some (key, member)) ↔ key = target.1 := by
            constructor
            · rintro ⟨member, equal⟩
              exact (congrArg Prod.fst (Option.some.inj equal)).symm
            · rintro rfl
              exact ⟨target.2, rfl⟩
          rw [storeRow_of_some isValue isTarget, updated, updated, or_assoc, Creates, isValue,
            isTarget, isAssigned]
          simp

omit [DecidableLT F] in
/-- The cells behind a list of rows. -/
theorem isSome_cell?_foldl (rows : List (DecodedRow F)) (serie : TimeSerie F) (key : CellKey) :
    ((rows.foldl storeRow serie).cell? key).isSome = true ↔
      (serie.cell? key).isSome = true ∨ ∃ row ∈ rows, Creates row key := by
  induction rows generalizing serie with
  | nil => simp
  | cons row rest induction =>
      rw [List.foldl_cons, induction, isSome_cell?_storeRow, List.exists_mem_cons_iff, or_assoc]

end DecodePData

/-! ## The fields -/

/-- The parameters of the constant fields. -/
inductive ConstantField where
  | seaBottomTopography
  | seaIcePresence
  | modelTopography
  | topography
  | landcover
  deriving DecidableEq, Repr

namespace ConstantField

open DecodePData

/-- The name of the parameter. -/
def paramAlias : ConstantField → String
  | seaBottomTopography => "seaBottomTopography"
  | seaIcePresence => "seaIcePresence"
  | modelTopography => "MODEL.TOPOGRAPHY"
  | topography => "TOPOGRAPHY"
  | landcover => "LANDCOVER"

/-- The member of the parameter. -/
def member : ConstantField → PData.Member
  | seaBottomTopography => .seaBottomTopography
  | seaIcePresence => .seaIcePresence
  | modelTopography => .modeltopography
  | topography => .topography
  | landcover => .LANDCOVER

/-- Where `decodePData` stores the value of a row. -/
def storedKey (field : ConstantField) (row : DecodedRow F) : CellKey :=
  match field with
  | seaBottomTopography => (PTime.epoch, PTime.epoch, row.providerWithPlacename)
  | seaIcePresence => (PTime.epoch, PTime.epoch, row.providerWithPlacename)
  | modelTopography =>
      (PTime.epoch, PTime.epoch, row.providerWithPlacename ++ Bytes.str "__MODEL_TOPO__")
  | topography =>
      (PTime.epoch, PTime.epoch, row.providerWithPlacename ++ Bytes.str "__TOPOGRAPHY__")
  | landcover => rowKey row

/-- The entry of the parameter in the table. -/
def target : ConstantField → Target
  | seaBottomTopography => .constantField .seaBottomTopography ""
  | seaIcePresence => .constantField .seaIcePresence ""
  | modelTopography => .constantField .modeltopography "__MODEL_TOPO__"
  | topography => .constantField .topography "__TOPOGRAPHY__"
  | landcover => .cell .LANDCOVER

theorem lookup_paramAlias (field : ConstantField) :
    aliases.lookup field.paramAlias = some field.target := by
  cases field with
  | seaBottomTopography => decide +kernel
  | seaIcePresence => decide +kernel
  | modelTopography => decide +kernel
  | topography => decide +kernel
  | landcover => decide +kernel

theorem rowTarget_eq {field : ConstantField} {row : DecodedRow F}
    (isField : row.paramAlias = field.paramAlias) :
    rowTarget row = some (field.storedKey row, field.member) := by
  have unsuffixed : row.providerWithPlacename ++ Bytes.str "" = row.providerWithPlacename :=
    List.append_nil _
  rw [rowTarget, isField, lookup_paramAlias]
  cases field with
  | seaBottomTopography => simp only [target, storedKey, member, unsuffixed]
  | seaIcePresence => simp only [target, storedKey, member, unsuffixed]
  | modelTopography => rfl
  | topography => rfl
  | landcover => rfl

theorem paramAlias_of_mem (field : ConstantField) :
    ∀ entry ∈ aliases, entry.2.member = field.member → entry.1 = field.paramAlias := by
  cases field with
  | seaBottomTopography => decide +kernel
  | seaIcePresence => decide +kernel
  | modelTopography => decide +kernel
  | topography => decide +kernel
  | landcover => decide +kernel

/-- No other parameter has the member. -/
theorem paramAlias_of_member {field : ConstantField} {row : DecodedRow F} {key : CellKey}
    (isTarget : rowTarget row = some (key, field.member)) : row.paramAlias = field.paramAlias := by
  cases found : aliases.lookup row.paramAlias with
  | none => simp [rowTarget, found] at isTarget
  | some target =>
      have isMember : target.member = field.member := by
        cases target with
        | cell member =>
            simpa [rowTarget, found, Target.member] using congrArg (Option.map Prod.snd) isTarget
        | constantField member suffix =>
            simpa [rowTarget, found, Target.member] using congrArg (Option.map Prod.snd) isTarget
      rcases List.lookup_eq_some_iff.mp found with ⟨before, after, split, _⟩
      exact paramAlias_of_mem field (row.paramAlias, target) (by simp [split]) isMember

/-! ### The accessors -/

section Accessors

variable [Floats F] [DecidableEq F]

/-- A value as an accessor with whole numbers returns it. -/
def whole (missing : ℤ) (value : F) : ℤ :=
  if value = FLT_MAX then missing else Floats.toInt value

/-- The accessor of the parameter returns the value when it is asked with a name. -/
def Returns (elem : LocationElem F) (asked : Bytes) (value : F) : ConstantField → Prop
  | seaBottomTopography => ∀ usedProvider,
      ((LocationElem.seaBottomTopography usedProvider asked).run elem).1.1 = whole INT_MAX value
  | seaIcePresence => ∀ usedProvider,
      ((LocationElem.seaIcePresence usedProvider asked).run elem).1.1 = value
  | modelTopography =>
      ((LocationElem.modeltopography asked).run elem).1 = some (whole INT_MIN value)
  | topography => ((LocationElem.topography asked).run elem).1 = whole INT_MIN value
  | landcover => ((LocationElem.landcover asked).run elem).1 = value

/-- The name asks for the provider.  The accessor of the model topography asks for the provider
that stands in for the one with the name. -/
def AsksFor (topoProviders : TopoProviderMap) (asked provider : Bytes) : ConstantField → Prop
  | modelTopography => (LocationElem.topoProvider asked topoProviders).1 = provider
  | _ => asked = provider

end Accessors

end ConstantField

/-! ## Cells of the constant times -/

namespace LocationElem

theorem head?_dropWhile_ne {κ β : Type} [BEq κ] [LawfulBEq κ] [DecidableEq κ]
    (entries : List (κ × β)) (key : κ) :
    (entries.dropWhile fun entry => decide (entry.1 ≠ key)).head? =
      (entries.lookup key).map fun value => (key, value) := by
  induction entries with
  | nil => rfl
  | cons entry rest induction =>
      obtain ⟨other, value⟩ := entry
      by_cases same : other = key
      · simp [same]
      · have differs : (key == other) = false := beq_false_of_ne (Ne.symm same)
        rw [List.dropWhile_cons_of_pos (by simpa using same), induction, List.lookup_cons, differs]

theorem head?_dropWhile_entries {β : Type} (map : SortedMap PTime β) (time : PTime) :
    (map.entries.dropWhile fun entry => decide (entry.1 ≠ time)).head? =
      (map.find? time).map fun value => (time, value) := by
  rw [SortedMap.find?]
  convert head?_dropWhile_ne map.entries time

section Reads

variable [FloatLimits F] [DecidableEq F]

/-- An element reads the constant fields of a time series. -/
structure ReadsSerie (elem : LocationElem F) (serie : TimeSerie F) : Prop where
  constantField : ∀ time, LocationData.isConstantTime time = true →
    elem.constantField time = (serie.find? time).bind fun fromTimes => fromTimes.find? time
  topoTime : elem.topoTime = PTime.epoch
  seaIceTime : elem.seaIceTime = PTime.epoch
  seaBottomTopographyTime : elem.seaBottomTopographyTime = PTime.epoch
  epoch : elem.epoch = .notADateTime

theorem find?_cleanedUp (providerPriority : ProviderList) (serie : TimeSerie F) {time : PTime}
    (isConstant : LocationData.isConstantTime time = true) :
    (LocationData.cleanedUp providerPriority serie).find? time = serie.find? time := by
  by_cases started : ∃ start, LocationData.IsStart providerPriority serie start
  · obtain ⟨start, isStart⟩ := started
    rw [LocationData.cleanedUp_of_isStart isStart, SortedMap.find?_restrict]
    simp [LocationData.isStale, isConstant]
  · rw [LocationData.cleanedUp_of_not_isStart started]

/-- At every position the element of a location reads the constant fields of its series. -/
theorem readsSerie_create (serie : TimeSerie F) (longitude latitude : F) (hight : ℤ)
    (providerPriority : ProviderList) (modelTopoProviders : TopoProviderMap)
    (topographyProviders : List Bytes) (outputParams : SortedMap Bytes Bool) (thunder : Bool)
    (position : ℕ) :
    ReadsSerie ((LocationData.create serie longitude latitude hight providerPriority
      modelTopoProviders topographyProviders outputParams thunder).locationElem.init position)
      serie := by
  constructor
  case constantField =>
    intro time isConstant
    have atTime := head?_dropWhile_entries (LocationData.cleanedUp providerPriority serie) time
    rw [find?_cleanedUp providerPriority serie isConstant, LocationData.cleanedUp] at atTime
    simp only [LocationElem.constantField, LocationElem.find, LocationElem.init,
      LocationData.create, atTime]
    cases serie.find? time with
    | none => rfl
    | some fromTimes => rfl
  case topoTime => rfl
  case seaIceTime => rfl
  case seaBottomTopographyTime => rfl
  case epoch => rfl

omit [FloatLimits F] [DecidableEq F] in
/-- The cells that an element reads at a constant time. -/
theorem ReadsSerie.cells {elem : LocationElem F} {serie : TimeSerie F}
    (reads : ReadsSerie elem serie) {time : PTime}
    (isConstant : LocationData.isConstantTime time = true) (provider : Bytes) :
    (elem.constantField time).bind (fun cells => cells.find? provider) =
      serie.cell? (time, time, provider) := by
  rw [reads.constantField time isConstant, Option.bind_assoc]
  rfl

omit [FloatLimits F] [DecidableEq F] in
/-- The items that are tried contain the one with the name. -/
theorem exists_mem_constantFieldItems {elem : LocationElem F} {asked : Bytes}
    (listed : ∃ item ∈ elem.providerPriority, item.providerWithPlacename = asked) :
    ∃ item ∈ elem.constantFieldItems asked, item.providerWithPlacename = asked := by
  rw [constantFieldItems]
  split
  · exact listed
  · have found : ProviderList.findProvider elem.providerPriority asked <
        elem.providerPriority.length := by
      apply List.findIdx_lt_length_of_exists
      simpa using listed
    refine ⟨elem.providerPriority[ProviderList.findProvider elem.providerPriority asked], ?_, ?_⟩
    · rw [List.take_one_drop_eq_of_lt_length found]
      exact List.mem_singleton.mpr rfl
    · exact of_decide_eq_true (List.findIdx_getElem (w := found))

/-- The loop returns the only value of the member that is stored for a provider of its items. -/
theorem constantFieldLoop_eq {pPM : PData.Member} {cells : ProviderPDataList F} {provider : Bytes}
    {data : PData F} (stored : cells.find? provider = some data)
    (noOther : ∀ other otherData, cells.find? other = some otherData → other ≠ provider →
      otherData.get pPM = FLT_MAX) {items : ProviderList}
    (listed : data.get pPM = FLT_MAX ∨ ∃ item ∈ items, item.providerWithPlacename = provider)
    (usedProvider : Bytes) :
    (constantFieldLoop pPM (some cells) items usedProvider FLT_MAX).1 = data.get pPM := by
  induction items generalizing usedProvider with
  | nil =>
      rcases listed with missing | ⟨item, member, _⟩
      · exact missing.symm
      · exact absurd member List.not_mem_nil
  | cons item rest induction =>
      by_cases here : item.providerWithPlacename = provider
      · simp only [constantFieldLoop, here, stored]
        split
        next missing => rw [missing, induction (Or.inl missing), missing]
        next => rfl
      · have later : data.get pPM = FLT_MAX ∨
            ∃ item ∈ rest, item.providerWithPlacename = provider := by
          rcases listed with missing | ⟨other, member, isProvider⟩
          · exact Or.inl missing
          · rcases List.mem_cons.mp member with same | inRest
            · exact absurd (same ▸ isProvider) here
            · exact Or.inr ⟨other, inRest, isProvider⟩
        simp only [constantFieldLoop]
        cases found : cells.find? item.providerWithPlacename with
        | none => exact induction later _
        | some otherData =>
            have missing := noOther _ otherData found here
            simp only [missing, if_true]
            exact induction later _

end Reads

end LocationElem

/-! ## Reading a value back -/

namespace ConstantField

open DecodePData

section Accessors

variable [Floats F] [DecidableEq F]

/-- A cell holds the only value of a member in a time series. -/
structure OnlyAt (serie : TimeSerie F) (member : PData.Member) (key : CellKey) (data : PData F) :
    Prop where
  stored : serie.cell? key = some data
  noOther : ∀ other otherData, serie.cell? other = some otherData → other ≠ key →
    otherData.get member = FLT_MAX

theorem isConstantTime_epoch : LocationData.isConstantTime PTime.epoch = true := by decide

variable {elem : LocationElem F} {serie : TimeSerie F} {asked : Bytes} {row : DecodedRow F}
  {data : PData F}

/-- The loop of the sea accessors finds the value. -/
theorem constantFieldLoop_of_onlyAt (reads : elem.ReadsSerie serie) {member : PData.Member}
    (onlyAt : OnlyAt serie member (PTime.epoch, PTime.epoch, asked) data)
    (listed : ∃ item ∈ elem.providerPriority, item.providerWithPlacename = asked)
    (usedProvider : Bytes) :
    (LocationElem.constantFieldLoop member (elem.constantField PTime.epoch)
      (elem.constantFieldItems asked) usedProvider FLT_MAX).1 = data.get member := by
  have cellsAt := reads.cells isConstantTime_epoch
  obtain ⟨cells, loaded, stored⟩ :=
    Option.bind_eq_some_iff.mp ((cellsAt asked).trans onlyAt.stored)
  rw [loaded]
  apply LocationElem.constantFieldLoop_eq stored _
    (Or.inr (LocationElem.exists_mem_constantFieldItems listed))
  intro other otherData found differs
  apply onlyAt.noOther (PTime.epoch, PTime.epoch, other) otherData
  · rw [← cellsAt other, loaded]
    exact found
  · intro same
    exact differs (congrArg (fun key => key.2.2) same)

/-- The accessors of the other constant fields return the value. -/
theorem returns_of_onlyAt (field : ConstantField) (notLandcover : field ≠ landcover)
    (reads : elem.ReadsSerie serie)
    (onlyAt : OnlyAt serie field.member (field.storedKey row) data)
    (asks : AsksFor elem.modelTopoProviders asked row.providerWithPlacename field)
    (listed : ∃ item ∈ elem.providerPriority,
      item.providerWithPlacename = row.providerWithPlacename) :
    field.Returns elem asked (data.get field.member) := by
  have cellsAt := reads.cells isConstantTime_epoch
  cases field with
  | seaBottomTopography =>
      intro usedProvider
      cases asks
      have found := constantFieldLoop_of_onlyAt reads onlyAt listed usedProvider
      rw [← reads.seaBottomTopographyTime] at found
      simp only [LocationElem.seaBottomTopography, StateT.run_bind, StateT.run_get, pure_bind,
        StateT.run_pure]
      rw [member] at found
      rw [found]
      rfl
  | seaIcePresence =>
      intro usedProvider
      cases asks
      have found := constantFieldLoop_of_onlyAt reads onlyAt listed usedProvider
      rw [← reads.seaIceTime] at found
      exact found
  | modelTopography =>
      obtain ⟨cells, loaded, stored⟩ :=
        Option.bind_eq_some_iff.mp ((cellsAt _).trans onlyAt.stored)
      rw [← reads.topoTime] at loaded
      rw [Returns, LocationElem.value_modeltopography loaded asks, LocationElem.topoPostfix, stored]
      rfl
  | topography =>
      cases asks
      obtain ⟨cells, loaded, stored⟩ :=
        Option.bind_eq_some_iff.mp ((cellsAt _).trans onlyAt.stored)
      rw [← reads.topoTime] at loaded
      simp only [Returns, LocationElem.topography, StateT.run_bind, StateT.run_get, pure_bind,
        loaded, stored]
      rfl
  | landcover => exact absurd rfl notLandcover

omit [DecidableEq F] in
/-- The land cover is looked for at a time that is none. -/
theorem run_landcover (reads : elem.ReadsSerie serie) :
    ((LocationElem.landcover asked).run elem).1 =
      ((serie.cell? (.notADateTime, .notADateTime, asked)).map fun data =>
        data.get .LANDCOVER).getD FLT_MIN := by
  rw [← reads.cells (by decide) asked]
  simp only [LocationElem.landcover, StateT.run_bind, StateT.run_get, pure_bind, reads.epoch]
  cases elem.constantField .notADateTime with
  | none => rfl
  | some cells => rfl

end Accessors

section ReadBack

variable [RowReading F] [DecidableEq F] [DecidableLT F]

/-- `decodePData` stores the value of a row of the parameter at a location, and no other value of
the field is stored for the location. -/
structure StoresOnly (decoder : Decoder F) (rows : List Row) (data : LocationPointData F)
    (location : LocationPoint) (field : ConstantField) (earlier : List (DecodedRow F))
    (row : DecodedRow F) (later : List (DecodedRow F)) (value : F) : Prop where
  returns : (decodePData decoder rows data).1 = .ok ()
  stored : storedAt decoder rows data location = earlier ++ row :: later
  isField : row.paramAlias = field.paramAlias
  hasValue : row.value = some value
  dated : row.validfrom ≠ .notADateTime ∧ row.validto ≠ .notADateTime
  noOtherRow : ∀ other ∈ earlier ++ later, other.paramAlias = field.paramAlias →
    other.value = none
  noEarlier : ∀ key, serieField ((data.find? location).getD ∅) key field.member = FLT_MAX

/-- An element of a location, at any position of its series. -/
def IsElementOf (serie : TimeSerie F) (providerPriority : ProviderList)
    (modelTopoProviders : TopoProviderMap) (elem : LocationElem F) : Prop :=
  ∃ longitude latitude hight topographyProviders outputParams thunder position,
    elem = (LocationData.create serie longitude latitude hight providerPriority
      modelTopoProviders topographyProviders outputParams thunder).locationElem.init position

/-- The accessor of the parameter returns the value at every position when it is asked for the
provider. -/
def ReadsBack (serie : TimeSerie F) (providerPriority : ProviderList)
    (modelTopoProviders : TopoProviderMap) (field : ConstantField) (provider : Bytes)
    (value : F) : Prop :=
  ∀ elem, IsElementOf serie providerPriority modelTopoProviders elem →
    ∀ asked, AsksFor modelTopoProviders asked provider field → field.Returns elem asked value

/-- A provider has a cell without times, in the series before the rows or by one of them. -/
def hasUndatedCell (serie : TimeSerie F) (rows : List (DecodedRow F)) (provider : Bytes) : Bool :=
  (serie.cell? (.notADateTime, .notADateTime, provider)).isSome ||
    rows.any fun row => decide (rowKey row = (.notADateTime, .notADateTime, provider))

/-- What `landcover` returns where no value is stored. -/
def nothingStored (serie : TimeSerie F) (rows : List (DecodedRow F)) (provider : Bytes) : F :=
  if hasUndatedCell serie rows provider then FLT_MAX else FLT_MIN

variable {decoder : Decoder F} {rows : List Row} {data : LocationPointData F}
  {location : LocationPoint} {field : ConstantField} {earlier later : List (DecodedRow F)}
  {row : DecodedRow F} {value : F} {providerPriority : ProviderList}

omit [DecidableEq F] in
/-- The fields of the member behind the rows. -/
theorem serieField_of_storesOnly
    (stores : StoresOnly decoder rows data location field earlier row later value)
    (key : CellKey) :
    serieField (((decodePData decoder rows data).2.find? location).getD ∅) key field.member =
      if key = field.storedKey row then value else FLT_MAX := by
  have isTarget := rowTarget_eq stores.isField
  have others : ∀ other ∈ earlier ++ later, other.value ≠ none →
      rowTarget other ≠ some (key, field.member) := by
    intro other member hasValue targets
    exact hasValue (stores.noOtherRow other member (paramAlias_of_member targets))
  have behind : ∀ other ∈ later, other.value ≠ none →
      rowTarget other ≠ some (key, field.member) := fun other member =>
    others other (List.mem_append_right _ member)
  have before : ∀ other ∈ earlier, other.value ≠ none →
      rowTarget other ≠ some (key, field.member) := fun other member =>
    others other (List.mem_append_left _ member)
  rw [serie_decodePData stores.returns, stores.stored, List.foldl_append, List.foldl_cons,
    serieField_foldl_storeRow behind, serieField_storeRow, serieField_foldl_storeRow before,
    stores.noEarlier, stores.hasValue, isTarget, Option.getD_some]
  simp only [Option.some.injEq, Prod.mk.injEq, and_true, @eq_comm _ key]

omit [DecidableEq F] in
theorem exists_onlyAt
    (stores : StoresOnly decoder rows data location field earlier row later value) :
    ∃ cell, OnlyAt (((decodePData decoder rows data).2.find? location).getD ∅) field.member
      (field.storedKey row) cell ∧ cell.get field.member = value := by
  have fields := serieField_of_storesOnly stores
  have creates : Creates row (field.storedKey row) :=
    Or.inr ⟨by simp [stores.hasValue], _, rowTarget_eq stores.isField⟩
  have isSome : (((((decodePData decoder rows data).2.find? location).getD ∅).cell?
      (field.storedKey row))).isSome = true := by
    rw [serie_decodePData stores.returns, isSome_cell?_foldl, stores.stored]
    exact Or.inr ⟨row, by simp, creates⟩
  obtain ⟨cell, stored⟩ := Option.isSome_iff_exists.mp isSome
  refine ⟨cell, ⟨stored, ?_⟩, ?_⟩
  · intro other otherCell found differs
    have atOther := fields other
    rw [if_neg differs, serieField, found] at atOther
    exact atOther
  · have atKey := fields (field.storedKey row)
    rw [if_pos rfl, serieField, stored] at atKey
    exact atKey

theorem readsBack_of_ne_landcover
    (stores : StoresOnly decoder rows data location field earlier row later value)
    (listed : ∃ item ∈ providerPriority, item.providerWithPlacename = row.providerWithPlacename)
    (modelTopoProviders : TopoProviderMap) (notLandcover : field ≠ landcover) :
    ReadsBack (((decodePData decoder rows data).2.find? location).getD ∅) providerPriority
      modelTopoProviders field row.providerWithPlacename value := by
  obtain ⟨cell, onlyAt, isValue⟩ := exists_onlyAt stores
  rw [← isValue]
  rintro elem ⟨longitude, latitude, hight, topographyProviders, outputParams, thunder, position,
    rfl⟩ asked asks
  exact returns_of_onlyAt field notLandcover
    (LocationElem.readsSerie_create _ _ _ _ _ _ _ _ _ _) onlyAt asks listed

omit [RowReading F] [DecidableEq F] [DecidableLT F] in
/-- No row puts its field without times at a constant time. -/
theorem creates_undated_iff (other : DecodedRow F) (provider : Bytes) :
    Creates other (.notADateTime, .notADateTime, provider) ↔
      rowKey other = (.notADateTime, .notADateTime, provider) := by
  constructor
  · rintro (isKey | ⟨_, member, isTarget⟩)
    · exact isKey.symm
    · rw [rowTarget] at isTarget
      cases found : aliases.lookup other.paramAlias with
      | none => simp [found] at isTarget
      | some target =>
          cases target with
          | cell assigned =>
              simp only [found, Option.some.injEq, Prod.mk.injEq] at isTarget
              exact isTarget.1
          | constantField assigned suffix =>
              simp [found, PTime.epoch] at isTarget
  · intro isKey
    exact Or.inl isKey.symm

omit [RowReading F] [DecidableEq F] [DecidableLT F] in
/-- A row with times is not stored without them. -/
theorem rowKey_ne_undated (dated : row.validfrom ≠ .notADateTime ∧ row.validto ≠ .notADateTime)
    (provider : Bytes) : rowKey row ≠ (.notADateTime, .notADateTime, provider) := by
  intro same
  have atTime : (storedTimes row).1 = .notADateTime := congrArg Prod.fst same
  rw [storedTimes] at atTime
  split at atTime
  · exact absurd atTime (by decide)
  · exact dated.2 atTime

omit [DecidableEq F] in
/-- The cell without times has no land cover. -/
theorem landcover_eq_nothingStored
    (stores : StoresOnly decoder rows data location landcover earlier row later value)
    (provider : Bytes) :
    ((((((decodePData decoder rows data).2.find? location).getD ∅).cell?
        (.notADateTime, .notADateTime, provider)).map fun cell => cell.get .LANDCOVER).getD
          FLT_MIN) =
      nothingStored ((data.find? location).getD ∅) (earlier ++ row :: later) provider := by
  obtain ⟨cell, onlyAt, _⟩ := exists_onlyAt stores
  have isSome := isSome_cell?_foldl (earlier ++ row :: later) ((data.find? location).getD ∅)
    (.notADateTime, .notADateTime, provider)
  rw [← stores.stored, ← serie_decodePData stores.returns, stores.stored] at isSome
  simp only [creates_undated_iff] at isSome
  have undated : hasUndatedCell ((data.find? location).getD ∅) (earlier ++ row :: later)
      provider = ((((decodePData decoder rows data).2.find? location).getD ∅).cell?
        (.notADateTime, .notADateTime, provider)).isSome := by
    rw [Bool.eq_iff_iff, isSome, hasUndatedCell, Bool.or_eq_true, List.any_eq_true]
    simp only [decide_eq_true_eq]
  rw [nothingStored, undated]
  cases found : (((decodePData decoder rows data).2.find? location).getD ∅).cell?
      (.notADateTime, .notADateTime, provider) with
  | none => rfl
  | some other =>
      have missing := onlyAt.noOther _ other found
        (rowKey_ne_undated stores.dated provider).symm
      rw [Option.map_some, Option.getD_some]
      exact missing

/-- What the accessor of the land cover returns. -/
theorem readsBack_landcover_iff
    (stores : StoresOnly decoder rows data location landcover earlier row later value)
    (modelTopoProviders : TopoProviderMap) :
    ReadsBack (((decodePData decoder rows data).2.find? location).getD ∅) providerPriority
        modelTopoProviders landcover row.providerWithPlacename value ↔
      value = nothingStored ((data.find? location).getD ∅) (earlier ++ row :: later)
        row.providerWithPlacename := by
  rw [← landcover_eq_nothingStored stores]
  constructor
  · intro readsBack
    have read := readsBack _ ⟨value, value, 0, [], ∅, true, 0, rfl⟩ row.providerWithPlacename rfl
    rw [Returns, run_landcover (LocationElem.readsSerie_create _ _ _ _ _ _ _ _ _ _)] at read
    exact read.symm
  · rintro same elem ⟨longitude, latitude, hight, topographyProviders, outputParams, thunder,
      position, rfl⟩ asked rfl
    rw [Returns, run_landcover (LocationElem.readsSerie_create _ _ _ _ _ _ _ _ _ _)]
    exact same.symm

/-- The value of a constant field is read where it is stored, except that the land cover is only
read when its value is the one that stands for no value. -/
theorem readsBack_iff
    (stores : StoresOnly decoder rows data location field earlier row later value)
    (listed : ∃ item ∈ providerPriority, item.providerWithPlacename = row.providerWithPlacename)
    (modelTopoProviders : TopoProviderMap) :
    ReadsBack (((decodePData decoder rows data).2.find? location).getD ∅) providerPriority
        modelTopoProviders field row.providerWithPlacename value ↔
      (field = landcover → value = nothingStored ((data.find? location).getD ∅)
        (earlier ++ row :: later) row.providerWithPlacename) := by
  by_cases isLandcover : field = landcover
  · cases isLandcover
    rw [readsBack_landcover_iff stores]
    exact ⟨fun same _ => same, fun same => same rfl⟩
  · exact iff_of_true (readsBack_of_ne_landcover stores listed modelTopoProviders isLandcover)
      fun same => absurd same isLandcover

end ReadBack

section Examples

/-- A table with the land cover and the presence of sea ice. -/
def coverDecoder : Decoder ℚ :=
  { groundDecoder with
    paramDefs :=
      ⟨(∅ : SortedMap Bytes (List (ParamDef ℚ))).upsert defaultProvider fun _ =>
          [groundParam "LANDCOVER", groundParam "seaIcePresence"], ∅⟩ }

/-- A row of the parameter that is always valid. -/
def coverRow (paramAlias : String) (value : ℚ) : DecodedRow ℚ :=
  ⟨paramAlias, Bytes.str "met.no", PTime.epoch, PTime.epoch, some value⟩

deriving instance DecidableEq for DecodedRow

/-- The location of the rows. -/
def coverPoint : LocationPoint := ⟨600000000, 100000000⟩

theorem storesOnly_seaIcePresence :
    StoresOnly coverDecoder [groundRow "seaIcePresence" "4"] ∅ coverPoint seaIcePresence []
      (coverRow "seaIcePresence" 4) [] 4 where
  returns := by decide +kernel
  stored := by decide +kernel
  isField := rfl
  hasValue := rfl
  dated := by decide
  noOtherRow := by simp
  noEarlier := fun _ => rfl

theorem storesOnly_landcover :
    StoresOnly coverDecoder [groundRow "LANDCOVER" "1"] ∅ coverPoint landcover []
      (coverRow "LANDCOVER" 1) [] 1 where
  returns := by decide +kernel
  stored := by decide +kernel
  isField := rfl
  hasValue := rfl
  dated := by decide
  noOtherRow := by simp
  noEarlier := fun _ => rfl

theorem readsBack_iff_seaIcePresence :
    ReadsBack (((decodePData coverDecoder [groundRow "seaIcePresence" "4"] ∅).2.find?
        coverPoint).getD ∅) [⟨Bytes.str "met.no", []⟩] ∅ seaIcePresence (Bytes.str "met.no") 4 ↔
      (seaIcePresence = landcover → (4 : ℚ) = nothingStored
        (((∅ : LocationPointData ℚ).find? coverPoint).getD ∅) [coverRow "seaIcePresence" 4]
        (Bytes.str "met.no")) :=
  readsBack_iff storesOnly_seaIcePresence ⟨_, List.mem_singleton_self _, rfl⟩ ∅

/-- The land cover is stored for a provider of the priority list and not read again. -/
theorem not_readsBack_landcover :
    StoresOnly coverDecoder [groundRow "LANDCOVER" "1"] ∅ coverPoint landcover []
        (coverRow "LANDCOVER" 1) [] 1 ∧
      ¬ReadsBack (((decodePData coverDecoder [groundRow "LANDCOVER" "1"] ∅).2.find?
        coverPoint).getD ∅) [⟨Bytes.str "met.no", []⟩] ∅ landcover (Bytes.str "met.no") 1 := by
  refine ⟨storesOnly_landcover, ?_⟩
  intro readsBack
  have isNothing := (readsBack_landcover_iff storesOnly_landcover ∅).mp readsBack
  revert isNothing
  decide +kernel

end Examples

end ConstantField

end Wdb2ts
