import Wdb2ts.DecodePData
import Wdb2ts.ParamDef
import Wdb2ts.ProviderReftimes

/-!
# Decoding the rows of a result

`decodePData` finds the parameter, the times, the provider and the location of each row, and
stores its value.  The variables it uses live across the rows.
-/

namespace Wdb2ts

variable {F : Type}

/-- The exceptions that the catch clauses of `decodePData` tell apart. -/
inductive RowException where
  | failure (what : Bytes)
  | runtimeError (what : Bytes)
  | logicError (what : Bytes)
  | unknown
  deriving DecidableEq, Repr

/-- The functions that read numbers and times from texts. -/
class RowReading (F : Type) extends Floats F where
  /-- `field::as<int>` of a text. -/
  asInt : Bytes → Except RowException ℤ
  /-- `field::as<float>` of a text. -/
  asFloat : Bytes → Except RowException F
  /-- `field::as` of a null value. -/
  nullConversion : RowException
  /-- `tuple::at` of a column that the result does not have. -/
  unknownColumn : String → RowException
  /-- `miutil::ptimeFromIsoString`. -/
  ptimeFromIsoString : Bytes → Except RowException PTime
  /-- `sscanf` with `" %f %f "`. -/
  scanPair : Bytes → Option (F × F)
  /-- `static_cast<int>( rintf( value ) )`. -/
  rint : F → ℤ
  /-- The name of the file of `decodeFromWdb`. -/
  file : Bytes

/-- A row of a result: the columns with their texts, which may be null. -/
abbrev Row := List (String × Option Bytes)

section Reading

variable [RowReading F]

variable (F) in
/-- `it.at( name )`. -/
def Row.at_ (row : Row) (name : String) : Except RowException (Option Bytes) :=
  match row.lookup name with
  | none => .error (RowReading.unknownColumn F name)
  | some field => .ok field

variable (F) in
/-- `it.at( name ).c_str()`, which is empty for a null value. -/
def Row.text (row : Row) (name : String) : Except RowException Bytes := do
  let field ← row.at_ F name
  pure (field.getD [])

variable (F) in
/-- `it.at( name ).as<int>()`. -/
def Row.int (row : Row) (name : String) : Except RowException ℤ := do
  let field ← row.at_ F name
  match field with
  | none => throw (RowReading.nullConversion F)
  | some text => RowReading.asInt F text

variable (F) in
/-- `ptimeFromIsoString( it.at( name ).c_str() )`. -/
def Row.time (row : Row) (name : String) : Except RowException PTime := do
  let text ← row.text F name
  RowReading.ptimeFromIsoString F text

/-! ## Parameters -/

/-- `ProviderGroups::lookUpGroupName`. -/
def ParamDefList.lookUpGroupName (list : ParamDefList F) (providerName : Bytes) : Bytes :=
  (list.providerGroups.find? providerName).getD providerName

/-- `ParamDefList::findParam` for a row, with the provider group. -/
def ParamDefList.findParam (list : ParamDefList F) (row : Row) :
    Except RowException (Option (ParamDef F) × Bytes) := do
  let valueparametername ← row.text F "valueparametername"
  let levelparametername ← row.text F "levelparametername"
  let levelfrom ← row.int F "levelfrom"
  let levelto ← row.int F "levelto"
  let dataprovidername ← row.text F "dataprovidername"
  let valueparameterunit ← row.text F "valueparameterunit"
  let levelunitname ← row.text F "levelunitname"
  let providerGroup := list.lookUpGroupName dataprovidername
  let isParam (param : ParamDef F) : Bool :=
    decide (valueparametername = param.valueparametername ∧
      valueparameterunit = param.valueparameterunit ∧
      levelparametername = param.levelparametername ∧ levelfrom = param.levelfrom ∧
      levelto = param.levelto ∧ levelunitname = param.levelunitname)
  let found :=
    match list.defs.find? providerGroup with
    | none => none
    | some params => params.find? isParam
  let foundDefault :=
    match list.defs.find? defaultProvider with
    | none => none
    | some params => params.find? isParam
  pure (found <|> foundDefault, providerGroup)

/-- `ParamDef::isNullValue`. -/
def ParamDef.isNullValue [DecidableLT F] (param : ParamDef F) (value : F) : Bool :=
  match param.compare with
  | .undef => false
  | .lesser => decide (value < lit param.compareValue)
  | .greater => decide (lit param.compareValue < value)
  | .equal => decide (RowReading.rint value = param.compareValue)

/-! ## Providers -/

/-- What follows the parenthesis that closes the open ones, if there is one. -/
def behindParentheses : Bytes → ℕ → Option Bytes
  | rest, 0 => some rest
  | [], _ + 1 => none
  | byte :: rest, stack + 1 =>
      if byte = Bytes.chr ')' then behindParentheses rest stack
      else if byte = Bytes.chr '(' then behindParentheses rest (stack + 2)
      else behindParentheses rest (stack + 1)

variable (F) in
/-- `ProviderItem::decodeFromWdb`. -/
def ProviderItem.decodeFromWdb (provider pointPlacename : Bytes) :
    Except RowException ProviderItem :=
  match findByte pointPlacename (Bytes.chr '(') with
  | none => .ok ⟨trim provider, []⟩
  | some i =>
      match behindParentheses (pointPlacename.drop (i + 1)) 1 with
      | some placename => .ok ⟨trim provider, trim placename⟩
      | none => .error (.logicError
          (Bytes.str "WDB Placename, invalid format '" ++ pointPlacename ++
            Bytes.str "' (ProviderItem::decodeFromWdb, file=" ++ RowReading.file F ++
            Bytes.str ")"))

variable (F) in
/-- `ProviderList::findProvider` for a provider and a place name of the database: whether it
is found, and its name. -/
def ProviderList.findProviderFromWdb (providers : ProviderList)
    (provider pointPlacename : Bytes) : Except RowException (Bool × Bytes) := do
  let item ← ProviderItem.decodeFromWdb F provider pointPlacename
  match providers.find? fun it => decide (it.provider = item.provider) &&
      (item.placename.isEmpty || decide (it.placename = item.placename)) with
  | some it => pure (true, it.providerWithPlacename)
  | none => pure (false, item.providerWithPlacename)

/-- `ProviderRefTimeList::getDataversion`. -/
def ProviderRefTimeList.getDataversion (list : ProviderRefTimeList)
    (providerWithPlacename : Bytes) : ℤ :=
  match list.find? providerWithPlacename with
  | none => -1
  | some times => times.dataversion

/-- `renameProvider`. -/
def renameProvider (providerWithPlacename newProvider : Bytes) : Bytes :=
  match findText (Bytes.str " [") providerWithPlacename with
  | none => newProvider
  | some i => newProvider ++ providerWithPlacename.drop i

/-! ## Points -/

/-- `LocationPoint::set`, which throws when a coordinate is out of range. -/
def LocationPoint.set [DecidableLT F] (latitude longitude : F) : Option LocationPoint :=
  if lit 90 < latitude ∨ latitude < lit (-90) then none
  else if lit 180 < longitude ∨ longitude < lit (-180) then none
  else
    some
      { latitude := Floats.toInt ((latitude + lit (1 / 20000000)) * lit 10000000)
        longitude := Floats.toInt ((longitude + lit (1 / 20000000)) * lit 10000000) }

variable (F) in
/-- `decodePoint`. -/
def decodePoint [DecidableLT F] (sPoint : Bytes) : Option LocationPoint :=
  match findByte sPoint (Bytes.chr '(') with
  | none => none
  | some iStart =>
      let rest := sPoint.drop (iStart + 1)
      match findByte rest (Bytes.chr ')') with
      | none => none
      | some iEnd =>
          let buf := rest.take iEnd
          if buf.isEmpty then none
          else
            match (RowReading.scanPair buf : Option (F × F)) with
            | none => none
            | some (lon, lat) => LocationPoint.set lat lon

end Reading

namespace DecodePData

/-- The text of a name, byte by byte. -/
def nameOf (alias_ : Bytes) : String :=
  String.ofList (alias_.map fun byte => Char.ofNat byte.val)

/-- The variables of `decodePData` and the data that it writes. -/
structure DecodeState (F : Type) where
  from_ : PTime
  to_ : PTime
  reftime : PTime
  paramDef : Option (ParamDef F)
  providerWithPlacename : Bytes
  providerGroup : Bytes
  dataversion : ℤ
  locationPoint : LocationPoint
  locationPointData : LocationPointData F

/-- Go on with a value, unless its computation has thrown. -/
def onOk {α σ : Type} (result : Except RowException α) (state : σ)
    (next : α → Except RowException Unit × σ) : Except RowException Unit × σ :=
  match result with
  | .error exception => (.error exception, state)
  | .ok value => next value

/-- What `decodePData` decodes with. -/
structure Decoder (F : Type) where
  paramDefs : ParamDefList F
  providers : ProviderList
  refTimeList : ProviderRefTimeList
  isPolygonRequest : Bool
  protocol : ℤ

variable [RowReading F]

/-- The location that a point is stored at. -/
def locate (isPolygonRequest : Bool) (locationPoint : LocationPoint)
    (data : LocationPointData F) : LocationPoint :=
  match data.find? locationPoint with
  | some _ => locationPoint
  | none =>
      if isPolygonRequest then locationPoint
      else
        match data.entries with
        | [] => locationPoint
        | first :: _ => first.1

/-- Store a row at a location. -/
def store (location : LocationPoint) (row : DecodedRow F) (data : LocationPointData F) :
    LocationPointData F :=
  data.upsert location fun serie => storeRow (serie.getD ∅) row

/-- The value of a row, unless it is a null value. -/
def readValue [DecidableLT F] (paramDef : ParamDef F) (row : Row) :
    Except RowException (Option F) := do
  let field ← row.at_ F "value"
  match field with
  | none => pure none
  | some text =>
      let value ← RowReading.asFloat text
      if paramDef.isNullValue value then pure none
      else pure (some (value * paramDef.scale + paramDef.offset))

variable (F) in
/-- Is the data version of a row another one than that of the provider? -/
def otherDataversion (dataversion : ℤ) (row : Row) : Except RowException Bool :=
  if -1 < dataversion then do
    let own ← row.int F "dataversion"
    pure (decide (own ≠ dataversion))
  else pure false

/-- The name of the provider of a row, before the name of the group replaces it.  A row of the
topography has the name of the database when there is no other. -/
def rowProvider (paramDef : ParamDef F) (dataprovidername : Bytes) (itProvider : Bool × Bytes) :
    Bytes :=
  if itProvider.1 = false ∧ paramDef.alias_ = Bytes.str "TOPOGRAPHY" ∧ itProvider.2.isEmpty then
    dataprovidername
  else itProvider.2

/-- The body of the loop of `decodePData`. -/
def decodeRow [DecidableLT F] (decoder : Decoder F) (row : Row) (state : DecodeState F) :
    Except RowException Unit × DecodeState F :=
  onOk (decoder.paramDefs.findParam row) state fun found =>
  let state := { state with paramDef := found.1, providerGroup := found.2 }
  match state.paramDef with
  | none => (.ok (), state)
  | some paramDef =>
  onOk (row.time F "referencetime") state fun reftime =>
  let state := { state with reftime := reftime }
  onOk (row.time F (if 2 < decoder.protocol then "validtimefrom" else "validfrom")) state
    fun from_ =>
  let state := { state with from_ := from_ }
  onOk (row.time F (if 2 < decoder.protocol then "validtimeto" else "validto")) state fun to_ =>
  let state := { state with to_ := to_ }
  onOk (row.text F "dataprovidername") state fun dataprovidername =>
  onOk (row.text F "placename") state fun placename =>
  onOk (decoder.providers.findProviderFromWdb F dataprovidername placename) state fun itProvider =>
  let state :=
    { state with providerWithPlacename := rowProvider paramDef dataprovidername itProvider }
  if itProvider.1 = false ∧ paramDef.alias_ ≠ Bytes.str "TOPOGRAPHY" ∧
      state.providerWithPlacename.isEmpty then
    (.ok (), state)
  else
  let state :=
    { state with dataversion := decoder.refTimeList.getDataversion state.providerWithPlacename }
  onOk (otherDataversion F state.dataversion row) state fun isOther =>
  if isOther then (.ok (), state)
  else
  onOk (row.text F "point") state fun point =>
  match decodePoint F point with
  | none => (.ok (), state)
  | some locationPoint =>
  let state := { state with locationPoint := locationPoint }
  let location := locate decoder.isPolygonRequest state.locationPoint state.locationPointData
  let state :=
    { state with
      providerWithPlacename := renameProvider state.providerWithPlacename state.providerGroup }
  let isConst := state.to_ = .posInfinity ∧ state.from_ = .negInfinity
  let state :=
    { state with
      to_ := if isConst then PTime.epoch else state.to_
      from_ := if isConst then PTime.epoch else state.from_ }
  let decoded (value : Option F) : DecodedRow F :=
    { paramAlias := nameOf paramDef.alias_
      providerWithPlacename := state.providerWithPlacename
      validfrom := state.from_
      validto := state.to_
      value := value }
  -- The cell is created before the value is read.
  onOk (readValue paramDef row)
    { state with
      locationPointData := store location (decoded none) state.locationPointData } fun value =>
  (.ok (),
    { state with locationPointData := store location (decoded value) state.locationPointData })

/-- The loop of `decodePData`. -/
def decodeRows [DecidableLT F] (decoder : Decoder F) :
    List Row → DecodeState F → Except RowException Unit × DecodeState F
  | [], state => (.ok (), state)
  | row :: rest, state =>
      let next := decodeRow decoder row state
      match next.1 with
      | .error exception => (.error exception, next.2)
      | .ok _ => decodeRows decoder rest next.2

/-- The catch clauses of `decodePData`. -/
def rethrow : RowException → RowException
  | .failure what => .failure what
  | .runtimeError what => .logicError what
  | .logicError what => .logicError what
  | .unknown => .logicError (Bytes.str "Unknown error while decoding the result set.")

/-- The variables of `decodePData` before the loop. -/
def start (data : LocationPointData F) : DecodeState F :=
  { from_ := default
    to_ := default
    reftime := default
    paramDef := none
    providerWithPlacename := []
    providerGroup := []
    dataversion := 0
    locationPoint := ⟨INT_MIN, INT_MIN⟩
    locationPointData := data }

/-- `decodePData`, with the data behind it. -/
def decodePData [DecidableLT F] (decoder : Decoder F) (result : List Row)
    (locationPointData : LocationPointData F) :
    Except RowException Unit × LocationPointData F :=
  let decoded := decodeRows decoder result (start locationPointData)
  (decoded.1.mapError rethrow, decoded.2.locationPointData)

end DecodePData

end Wdb2ts
