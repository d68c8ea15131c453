import Wdb2ts.UrlParam

/-!
# Web queries

A `WciWebQuery` decodes the text of a web query with one decoder for each key and writes
the call of `wci.read` that asks for it.
-/

namespace Wdb2ts

/-- The members of a `WciWebQuery`. -/
structure WciWebQuery (F : Type) where
  returnColoumns : Bytes
  dataprovider : UrlParamString
  latitude : UrlParamFloat F
  longitude : UrlParamFloat F
  pointInterpolation : UrlParamString
  reftime : UrlParamTimeSpec
  validtime : UrlParamTimeSpec
  parameter : UrlParamParameter
  levelspec : UrlParamLevelSpec
  dataversion : UrlParamInteger
  format : UrlParamFormat
  altitude : UrlParamFloat F
  polygon : UrlParamPolygon
  isPolygon : Bool

namespace WciWebQuery

variable {F : Type} [TextFunctions F]

/-- `WciWebQuery( protocol, returnCol )`. -/
def new (protocol : ℤ) (returnCol : Bytes) : WciWebQuery F :=
  { returnColoumns := returnCol
    dataprovider := UrlParamString.new [] true
    latitude := UrlParamFloat.new
    longitude := UrlParamFloat.new
    pointInterpolation := UrlParamString.new (Bytes.str "nearest") false
    reftime := UrlParamTimeSpec.new protocol
    validtime := UrlParamTimeSpec.new protocol
    parameter := UrlParamParameter.new
    levelspec := UrlParamLevelSpec.new protocol
    dataversion := UrlParamInteger.new true (-1)
    format := UrlParamFormat.new .CSV
    altitude := UrlParamFloat.new
    polygon := UrlParamPolygon.new
    isPolygon := false }

/-- The decoders of a query. -/
inductive Decoder where
  | latitude
  | longitude
  | pointInterpolation
  | altitude
  | reftime
  | validtime
  | parameter
  | dataprovider
  | dataversion
  | levelspec
  | format
  | polygon
  deriving DecidableEq, Repr

/-- The table of the keys. -/
def decoders : List (Bytes × Decoder) :=
  [(Bytes.str "lat", .latitude), (Bytes.str "long", .longitude), (Bytes.str "lon", .longitude),
    (Bytes.str "point_interpolation", .pointInterpolation), (Bytes.str "alt", .altitude),
    (Bytes.str "reftime", .reftime), (Bytes.str "validtime", .validtime),
    (Bytes.str "parameter", .parameter), (Bytes.str "dataprovider", .dataprovider),
    (Bytes.str "dataversion", .dataversion), (Bytes.str "levelspec", .levelspec),
    (Bytes.str "format", .format), (Bytes.str "polygon", .polygon)]

/-- The loop that resets the decoders of the table. -/
def clean (query : WciWebQuery F) : WciWebQuery F :=
  { query with
    latitude := query.latitude.clean
    longitude := query.longitude.clean
    pointInterpolation := query.pointInterpolation.clean
    altitude := query.altitude.clean
    reftime := query.reftime.clean
    validtime := query.validtime.clean
    parameter := query.parameter.clean
    dataprovider := query.dataprovider.clean
    dataversion := query.dataversion.clean
    levelspec := query.levelspec.clean
    format := query.format.clean
    polygon := query.polygon.clean }

/-- `decode` of one decoder: the exception, if one is thrown, and the query after it. -/
def runDecoder (query : WciWebQuery F) (decoder : Decoder) (val : Bytes) :
    Option Bytes × WciWebQuery F :=
  match decoder with
  | .latitude =>
      let decoded := query.latitude.decode val
      (decoded.1, { query with latitude := decoded.2 })
  | .longitude =>
      let decoded := query.longitude.decode val
      (decoded.1, { query with longitude := decoded.2 })
  | .pointInterpolation =>
      (none, { query with pointInterpolation := query.pointInterpolation.decode val })
  | .altitude =>
      let decoded := query.altitude.decode val
      (decoded.1, { query with altitude := decoded.2 })
  | .reftime =>
      let decoded := query.reftime.decode F val
      (decoded.1, { query with reftime := decoded.2 })
  | .validtime =>
      let decoded := query.validtime.decode F val
      (decoded.1, { query with validtime := decoded.2 })
  | .parameter => (none, { query with parameter := query.parameter.decode val })
  | .dataprovider => (none, { query with dataprovider := query.dataprovider.decode val })
  | .dataversion =>
      let decoded := query.dataversion.decode val
      (decoded.1, { query with dataversion := decoded.2 })
  | .levelspec =>
      let decoded := query.levelspec.decode val
      (decoded.1, { query with levelspec := decoded.2 })
  | .format => (none, { query with format := query.format.decode val })
  | .polygon =>
      let decoded := query.polygon.decode F val
      (decoded.1,
        { query with
          polygon := decoded.2
          isPolygon := decoded.1.isNone || query.isPolygon })

/-- The body of the loop over the keys. -/
def decodeKey (query : WciWebQuery F) (key val : Bytes) : Option Bytes × WciWebQuery F :=
  if key.isEmpty then (none, query)
  else
    match decoders.lookup key with
    | none => (some (Bytes.str "Unknown key: " ++ key ++ Bytes.str "."), query)
    | some decoder =>
        if val.isEmpty then (none, query)
        else
          match query.runDecoder decoder val with
          | (none, query) => (none, query)
          | (some what, query) =>
              (some (Bytes.str "Invalid value for <" ++ key ++ Bytes.str ">. " ++ what), query)

/-- The loop over the keys. -/
def decodeKeys : List (Bytes × Bytes) → WciWebQuery F → Option Bytes × WciWebQuery F
  | [], query => (none, query)
  | (key, val) :: rest, query =>
      match query.decodeKey key val with
      | (some what, query) => (some what, query)
      | (none, query) => decodeKeys rest query

/-- `std::endl`. -/
def endl : Bytes := [Bytes.chr '\n']

/-- The interpolation of a point: the select part without its quotes, `NEAREST` when there is
none. -/
def sPointInterpolation (query : WciWebQuery F) : Bytes :=
  let selectPart := query.pointInterpolation.selectPart_
  let trimmed :=
    if selectPart = Bytes.str "NULL" then []
    else miutil.trimstr selectPart [Bytes.chr '\'']
  if trimmed.isEmpty then Bytes.str "NEAREST" else trimmed

/-- The place of the data. -/
def place (query : WciWebQuery F) : Bytes :=
  if query.isPolygon then query.polygon.selectPart_
  else
    query.sPointInterpolation ++ Bytes.str " POINT(" ++
      TextFunctions.printFloat query.longitude.value_ ++ Bytes.str " " ++
      TextFunctions.printFloat query.latitude.value_ ++ Bytes.str ")"

/-- A line with an argument of `wci.read`. -/
def argument (text : Bytes) : Bytes := Bytes.str "   " ++ text ++ Bytes.str ", " ++ endl

/-- The text of the call of `wci.read`. -/
def readText (query : WciWebQuery F) : Bytes :=
  Bytes.str "SELECT " ++ query.returnColoumns ++ Bytes.str " FROM wci.read(" ++ endl ++
    argument query.dataprovider.selectPart_ ++
    argument (quoted query.place) ++
    argument query.reftime.selectPart_ ++
    argument query.validtime.selectPart_ ++
    argument query.parameter.selectPart_ ++
    argument query.levelspec.selectPart_ ++
    argument query.dataversion.selectPart_ ++
    Bytes.str "   NULL::wci.returnfloat )" ++ endl

/-- `WciWebQuery::wciReadQuery`. -/
def wciReadQuery (query : WciWebQuery F) : Except Bytes Bytes :=
  if !query.isPolygon && (!query.latitude.valid_ || !query.longitude.valid_) then
    .error (Bytes.str "Missing 'lat' or 'lon/long'.")
  else .ok query.readText

/-- `WciWebQuery::decode` up to the generated text: the exception, if one is thrown, and the
query after it. -/
def decodeValues (query : WciWebQuery F) (text : Bytes) : Option Bytes × WciWebQuery F :=
  let query := query.clean
  match UrlQuery.decode text false UrlQuery.new with
  | (some exception, _) => (some exception.what, query)
  | (none, urlQuery) => decodeKeys urlQuery.params.entries query

/-- `WciWebQuery::decode`: the exception or the text of the call, and the query after it. -/
def decode (query : WciWebQuery F) (text : Bytes) : Except Bytes Bytes × WciWebQuery F :=
  match query.decodeValues text with
  | (some what, query) => (.error what, query)
  | (none, query) => (query.wciReadQuery, query)

end WciWebQuery

end Wdb2ts
