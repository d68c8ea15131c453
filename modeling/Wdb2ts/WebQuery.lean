import Wdb2ts.PointCoordinates
import Wdb2ts.PtimeUtil
import Wdb2ts.QueryMaker
import Wdb2ts.RequestHandlerManager

/-!
# Location queries

A `WebQuery` is decoded from the parameters of a URL query, one after the other.  All exceptions
are caught and thrown again as a `logic_error`, of which the model has the text.
-/

namespace Wdb2ts

/-- The functions that read coordinates. -/
class CoordinateReading (F : Type) extends Floats F where
  /-- `boost::lexical_cast<float>`. -/
  lexicalCastFloat : Bytes → Option F
  /-- `decodeLocationList`: the exception, if one is thrown, and the points before it. -/
  decodeLocationList : Bytes → Option Bytes × List LocationPoint

/-- How decoding fails: with an exception, or where a string has no character. -/
inductive QueryFailure where
  | exception (what : Bytes)
  | outsideString
  deriving DecidableEq, Repr

/-- `std::string::operator[]`, which has a zero byte behind the string. -/
def charAt (text : Bytes) (index : ℕ) : Except QueryFailure Byte :=
  if index = text.length then .ok (Bytes.chr (Char.ofNat 0))
  else
    match text[index]? with
    | some byte => .ok byte
    | none => .error .outsideString

/-- `text.length() - 1`, where the length is an unsigned number of 64 bits. -/
def lastIndex (text : Bytes) : ℕ :=
  if text.length = 0 then 18446744073709551615 else text.length - 1

/-! ## Parameters -/

namespace UrlQuery

variable (query : UrlQuery)

/-- `hasParam`. -/
def hasParam (param : Bytes) : Bool := query.params.contains param

/-- `hasParams`: the first parameter that is missing. -/
def hasParams (paramsList : List Bytes) : Bytes :=
  (paramsList.find? fun param => !query.hasParam param).getD []

/-- `asString`. -/
def asString (paramname : Bytes) : Except Bytes Bytes :=
  match query.params.find? paramname with
  | some val => .ok val
  | none =>
      .error (Bytes.str "Param '" ++ paramname ++ Bytes.str "' missising in query.")

/-- `asString` with a default. -/
def asStringOr (paramname defValue : Bytes) : Bytes :=
  (query.params.find? paramname).getD defValue

/-- The text of a value that cannot be converted. -/
def notConvertible (paramname val type : Bytes) : Bytes :=
  Bytes.str "Param '" ++ paramname ++ Bytes.str "' value (" ++ val ++
    Bytes.str ") not convertibel to " ++ type ++ Bytes.str "!"

/-- `asFloat`. -/
def asFloat {F : Type} [CoordinateReading F] (paramname : Bytes) : Except Bytes F := do
  let val ← query.asString paramname
  match CoordinateReading.lexicalCastFloat val with
  | some number => return number
  | none => throw (notConvertible paramname val (Bytes.str "float"))

/-- `asInt` with a default. -/
def asIntOr (paramname : Bytes) (defValue : ℤ) : Except Bytes ℤ :=
  let val := query.asStringOr paramname []
  if val.isEmpty then .ok defValue
  else
    match lexicalCastInt val with
    | some number => .ok number
    | none => .error (notConvertible paramname val (Bytes.str "int"))

/-- `asPTime`. -/
def asPTime (universalTime : ℤ) (paramname : Bytes) : Except Bytes PTime := do
  let val ← query.asString paramname
  if val.isEmpty then throw (Bytes.str "Param '" ++ paramname ++ Bytes.str "' no value.")
  match miutil.ptimeFromIsoString universalTime val with
  | .ok time => return time
  | .error what =>
      throw (Bytes.str "Param '" ++ paramname ++ Bytes.str "' value (" ++ val ++
        Bytes.str ") not a valid time! (" ++ what ++ Bytes.str ")")

/-- `asPTime` with a default. -/
def asPTimeOr (universalTime : ℤ) (paramname : Bytes) (defValue : PTime) : PTime :=
  match query.asPTime universalTime paramname with
  | .ok time => time
  | .error _ => defValue

/-- `asBool` with a default. -/
def asBoolOr (paramname : Bytes) (defValue : Bool) : Except Bytes Bool :=
  let val := query.asStringOr paramname (Bytes.str "__NO_PARAM__")
  if val = Bytes.str "__NO_PARAM__" then .ok defValue
  else if val.isEmpty ∨ val = Bytes.str "T" ∨ val = Bytes.str "t" ∨ val = Bytes.str "true" ∨
      val = Bytes.str "TRUE" ∨ val = Bytes.str "1" then .ok true
  else if val = Bytes.str "F" ∨ val = Bytes.str "f" ∨ val = Bytes.str "false" ∨
      val = Bytes.str "FALSE" ∨ val = Bytes.str "0" then .ok false
  else .error (Bytes.str "std::bad_cast")

end UrlQuery

/-! ## Values -/

/-- A `WebQuery` of a location. -/
structure WebQuery where
  points : List LocationPoint
  altitude_ : ℤ
  from_ : PTime
  to_ : PTime
  reftime_ : PTime
  dataprovider_ : Bytes
  isPolygon_ : Bool
  nearestLand_ : Bool
  skip_ : ℤ
  urlQuery_ : Bytes
  level_ : Level
  deriving DecidableEq, Repr

namespace WebQuery

/-- The next whole hour of the clock. -/
def nextHour (universalTime : ℤ) : PTime :=
  let later := universalTime + PTime.hours 1
  (PTime.startOfDay later).add (PTime.timeDuration (PTime.secondsOfDay later / 3600) 0 0)

/-- `decodeTimeduration`. -/
def decodeTimeduration (universalTime : ℤ) (timeduration : Bytes) (valueOnError : PTime) :
    Except QueryFailure PTime := do
  let last ← charAt timeduration (lastIndex timeduration)
  if last = Bytes.chr 't' ∨ last = Bytes.chr 'd' then
    match if timeduration.length = 1 then some 1 else scanInt timeduration with
    | none => return valueOnError
    | some n =>
        let hours := if last = Bytes.chr 'd' then toInt32 (n * 24) else n
        return (nextHour universalTime).add (PTime.timeDuration hours 0 0)
  else
    match miutil.ptimeFromIsoString universalTime timeduration with
    | .ok time => return time
    | .error _ => return valueOnError

/-- `decodeLevel`. -/
def decodeLevel (lvl_ : Bytes) : Except QueryFailure Level := do
  let lvl := miutil.trimstr lvl_ miutil.blanks
  if lvl.isEmpty then return Level.undefined
  let first ← charAt lvl 0
  let sign : ℤ := if first = Bytes.chr '-' then -1 else 1
  let lvl := if first = Bytes.chr '-' then lvl.drop 1 else lvl
  let number := miutil.trimstr (lvl.takeWhile isDigit) miutil.blanks
  if number.isEmpty then
    throw (.exception (Bytes.str "Invalid level '" ++ lvl_ ++
      Bytes.str "' expecting a number."))
  let h := toInt32 (webfw.atoi number * sign)
  let buf := miutil.trimstr (lvl.drop number.length) miutil.blanks
  let unit := if buf.isEmpty then Bytes.str "m" else buf
  if unit = Bytes.str "m" then
    if h < 0 then
      let depth := toInt32 (-1 * h)
      return ⟨depth, depth, Bytes.str "depth", Bytes.str "m", .udef⟩
    else return ⟨h, h, Bytes.str "height above ground", Bytes.str "m", .udef⟩
  else if unit = Bytes.str "Pa" then
    return ⟨h, h, Bytes.str "isobaric surface", Bytes.str "Pa", .udef⟩
  else
    throw (.exception (Bytes.str "Invalid level '" ++ lvl_ ++
      Bytes.str "'. Unsupported unit."))

/-! ## Queries -/

section Decode

variable {F : Type} [CoordinateReading F] [DecidableLT F]

/-- An exception of a function that indexes no string. -/
def orThrow {α : Type} (value : Except Bytes α) : Except QueryFailure α :=
  value.mapError .exception

/-- `LocationPoint( latitude, longitude )`. -/
def newPoint (latitude longitude : F) : Except Bytes LocationPoint :=
  if lit 90 < latitude ∨ latitude < lit (-90) then
    .error (Bytes.str "Latitude out of range. Valid range [-90,90].")
  else
    match LocationPoint.setCoordinates latitude longitude with
    | some point => .ok point
    | none => .error (Bytes.str "Longitude out of range. Valid range [-180,180].")

/-- `LocationPoint::decodePointList`. -/
def decodePointList (F : Type) [CoordinateReading F] (toDecode : Bytes) :
    Except Bytes (List LocationPoint) :=
  match CoordinateReading.decodeLocationList F toDecode with
  | (some what, _) => .error what
  | (none, []) =>
      .error (Bytes.str "Expecting a location point on the format: longitude latitude, .. , " ++
        Bytes.str "longitude latitude")
  | (none, point :: rest) => .ok (point :: rest)

/-- The parameters of a point: its coordinates and its altitude. -/
def decodePoint (F : Type) [CoordinateReading F] (urlQuery : UrlQuery) :
    Except Bytes (F × F × ℤ) := do
  let param := urlQuery.hasParams [Bytes.str "long", Bytes.str "lat"]
  if !param.isEmpty then
    throw (Bytes.str "Missing mandatory parameter  '" ++ param ++ Bytes.str "'.")
  let lat ← urlQuery.asFloat (Bytes.str "lat")
  let lon ← urlQuery.asFloat (Bytes.str "long")
  let alt ← urlQuery.asIntOr (Bytes.str "alt") INT_MIN
  return (lat, lon, alt)

/-- The parameter `from`. -/
def decodeFrom (universalTime : ℤ) (urlQuery : UrlQuery) : PTime :=
  if urlQuery.hasParam (Bytes.str "from") then
    if urlQuery.asStringOr (Bytes.str "from") [] = Bytes.str "all" then .negInfinity
    else urlQuery.asPTimeOr universalTime (Bytes.str "from") .notADateTime
  else .notADateTime

/-- The parameter `to`. -/
def decodeTo (universalTime : ℤ) (urlQuery : UrlQuery) : Except QueryFailure PTime :=
  if urlQuery.hasParam (Bytes.str "to") then
    decodeTimeduration universalTime (urlQuery.asStringOr (Bytes.str "to") []) .posInfinity
  else .ok .notADateTime

/-- The parameter `refTime`, of which the value of another one is read. -/
def decodeRefTime (universalTime : ℤ) (urlQuery : UrlQuery) : PTime :=
  if urlQuery.hasParam (Bytes.str "refTime") then
    urlQuery.asPTimeOr universalTime (Bytes.str "fromTime") .notADateTime
  else .notADateTime

/-- The parameter `dataprovider`. -/
def decodeDataprovider (urlQuery : UrlQuery) : Bytes :=
  if urlQuery.hasParam (Bytes.str "dataprovider") then
    urlQuery.asStringOr (Bytes.str "dataprovider") []
  else []

/-- The parameter `skip`. -/
def decodeSkip (isPolygon : Bool) (urlQuery : UrlQuery) : Except Bytes ℤ :=
  if urlQuery.hasParam (Bytes.str "skip") then
    if isPolygon then do
      let skip ← urlQuery.asIntOr (Bytes.str "skip") 0
      return if skip < 0 then 0 else skip
    else .ok (-1)
  else .ok 0

/-- The parameter `level`. -/
def decodeLevelParam (urlQuery : UrlQuery) : Except QueryFailure Level :=
  if urlQuery.hasParam (Bytes.str "level") then
    decodeLevel (urlQuery.asStringOr (Bytes.str "level") [])
  else .ok Level.undefined

/-- The location query of some parameters, in the order in which `decodeQuery` reads them. -/
def decodeLocation (F : Type) [CoordinateReading F] [DecidableLT F] (universalTime : ℤ)
    (urlQuery : UrlQuery) (urlQuery_ : Bytes) : Except QueryFailure WebQuery := do
  let isPolygon_ := urlQuery.hasParam (Bytes.str "polygon")
  let coordinates ← orThrow (if isPolygon_ then .ok (FLT_MAX, FLT_MAX, INT_MIN)
    else decodePoint F urlQuery)
  let from_ := decodeFrom universalTime urlQuery
  let to_ ← decodeTo universalTime urlQuery
  let reftime_ := decodeRefTime universalTime urlQuery
  let dataprovider_ := decodeDataprovider urlQuery
  let points ← orThrow (if isPolygon_ then
      decodePointList F (urlQuery.asStringOr (Bytes.str "polygon") [])
    else (newPoint coordinates.1 coordinates.2.1).map fun point => [point])
  let skip_ ← orThrow (decodeSkip isPolygon_ urlQuery)
  let level_ ← decodeLevelParam urlQuery
  let nearestLand_ ← orThrow (urlQuery.asBoolOr (Bytes.str "nearest_land") false)
  return {
    points, from_, to_, reftime_, dataprovider_, isPolygon_, nearestLand_, skip_, urlQuery_, level_
    altitude_ := coordinates.2.2 }

/-- How `decodeQuery` ends. -/
inductive Outcome where
  | location (webQuery : WebQuery)
  | status
  | throws (what : Bytes)
  | outsideString
  deriving DecidableEq, Repr

/-- The exception that `decodeQuery` throws for the ones that it catches. -/
def rethrown (what queryToDecode : Bytes) : Bytes :=
  Bytes.str "WebQuery::decodeQuery: Exception, decode query: " ++ cString what ++
    Bytes.str "\n" ++ Bytes.str "Query: " ++ queryToDecode ++ Bytes.str "\n"

/-- The end of a decoding whose exceptions are caught. -/
def caught (queryToDecode : Bytes) : Except QueryFailure WebQuery → Outcome
  | .ok webQuery => .location webQuery
  | .error (.exception what) => .throws (rethrown what queryToDecode)
  | .error .outsideString => .outsideString

/-- `decodeQuery`, at a time of the clock. -/
def decodeQuery (F : Type) [CoordinateReading F] [DecidableLT F] (universalTime : ℤ)
    (queryToDecode urlPath : Bytes) : Outcome :=
  match UrlQuery.decode queryToDecode false UrlQuery.new with
  | (some exception, _) => .throws (rethrown exception.what queryToDecode)
  | (none, urlQuery) =>
      if urlQuery.hasParam (Bytes.str "status") then .status
      else
        let urlQuery_ := if urlPath.isEmpty then queryToDecode
          else urlPath ++ Bytes.str "?" ++ queryToDecode
        caught queryToDecode (decodeLocation F universalTime urlQuery urlQuery_)

end Decode

end WebQuery

end Wdb2ts
