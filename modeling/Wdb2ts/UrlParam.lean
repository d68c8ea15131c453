import Wdb2ts.Floats
import Wdb2ts.UrlQuery

/-!
# The parameters of a web query

Each key of a web query has a decoder with a value of its own.  A decoder turns the text
of its key into a part of the generated SQL, its select part.  An exception of a decoder
is a `logic_error`, of which the model has the text.
-/

namespace Wdb2ts

/-- The functions that read and write floats and times.  None of them writes a quote. -/
class TextFunctions (F : Type) extends FloatLimits F where
  /-- `sscanf` with `%f`. -/
  scanFloat : Bytes → Option F
  /-- `ostream` output of a float. -/
  printFloat : F → Bytes
  /-- `ostream` output of a coordinate of a `LocationPoint` with five decimals. -/
  printCoordinate : ℤ → Bytes
  /-- `decodeLocationList`: the exception, if one is thrown, and the points before it. -/
  decodeLocationList : Bytes → Option Bytes × List LocationPoint
  /-- `miutil::ptimeFromIsoString`, which reads the clock for texts such as `now`. -/
  ptimeFromIsoString : Bytes → Except Bytes PTime
  printFloat_noQuote : ∀ value, Bytes.chr '\'' ∉ printFloat value
  printCoordinate_noQuote : ∀ coordinate, Bytes.chr '\'' ∉ printCoordinate coordinate

/-- The decimal digits of a number. -/
def printNat (number : ℕ) : Bytes := (Nat.toDigits 10 number).map Bytes.chr

/-- `ostream` output of an `int`. -/
def printInt (number : ℤ) : Bytes :=
  if number < 0 then Bytes.chr '-' :: printNat number.natAbs else printNat number.natAbs

/-- Read decimal digits onto a number, up to the first other byte. -/
def decimalNumber : Bytes → ℕ → ℕ
  | [], number => number
  | byte :: rest, number =>
      if isDigit byte then decimalNumber rest (number * 10 + (byte.val - 48)) else number

/-- The value of an `int` after an assignment from a number. -/
def toInt32 (number : ℤ) : ℤ := (number + 2147483648) % 4294967296 - 2147483648

/-- The nearest number in the range of `long`. -/
def toLong (number : ℤ) : ℤ :=
  if number < -9223372036854775808 then -9223372036854775808
  else if 9223372036854775807 < number then 9223372036854775807
  else number

/-- `sscanf` with `%d`. -/
def scanInt (text : Bytes) : Option ℤ :=
  match (cString text).dropWhile isSpace with
  | [] => none
  | sign :: digits =>
      if sign = Bytes.chr '-' ∨ sign = Bytes.chr '+' then
        if (digits.head?.map isDigit).getD false then
          let number : ℤ := decimalNumber digits 0
          some (toInt32 (toLong (if sign = Bytes.chr '-' then -number else number)))
        else none
      else if isDigit sign then some (toInt32 (toLong (decimalNumber (sign :: digits) 0)))
      else none

/-- The trim set `" \r\n\t\""`. -/
def blanksAndQuotes : Bytes := miutil.blanks ++ [Bytes.chr '"']

/-- `splitstr` with the default protector. -/
def splitComma (text : Bytes) : List Bytes :=
  miutil.splitstr text (Bytes.chr ',') (Bytes.chr '"')

/-- The trimmed elements of a comma separated text. -/
def trimmedElements (text : Bytes) : List Bytes :=
  (splitComma text).map fun elem => miutil.trimstr elem blanksAndQuotes

/-- The elements of a comma separated text that are not empty. -/
def elements (text : Bytes) : List Bytes :=
  (trimmedElements text).filter fun elem => !elem.isEmpty

/-- A text between quotes. -/
def quoted (text : Bytes) : Bytes := Bytes.chr '\'' :: text ++ [Bytes.chr '\'']

/-- The SQL array of some texts, or `NULL` when there are none. -/
def sqlArray (opening closing : Bytes) : List Bytes → Bytes
  | [] => Bytes.str "NULL"
  | first :: rest =>
      opening ++ quoted first ++ (rest.flatMap fun elem => Bytes.str ", " ++ quoted elem) ++
        closing

/-! ## Strings -/

/-- The members of a `UrlParamString`. -/
structure UrlParamString where
  array : Bool
  defValue : Bytes
  valueList : List Bytes
  selectPart_ : Bytes
  valid_ : Bool

namespace UrlParamString

/-- The select part of a list of values. -/
def selectOf (array : Bool) (valueList : List Bytes) : Bytes :=
  if array then sqlArray (Bytes.str "ARRAY[ ") (Bytes.str " ]") valueList
  else
    match valueList with
    | [] => Bytes.str "NULL"
    | value :: _ => quoted value

/-- `UrlParamString::setValueList`. -/
def setValueList (valueList : List Bytes) (param : UrlParamString) : UrlParamString :=
  { param with
    valueList := valueList
    selectPart_ := selectOf param.array valueList
    valid_ := true }

/-- The values of a text: its elements, or the trimmed text as one value. -/
def valuesOf (array : Bool) (toDecode : Bytes) : List Bytes :=
  if array then elements toDecode
  else
    let buf := miutil.trimstr toDecode blanksAndQuotes
    if buf.isEmpty then [] else [buf]

/-- `UrlParamString::decode`. -/
def decode (toDecode : Bytes) (param : UrlParamString) : UrlParamString :=
  param.setValueList (valuesOf param.array toDecode)

/-- `UrlParamString::clean`. -/
def clean (param : UrlParamString) : UrlParamString := param.decode param.defValue

/-- The constructors of `UrlParamString`. -/
def new (defaultValue : Bytes) (decodeToArray : Bool) : UrlParamString :=
  clean ⟨decodeToArray, defaultValue, [], [], false⟩

end UrlParamString

/-! ## Value parameters -/

/-- The members of a `UrlParamParameter`. -/
structure UrlParamParameter where
  selectPart_ : Bytes
  valid_ : Bool

namespace UrlParamParameter

/-- `UrlParamParameter::decode`. -/
def decode (toDecode : Bytes) (param : UrlParamParameter) : UrlParamParameter :=
  { param with
    selectPart_ := sqlArray (Bytes.str "array[") (Bytes.str "]") (elements toDecode)
    valid_ := true }

/-- `UrlParamParameter::clean`. -/
def clean (param : UrlParamParameter) : UrlParamParameter :=
  { param with selectPart_ := Bytes.str "NULL", valid_ := true }

/-- The constructors of `UrlParamParameter`. -/
def new : UrlParamParameter := ⟨Bytes.str "NULL", true⟩

end UrlParamParameter

/-! ## Level specifications -/

/-- The members of a `UrlParamLevelSpec`. -/
structure UrlParamLevelSpec where
  protocol : ℤ
  selectPart_ : Bytes
  valid_ : Bool

/-- The values of a level specification. -/
structure LevelValues where
  levelfrom : Bytes
  levelto : Bytes
  leveldomain : Bytes
  ind : Bytes

namespace UrlParamLevelSpec

/-- `UrlParamLevelSpec::validLevel`. -/
def validLevel (level : Bytes) : Bool := level.all isDigit

/-- `UrlParamLevelSpec::validIndCode`. -/
def validIndCode (protocol : ℤ) (indCode : Bytes) : Bool :=
  indCode = Bytes.str "exact" || indCode = Bytes.str "any" || indCode = Bytes.str "inside" ||
    (indCode = Bytes.str "intersect" && protocol = 1) ||
    (decide (2 < protocol) && (indCode = Bytes.str "below" || indCode = Bytes.str "above"))

/-- `UrlParamLevelSpec::validLeveldomain`. -/
def validLeveldomain (leveldomain : Bytes) : Bool := !leveldomain.isEmpty

/-- Fill in what is left out: a missing level is the other one, and the values behind a missing
level move up. -/
def fillIn (values : LevelValues) (count : ℕ) : LevelValues :=
  if !validLevel values.levelfrom then { values with levelfrom := values.levelto }
  else if !validLevel values.levelto then
    { levelfrom := values.levelfrom
      levelto := values.levelfrom
      leveldomain := values.levelto
      ind := if count = 3 then values.leveldomain else values.ind }
  else values

/-- What `decodeProtocol1` and `decodeProtocol2` have in common: the values, or none for a
specification that is left out. -/
def decodeValues (protocol : ℤ) (toDecode : Bytes) : Except Bytes (Option LevelValues) :=
  let vals := trimmedElements toDecode
  let values : LevelValues :=
    { levelfrom := (vals[0]?).getD []
      levelto := (vals[1]?).getD []
      leveldomain := (vals[2]?).getD []
      ind := (vals[3]?).getD (Bytes.str "exact") }
  if vals.length = 0 then .ok none
  else if vals.length < 2 then .error (Bytes.str "LevelSpec: To few values!")
  else if 4 < vals.length then .error (Bytes.str "LevelSpec: To many values!")
  else if values.levelfrom.isEmpty && values.levelto.isEmpty && values.leveldomain.isEmpty &&
      values.ind.isEmpty then .ok none
  else if !validLevel values.levelfrom && !validLevel values.levelto then
    .error (Bytes.str "LevelSpec: Missing required levelfrom or levelto!")
  else
    let values := fillIn values vals.length
    if !validLeveldomain values.leveldomain then
      .error (Bytes.str "LevelSpec: Expecting valuedomain!")
    else if !validIndCode protocol values.ind && !values.ind.isEmpty then
      .error (Bytes.str "LevelSpec: Invalid indtermination code <" ++ values.ind ++
        Bytes.str ">!")
    else
      .ok (some
        { values with ind := if values.ind.isEmpty then Bytes.str "exact" else values.ind })

/-- The select part `decodeProtocol1` writes. -/
def recordOf (values : LevelValues) : Bytes :=
  Bytes.str "(" ++ values.levelfrom ++ Bytes.str ", " ++ values.levelto ++ Bytes.str ", " ++
    quoted values.leveldomain ++ Bytes.str ", " ++ quoted values.ind ++ Bytes.str ")"

/-- `UrlParamLevelSpec::decodeProtocol1`: the exception, if one is thrown, and the parameter
after it. -/
def decodeProtocol1 (toDecode : Bytes) (param : UrlParamLevelSpec) :
    Option Bytes × UrlParamLevelSpec :=
  match decodeValues param.protocol toDecode with
  | .error what => (some what, param)
  | .ok none => (none, { param with selectPart_ := Bytes.str "NULL", valid_ := true })
  | .ok (some values) => (none, { param with selectPart_ := recordOf values, valid_ := true })

/-- The literal of one level. -/
def oneLevel (values : LevelValues) : Bytes :=
  values.ind ++ Bytes.str " " ++ values.levelfrom ++ Bytes.str " " ++ values.leveldomain

/-- The literal of an interval of levels. -/
def levelInterval (values : LevelValues) : Bytes :=
  Bytes.str "inside " ++ values.levelfrom ++ Bytes.str " TO " ++ values.levelto ++
    Bytes.str " " ++ values.leveldomain

/-- `UrlParamLevelSpec::decodeProtocol2`. -/
def decodeProtocol2 (toDecode : Bytes) (param : UrlParamLevelSpec) :
    Option Bytes × UrlParamLevelSpec :=
  match decodeValues param.protocol toDecode with
  | .error what => (some what, param)
  | .ok none => (none, { param with selectPart_ := Bytes.str "NULL", valid_ := true })
  | .ok (some values) =>
      if values.levelfrom = values.levelto then
        if values.ind = Bytes.str "exact" ∨ values.ind = Bytes.str "below" ∨
            values.ind = Bytes.str "above" then
          (none, { param with selectPart_ := quoted (oneLevel values), valid_ := true })
        else
          (some (Bytes.str "LevelSpec: '" ++ values.ind ++
              Bytes.str "' without meaning, only one level is given!"),
            { param with valid_ := false })
      else (none, { param with selectPart_ := quoted (levelInterval values), valid_ := true })

/-- `UrlParamLevelSpec::decode`. -/
def decode (toDecode : Bytes) (param : UrlParamLevelSpec) : Option Bytes × UrlParamLevelSpec :=
  if param.protocol = 1 then param.decodeProtocol1 toDecode
  else if 2 ≤ param.protocol then param.decodeProtocol2 toDecode
  else param.decodeProtocol1 toDecode

/-- `UrlParamLevelSpec::clean`. -/
def clean (param : UrlParamLevelSpec) : UrlParamLevelSpec :=
  { param with selectPart_ := Bytes.str "NULL", valid_ := true }

/-- The constructors of `UrlParamLevelSpec`. -/
def new (protocol : ℤ) : UrlParamLevelSpec := ⟨protocol, Bytes.str "NULL", true⟩

end UrlParamLevelSpec

/-! ## Integers, floats and formats -/

/-- The members of a `UrlParamInteger`. -/
structure UrlParamInteger where
  array : Bool
  value_ : List ℤ
  defValue_ : List ℤ
  defSelectPart_ : Bytes
  selectPart_ : Bytes
  valid_ : Bool

namespace UrlParamInteger

/-- The numbers of a list of texts: all of them, or those before the first that is none. -/
def scanAll : List Bytes → Bool × List ℤ
  | [] => (true, [])
  | text :: rest =>
      match scanInt text with
      | none => (false, [])
      | some number => ((scanAll rest).1, number :: (scanAll rest).2)

/-- The text of an SQL array of numbers. -/
def arrayOf : List ℤ → Bytes
  | [] => Bytes.str "NULL"
  | first :: rest =>
      Bytes.str "array[" ++ printInt first ++
        (rest.flatMap fun number => Bytes.str "," ++ printInt number) ++ Bytes.str "]"

/-- `UrlParamInteger::decode`. -/
def decode (toDecode : Bytes) (param : UrlParamInteger) : Option Bytes × UrlParamInteger :=
  let scanned := scanAll (splitComma toDecode)
  let param := { param with value_ := scanned.2 }
  if !scanned.1 then (some (Bytes.str "Not a number: " ++ toDecode), param)
  else if param.array then
    (none, { param with selectPart_ := arrayOf scanned.2, valid_ := true })
  else
    match scanned.2 with
    | [] => (none, { param with selectPart_ := Bytes.str "NULL", valid_ := true })
    | [number] => (none, { param with selectPart_ := printInt number, valid_ := true })
    | _ => (some (Bytes.str "Expecting only one value, NOT a list of values."), param)

/-- `UrlParamInteger::clean`. -/
def clean (param : UrlParamInteger) : UrlParamInteger :=
  { param with
    value_ := param.defValue_
    selectPart_ := param.defSelectPart_
    valid_ := true }

/-- The constructors of `UrlParamInteger`. -/
def new (array : Bool) (defVal : ℤ) : UrlParamInteger :=
  let value := if defVal = INT_MIN then [] else [defVal]
  let selectPart :=
    if defVal = INT_MIN then Bytes.str "NULL"
    else if array then arrayOf [defVal]
    else printInt defVal
  ⟨array, value, value, selectPart, selectPart, true⟩

end UrlParamInteger

/-- The members of a `UrlParamFloat`. -/
structure UrlParamFloat (F : Type) where
  value_ : F
  valid_ : Bool

namespace UrlParamFloat

variable {F : Type} [TextFunctions F]

/-- `UrlParamFloat::decode`. -/
def decode (toDecode : Bytes) (param : UrlParamFloat F) : Option Bytes × UrlParamFloat F :=
  match TextFunctions.scanFloat toDecode with
  | none => (some (Bytes.str "Not a number: " ++ toDecode), param)
  | some value => (none, { param with value_ := value, valid_ := true })

/-- `UrlParamFloat::clean`. -/
def clean (param : UrlParamFloat F) : UrlParamFloat F :=
  { param with value_ := FLT_MIN, valid_ := false }

/-- The constructors of `UrlParamFloat`, without a default value. -/
def new : UrlParamFloat F := ⟨FLT_MIN, false⟩

end UrlParamFloat

/-- `UrlParamFormat::Format`. -/
inductive Format where
  | CSV
  | HTML
  | XML
  | UNDEF_FORMAT
  deriving DecidableEq, Repr

/-- The members of a `UrlParamFormat`. -/
structure UrlParamFormat where
  format_ : Format
  defFormat_ : Format
  valid_ : Bool

namespace UrlParamFormat

/-- `UrlParamFormat::clean`. -/
def clean (param : UrlParamFormat) : UrlParamFormat :=
  { param with format_ := param.defFormat_, valid_ := param.defFormat_ = .UNDEF_FORMAT }

/-- `UrlParamFormat::decode`, which does nothing. -/
def decode (_ : Bytes) (param : UrlParamFormat) : UrlParamFormat := param

/-- The constructors of `UrlParamFormat` with a default format. -/
def new (defFormat : Format) : UrlParamFormat := ⟨defFormat, defFormat, true⟩

end UrlParamFormat

/-! ## Polygons -/

/-- The members of a `UrlParamPolygon`. -/
structure UrlParamPolygon where
  value_ : List LocationPoint
  defValue_ : List LocationPoint
  defSelectPart_ : Bytes
  defValid_ : Bool
  selectPart_ : Bytes
  valid_ : Bool

namespace UrlParamPolygon

variable (F : Type) [TextFunctions F]

/-- A point in the text of a polygon. -/
def printPoint (point : LocationPoint) : Bytes :=
  TextFunctions.printCoordinate F point.longitude ++ Bytes.str " " ++
    TextFunctions.printCoordinate F point.latitude

/-- The points of a closed polygon. -/
def closePolygon (points : List LocationPoint) : List LocationPoint :=
  match points with
  | [] => []
  | [point] => [point, point]
  | first :: rest => if rest.getLast? = some first then points else points ++ [first]

/-- The text `creatPolygon` writes for the points of a closed polygon. -/
def polygonText : List LocationPoint → Bytes
  | [] => []
  | first :: rest =>
      Bytes.str "POLYGON((" ++ printPoint F first ++
        (rest.flatMap fun point => Bytes.str "," ++ printPoint F point) ++ Bytes.str "))"

/-- `LocationPoint::decodePointList`. -/
def decodePointList (toDecode : Bytes) : Option Bytes × List LocationPoint :=
  let decoded := TextFunctions.decodeLocationList F toDecode
  if decoded.1.isNone && decoded.2.isEmpty then
    (some (Bytes.str "Expecting a location point on the format: longitude latitude, .. , " ++
      Bytes.str "longitude latitude"), [])
  else decoded

/-- `UrlParamPolygon::decode`. -/
def decode (toDecode : Bytes) (param : UrlParamPolygon) : Option Bytes × UrlParamPolygon :=
  match decodePointList F toDecode with
  | (some what, points) => (some what, { param with value_ := points, valid_ := false })
  | (none, points) =>
      (none,
        { param with
          value_ := closePolygon points
          selectPart_ := polygonText F (closePolygon points)
          valid_ := true })

/-- `UrlParamPolygon::clean`. -/
def clean (param : UrlParamPolygon) : UrlParamPolygon :=
  { param with
    value_ := param.defValue_
    selectPart_ := param.defSelectPart_
    valid_ := param.defValid_ }

/-- `UrlParamPolygon()`. -/
def new : UrlParamPolygon := ⟨[], [], [], false, [], false⟩

end UrlParamPolygon

/-! ## Time specifications -/

/-- The members of a `UrlParamTimeSpec`. -/
structure UrlParamTimeSpec where
  protocol : ℤ
  fromTime : PTime
  toTime : PTime
  isDecoded : Bool
  indCode : Bytes
  sameTimespecAsProvider : Bytes
  useProviderList_ : Bool
  selectPart_ : Bytes
  valid_ : Bool

namespace UrlParamTimeSpec

/-- The texts `validDate` accepts beside dates. -/
def dateNames : List Bytes :=
  [Bytes.str "epoch", Bytes.str "-infinity", Bytes.str "infinity", Bytes.str "now",
    Bytes.str "today", Bytes.str "tomorrow", Bytes.str "yesterday"]

/-- `UrlParamTimeSpec::validDate`. -/
def validDate (dateString : Bytes) : Bool :=
  match dateString with
  | [] => false
  | first :: _ =>
      dateNames.contains dateString ||
        (dateString.all (Bytes.str "1234567890-:TtZ ").contains && isDigit first)

/-- `UrlParamTimeSpec::validIndCode`. -/
def validIndCode (protocol : ℤ) (indCode : Bytes) : Bool :=
  indCode = Bytes.str "exact" || (indCode = Bytes.str "any" && protocol = 1) ||
    indCode = Bytes.str "inside" || (indCode = Bytes.str "intersect" && protocol = 1) ||
    (decide (1 < protocol) &&
      (indCode = Bytes.str "before" || indCode = Bytes.str "after" ||
        indCode = Bytes.str "contains"))

/-- The values of a time specification. -/
structure TimeValues where
  fromText : Bytes
  toText : Bytes
  ind : Bytes

/-- Fill in what is left out: a missing time is the other one, and the code behind a missing
second time moves up. -/
def fillIn (values : TimeValues) (count : ℕ) : TimeValues :=
  if !validDate values.fromText then { values with fromText := values.toText }
  else if !validDate values.toText then
    { fromText := values.fromText
      toText := values.fromText
      ind := if count = 2 then values.toText else values.ind }
  else values

/-- What `decodeProtocol1` and `decodeProtocol2` have in common behind the specification of a
provider: the values, or none for a specification that is left out. -/
def decodeValues (protocol : ℤ) (toDecode : Bytes) : Except Bytes (Option TimeValues) :=
  let vals := (splitComma toDecode).map fun val => miutil.trimstr val miutil.blanks
  let values : TimeValues :=
    { fromText := (vals[0]?).getD []
      toText := (vals[1]?).getD []
      ind := (vals[2]?).getD (Bytes.str "exact") }
  if vals.length = 0 then .ok none
  else if 3 < vals.length then .error (Bytes.str "TimeSpec: To many values!")
  else if values.fromText.isEmpty && values.toText.isEmpty && values.ind.isEmpty then .ok none
  else if values.fromText = Bytes.str "NULL" ∨ values.toText = Bytes.str "NULL" then .ok none
  else if vals.length = 1 ∧ !validDate values.fromText then
    .error (Bytes.str "TimeSpec: Invalid fromtime!")
  else
    let values := fillIn values vals.length
    if !validDate values.fromText && !validDate values.toText then
      .error (Bytes.str "TimeSpec: Invalid fromtime or totime!")
    else if !validIndCode protocol values.ind && !values.ind.isEmpty then
      .error (Bytes.str "TimeSpec: Expecting valid indtermination code!")
    else
      .ok (some
        { values with ind := if values.ind.isEmpty then Bytes.str "exact" else values.ind })

/-- The select part of protocol 1. -/
def recordOf (values : TimeValues) : Bytes :=
  Bytes.str "(" ++ quoted values.fromText ++ Bytes.str ", " ++ quoted values.toText ++
    Bytes.str ", " ++ quoted values.ind ++ Bytes.str ")"

/-- The literal of one time. -/
def oneTime (values : TimeValues) : Bytes :=
  values.ind ++ Bytes.str " " ++ values.fromText

/-- The literal of an interval of times. -/
def timeInterval (values : TimeValues) : Bytes :=
  (if values.ind = Bytes.str "inside" ∨ values.ind = Bytes.str "contains" then values.ind
    else Bytes.str "inside") ++ Bytes.str " " ++ values.fromText ++ Bytes.str " TO " ++
    values.toText

/-- Write the select part from the values, in the way of the protocol. -/
def select (isProtocol1 : Bool) (values : TimeValues) (param : UrlParamTimeSpec) :
    Option Bytes × UrlParamTimeSpec :=
  if isProtocol1 then (none, { param with selectPart_ := recordOf values, valid_ := true })
  else if param.fromTime = param.toTime then
    if values.ind = Bytes.str "exact" ∨ values.ind = Bytes.str "before" ∨
        values.ind = Bytes.str "after" then
      (none, { param with selectPart_ := quoted (oneTime values), valid_ := true })
    else
      (some (Bytes.str "TimeSpec: '" ++ values.ind ++
          Bytes.str "' without meaning, only one timestamp given!"),
        { param with valid_ := false })
  else (none, { param with selectPart_ := quoted (timeInterval values), valid_ := true })

variable (F : Type) [TextFunctions F]

/-- Read the times of the values and write the select part. -/
def storeTimes (isProtocol1 : Bool) (values : TimeValues) (param : UrlParamTimeSpec) :
    Option Bytes × UrlParamTimeSpec :=
  match TextFunctions.ptimeFromIsoString F values.fromText with
  | .error what => (some what, param)
  | .ok fromTime =>
      let param := { param with fromTime := fromTime }
      match TextFunctions.ptimeFromIsoString F values.toText with
      | .error what => (some what, param)
      | .ok toTime =>
          select isProtocol1 values { param with toTime := toTime, indCode := values.ind }

/-- `decodeProtocol1` and `decodeProtocol2` behind the specification of a provider. -/
def decodeTimes (isProtocol1 : Bool) (toDecode : Bytes) (param : UrlParamTimeSpec) :
    Option Bytes × UrlParamTimeSpec :=
  let param := { param with fromTime := default, toTime := default, indCode := [] }
  match decodeValues param.protocol toDecode with
  | .error what => (some what, param)
  | .ok none => (none, { param with selectPart_ := Bytes.str "NULL", valid_ := true })
  | .ok (some values) => storeTimes F isProtocol1 values param

/-- `decodeProtocol1` and `decodeProtocol2` of `UrlParamTimeSpec`, which differ in the select
part they write. -/
def decodeProtocol (isProtocol1 : Bool) (toDecode : Bytes) (param : UrlParamTimeSpec) :
    Option Bytes × UrlParamTimeSpec :=
  let param := { param with isDecoded := true }
  match findText (Bytes.str "$\x7b") toDecode with
  | none => decodeTimes F isProtocol1 toDecode param
  | some iSameTimeSpec =>
      match findByte (toDecode.drop iSameTimeSpec) (Bytes.chr '\x7d') with
      | none => (some (Bytes.str "TimeSpec: Expecting '\x7d' in provider specification!"), param)
      | some stop =>
          let provider := miutil.trimstr
            (((toDecode.drop iSameTimeSpec).take stop).drop 2) miutil.blanks
          if provider = Bytes.str "$dataprovider" then
            (none,
              { param with
                sameTimespecAsProvider := []
                useProviderList_ := true
                selectPart_ := Bytes.str "NULL" })
          else
            (none,
              { param with
                sameTimespecAsProvider := provider
                selectPart_ := Bytes.str "NULL" })

/-- `UrlParamTimeSpec::decode`. -/
def decode (toDecode : Bytes) (param : UrlParamTimeSpec) : Option Bytes × UrlParamTimeSpec :=
  let param := { param with useProviderList_ := false }
  if param.protocol = 1 then param.decodeProtocol F true toDecode
  else if 2 ≤ param.protocol then param.decodeProtocol F false toDecode
  else param.decodeProtocol F true toDecode

/-- `UrlParamTimeSpec::clean`. -/
def clean (param : UrlParamTimeSpec) : UrlParamTimeSpec :=
  { param with
    isDecoded := false
    valid_ := true
    selectPart_ := Bytes.str "NULL"
    fromTime := default
    toTime := default
    indCode := []
    sameTimespecAsProvider := []
    useProviderList_ := false }

/-- The constructors of `UrlParamTimeSpec`. -/
def new (protocol : ℤ) : UrlParamTimeSpec :=
  clean ⟨protocol, default, default, false, [], [], false, [], false⟩

end UrlParamTimeSpec

/-! ## Numbers hold no quotes -/

/-- A digit as a byte. -/
theorem isDigit_chr {digit : Char} (digits : digit.isDigit = true) :
    isDigit (Bytes.chr digit) = true ∧ (Bytes.chr digit).val = digit.toNat := by
  have bounds : 48 ≤ digit.toNat ∧ digit.toNat ≤ 57 := by
    simpa [Char.isDigit, UInt32.le_iff_toNat_le] using digits
  have value : (Bytes.chr digit).val = digit.toNat := by
    rw [Bytes.chr, Bytes.val_ofNat]
    omega
  refine ⟨?_, value⟩
  rw [isDigit, value]
  exact decide_eq_true bounds

theorem isDigit_of_mem_printNat {number : ℕ} {byte : Byte} (member : byte ∈ printNat number) :
    isDigit byte = true := by
  rcases List.mem_map.mp member with ⟨digit, isIn, rfl⟩
  exact (isDigit_chr (Nat.isDigit_of_mem_toDigits (by decide) (by decide) isIn)).1

/-- The bytes of decimal digits are no quotes. -/
theorem noQuote_printNat (number : ℕ) : Bytes.chr '\'' ∉ printNat number := by
  intro member
  exact absurd (isDigit_of_mem_printNat member) (by decide)

theorem noQuote_printInt (number : ℤ) : Bytes.chr '\'' ∉ printInt number := by
  have digits := noQuote_printNat number.natAbs
  simp only [printInt]
  split
  · intro member
    rcases List.mem_cons.mp member with isSign | inDigits
    · cases isSign
    · exact digits inDigits
  · exact digits

/-- The text functions on whole numbers and on the name of the epoch. -/
instance wholeNumbers : TextFunctions ℚ where
  scanFloat text := (scanInt text).map fun number => (number : ℚ)
  printFloat value := printInt value.floor
  printCoordinate coordinate := printInt (coordinate / 10000000) ++ Bytes.str ".00000"
  decodeLocationList text :=
    (none, (splitComma text).filterMap fun point =>
      match miutil.splitstr point (Bytes.chr ' ') (Bytes.chr '"') with
      | [longitude, latitude] => do
          let longitude ← scanInt longitude
          let latitude ← scanInt latitude
          some ⟨latitude * 10000000, longitude * 10000000⟩
      | _ => none)
  ptimeFromIsoString text :=
    if text = Bytes.str "epoch" then .ok PTime.epoch
    else .error (Bytes.str "No timestring to decode.")
  printFloat_noQuote value := noQuote_printInt value.floor
  printCoordinate_noQuote coordinate := by
    intro member
    rcases List.mem_append.mp member with inNumber | inDecimals
    · exact noQuote_printInt _ inNumber
    · revert inDecimals
      decide

end Wdb2ts
