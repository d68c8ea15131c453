import Wdb2ts.ConfigParamDefs
import Wdb2ts.QueryText

/-!
# The parser of the configuration

The `ConfigParser` handles the events of an XML parser.  It keeps the path of the open elements and
the request, the version and the query definition that are being read.
-/

namespace Wdb2ts

namespace config

variable {F : Type}

/-- The iterator `itCurrentQueryDef`. -/
inductive QueryDefIterator where
  | uninitialised
  | end_
  | at_ (id : Bytes)
  deriving DecidableEq, Repr

set_option linter.dupNamespace false in
/-- The members of a `ConfigParser`.  The first name of `xmlState` is the one of the innermost
element, and `allocated` is the number of versions that have been made. -/
structure ConfigParser (F : Type) where
  config : Config F
  chardata : Bytes
  inChardata : Bool
  xmlState : List Bytes
  objects : Objects F
  allocated : ℕ
  currentRequest : Option (Request F)
  currentRequestVersion : Option ℕ
  itCurrentQueryDef : QueryDefIterator
  currentQueryDefWdbdb : Bytes
  currentQueryDefPrognosisLengthSeconds : ℤ
  currentQueryProbe : Bool
  currentQueryStopIfData : Bool
  currentQueryPrognosisLengthSeconds : ℤ
  currentQueryWdbdb : Bytes
  paramDefState : ParamDefState F
  errMsg : Bytes

/-- The events of an XML document. -/
inductive Event where
  | startElement (fullname : Bytes) (attributes : AttributeMap)
  | endElement (name : Bytes)
  | characters (buf : Bytes)

/-- The members that own a `paramdefs` element. -/
inductive Owner where
  | configuration
  | request
  | version
  deriving DecidableEq, Repr

/-- The elements that the parser handles. -/
inductive Place where
  | include_
  | request
  | requestActionParam
  | version
  | versionActionParam
  | queryDef
  | query
  | paramDefs (owner : Owner)
  | paramDef (owner : Owner)
  | valueParameter
  | levelParameter
  | value
  | dataVersion
  deriving DecidableEq, Repr

/-- The paths that the parser compares its state with. -/
def places : List (Bytes × Place) :=
  [ (Bytes.str "/wdb2ts/include", .include_),
    (Bytes.str "/wdb2ts/requests/request", .request),
    (Bytes.str "/wdb2ts/requests/request/actionparam", .requestActionParam),
    (Bytes.str "/wdb2ts/requests/request/version", .version),
    (Bytes.str "/wdb2ts/requests/request/version/actionparam", .versionActionParam),
    (Bytes.str "/wdb2ts/querydefs/querydef", .queryDef),
    (Bytes.str "/wdb2ts/querydefs/querydef/query", .query),
    (Bytes.str "/wdb2ts/paramdefs", .paramDefs .configuration),
    (Bytes.str "/wdb2ts/requests/request/paramdefs", .paramDefs .request),
    (Bytes.str "/wdb2ts/requests/request/version/paramdefs", .paramDefs .version),
    (Bytes.str "/wdb2ts/paramdefs/paramdef", .paramDef .configuration),
    (Bytes.str "/wdb2ts/requests/request/paramdefs/paramdef", .paramDef .request),
    (Bytes.str "/wdb2ts/requests/request/version/paramdefs/paramdef", .paramDef .version),
    (Bytes.str "/wdb2ts/paramdefs/paramdef/valueparameter", .valueParameter),
    (Bytes.str "/wdb2ts/paramdefs/paramdef/levelparameter", .levelParameter),
    (Bytes.str "/wdb2ts/paramdefs/paramdef/value", .value),
    (Bytes.str "/wdb2ts/paramdefs/paramdef/dataversion", .dataVersion) ]

/-- `State::path`. -/
def path (xmlState : List Bytes) : Bytes :=
  xmlState.reverse.flatMap fun name => Bytes.chr '/' :: name

/-- The element that the state is in. -/
def place (xmlState : List Bytes) : Option Place := places.lookup (path xmlState)

namespace ConfigParser

/-- `ConfigParser()`, behind `parseFile` has made a configuration.  The members that the constructor
leaves out are not used before they are set, except for `itCurrentQueryDef`. -/
def create [Floats F] : ConfigParser F :=
  { config := Config.create
    chardata := []
    inChardata := false
    xmlState := []
    objects := fun _ => RequestConf.create
    allocated := 0
    currentRequest := none
    currentRequestVersion := none
    itCurrentQueryDef := .uninitialised
    currentQueryDefWdbdb := []
    currentQueryDefPrognosisLengthSeconds := 0
    currentQueryProbe := false
    currentQueryStopIfData := false
    currentQueryPrognosisLengthSeconds := 0
    currentQueryWdbdb := []
    paramDefState := ParamDefState.create
    errMsg := [] }

/-- Messages behind those so far. -/
def report (parser : ConfigParser F) (messages : Bytes) : ConfigParser F :=
  { parser with errMsg := parser.errMsg ++ messages }

/-- `ConfigParser::characters`. -/
def characters (buf : Bytes) (parser : ConfigParser F) : ConfigParser F :=
  { parser with
    inChardata := true
    chardata := if parser.inChardata then parser.chardata ++ buf else buf }

/-- `ConfigParser::getPrognosisLength`: the messages, and the length.  The scale of an invalid
modifier is indeterminate. -/
def getPrognosisLength (surroundings : Surroundings F) (attributes : AttributeMap)
    (defaultValue : ℤ) : Bytes × ℤ :=
  let prognosisLength := (getAttr attributes (Bytes.str "prognosis_length") []).2
  let digits := prognosisLength.takeWhile isDigit
  let length (scale : ℤ) : ℤ := (lexicalCastInt digits).elim 0 fun number => toInt32 (number * scale)
  if prognosisLength.isEmpty then ([], defaultValue)
  else
    match prognosisLength.drop digits.length with
    | [] => ([], length 3600)
    | modifier :: _ =>
        if modifier = Bytes.chr 'h' then ([], length 3600)
        else if modifier = Bytes.chr 's' then ([], length 1)
        else
          (error (Bytes.str "prognosis_length: Invalid modifier '" ++ [modifier] ++
            Bytes.str "'. Valid modifier h (hours) and s (seconds)."),
            length surroundings.indeterminate)

/-- `ConfigParser::doInclude`.  The warnings of the merge are dropped. -/
def doInclude (surroundings : Surroundings F) (attributes : AttributeMap)
    (parser : ConfigParser F) : ConfigParser F :=
  let file := (getAttr attributes (Bytes.str "file") []).2
  if file.isEmpty then
    parser.report (error (Bytes.str "Include statement. Missing mandatory attribute 'file'."))
  else
    let read := surroundings.readFile file
    match read.1 with
    | none => parser.report read.2
    | some myConfig =>
        { parser.report read.2 with config := (parser.config.merge myConfig file).2 }

/-! ## Requests -/

/-- `ConfigParser::doRequestConf`: the messages, and the settings. -/
def doRequestConf (attributes : AttributeMap) (conf : RequestConf F) (versionAttrName : Bytes) :
    Bytes × RequestConf F :=
  attributes.entries.foldl
    (fun read it =>
      if it.1 = Bytes.str "wdbdb" then (read.1, { read.2 with wdbDB := some it.2 })
      else if it.1 = Bytes.str "action" then (read.1, { read.2 with action := some it.2 })
      else if it.1 = Bytes.str "queryid" then (read.1, { read.2 with queryid := some it.2 })
      else if it.1 = versionAttrName then
        (read.1, { read.2 with version := Version.ofText it.2 })
      else if it.1 = Bytes.str "path" then read
      else if it.1 = Bytes.str "schema" then (read.1, { read.2 with schema := some it.2 })
      else
        (read.1 ++ warning (Bytes.str "Unknown attribute '" ++ it.1 ++ Bytes.str "' value='" ++
          it.2 ++ Bytes.str "'."), read.2))
    ([], conf)

/-- `ConfigParser::doRequest`. -/
def doRequest (attributes : AttributeMap) (parser : ConfigParser F) : ConfigParser F :=
  match parser.currentRequest with
  | some _ => parser.report (error (Bytes.str "Allready parsing a request."))
  | none =>
      let val := (getAttr attributes (Bytes.str "path") []).2
      if val.isEmpty then
        parser.report (error (Bytes.str "Missing mandatory attribute 'path'."))
      else
        let read := doRequestConf attributes RequestConf.create (Bytes.str "default_version")
        { parser.report read.1 with
          currentRequest :=
            some { requestDefault := read.2, requestVersions := [], path := some val } }

/-- `ConfigParser::doRequestActionParam`: the messages, and the parameters.  The value is not looked
up without a key. -/
def doRequestActionParam (attributes : AttributeMap) (actionParam : ActionParam) :
    Bytes × ActionParam :=
  let key := getAttr attributes (Bytes.str "key") []
  let val := if key.1 then (getAttr attributes (Bytes.str "value") []).2 else []
  if key.2.isEmpty || val.isEmpty then
    ((if key.2.isEmpty then
        error (Bytes.str "doRequestActionParam: missing mandatory attribute 'key'.") else []) ++
      (if val.isEmpty then
        error (Bytes.str "doRequestActionParam: missing mandatory attribute 'val'.") else []),
      actionParam)
  else ([], actionParam.insert key.2 (some val))

/-- `ConfigParser::doRequestDefaultActionParam`. -/
def doRequestDefaultActionParam (attributes : AttributeMap) (parser : ConfigParser F) :
    ConfigParser F :=
  match parser.currentRequest with
  | none => parser.report (error (Bytes.str "doRequestDefaultActionParam: NO request."))
  | some request =>
      let read := doRequestActionParam attributes request.requestDefault.actionParam
      { parser.report read.1 with
        currentRequest :=
          some { request with
            requestDefault := { request.requestDefault with actionParam := read.2 } } }

/-- `ConfigParser::doRequestVersion`. -/
def doRequestVersion (attributes : AttributeMap) (parser : ConfigParser F) : ConfigParser F :=
  match parser.currentRequestVersion with
  | some _ =>
      parser.report (error (Bytes.str "doRequestVersion: Allready started a version element."))
  | none =>
      let read := doRequestConf attributes RequestConf.create (Bytes.str "version")
      { parser.report read.1 with
        objects := Function.update parser.objects parser.allocated read.2
        allocated := parser.allocated + 1
        currentRequestVersion := some parser.allocated }

/-- The action parameter of a version in `startElement`. -/
def doVersionActionParam (attributes : AttributeMap) (parser : ConfigParser F) : ConfigParser F :=
  match parser.currentRequestVersion with
  | none =>
      parser.report (warning (Bytes.str
        "/wdb2ts/requests/request/version/actionparam: No currentRequestVersion!"))
  | some it =>
      let conf := parser.objects it
      let read := doRequestActionParam attributes conf.actionParam
      { parser.report read.1 with
        objects := Function.update parser.objects it { conf with actionParam := read.2 } }

/-! ## Query definitions -/

/-- The test of `doQuery` for a flag. -/
def isTrue (text : Bytes) : Bool :=
  text.head? = some (Bytes.chr 't') ∨ text.head? = some (Bytes.chr 'T')

/-- `ConfigParser::doQuery`. -/
def doQuery (surroundings : Surroundings F) (attributes : AttributeMap)
    (parser : ConfigParser F) : ConfigParser F :=
  let wdbdb := (getAttr attributes (Bytes.str "wdbdb") []).2
  let length := getPrognosisLength surroundings attributes
    parser.currentQueryDefPrognosisLengthSeconds
  { parser.report length.1 with
    currentQueryProbe :=
      isTrue (getAttr attributes (Bytes.str "must_have_data") (Bytes.str "false")).2
    currentQueryStopIfData :=
      isTrue (getAttr attributes (Bytes.str "stop_if_data") (Bytes.str "false")).2
    currentQueryWdbdb := if wdbdb.isEmpty then parser.currentQueryDefWdbdb else wdbdb
    currentQueryPrognosisLengthSeconds := length.2 }

/-- `ConfigParser::doQueryDef`. -/
def doQueryDef (surroundings : Surroundings F) (attributes : AttributeMap)
    (parser : ConfigParser F) : ConfigParser F :=
  let id := (getAttr attributes (Bytes.str "id") []).2
  if id.isEmpty then
    parser.report (error (Bytes.str "Mandatory 'querydef' attribute 'id' missing."))
  else if parser.config.querys.contains id then
    { parser.report (error (Bytes.str "Querydef: id: '" ++ id ++ Bytes.str "' alleady defined.")) with
      itCurrentQueryDef := .at_ id }
  else
    let length := getPrognosisLength surroundings attributes 0
    let sParalell :=
      if attributes.contains (Bytes.str "parallel") then
        (getAttr attributes (Bytes.str "parallel") (Bytes.str "1")).2
      else (getAttr attributes (Bytes.str "paralell") (Bytes.str "1")).2
    let query : Bytes × Query :=
      match lexicalCastInt sParalell with
      | some n => ([], { Query.create with dbRequestsInParalells := if n < 0 then 1 else n })
      | none =>
          (error (Bytes.str
            "querydef: The value to 'paralell' must be a number. Was: paralell=\"" ++ sParalell ++
            Bytes.str "\""), Query.create)
    { parser.report (length.1 ++ query.1) with
      config := { parser.config with querys := parser.config.querys.insert id query.2 }
      itCurrentQueryDef := .at_ id
      currentQueryDefPrognosisLengthSeconds := length.2
      currentQueryDefWdbdb := (getAttr attributes (Bytes.str "wdbdb") []).2 }

/-! ## Elements -/

/-- A handler of the parameter definitions. -/
def withParamDefs (parser : ConfigParser F) (read : Bytes × ParamDefState F) : ConfigParser F :=
  { parser.report read.1 with paramDefState := read.2 }

/-- What `startElement` does in an element. -/
def start [Floats F] (surroundings : Surroundings F) (attributes : AttributeMap)
    (parser : ConfigParser F) : Option Place → Except Failure (ConfigParser F)
  | some .include_ => return parser.doInclude surroundings attributes
  | some .request => return parser.doRequest attributes
  | some .requestActionParam => return parser.doRequestDefaultActionParam attributes
  | some .version => return parser.doRequestVersion attributes
  | some .versionActionParam => return parser.doVersionActionParam attributes
  | some .queryDef =>
      return doQueryDef surroundings attributes { parser with currentQueryDefWdbdb := [] }
  | some .query =>
      return { parser.doQuery surroundings attributes with inChardata := false, chardata := [] }
  | some (.paramDefs _) =>
      return parser.withParamDefs (parser.paramDefState.doParamDefs surroundings attributes)
  | some (.paramDef _) =>
      return parser.withParamDefs (parser.paramDefState.doParamDef parser.config attributes)
  | some .valueParameter =>
      return parser.withParamDefs (← parser.paramDefState.doValueParameter attributes)
  | some .levelParameter =>
      return parser.withParamDefs (← parser.paramDefState.doLevelParameter attributes)
  | some .value =>
      return parser.withParamDefs (← parser.paramDefState.doValue surroundings attributes)
  | some .dataVersion =>
      return parser.withParamDefs (← parser.paramDefState.doDataVersion attributes)
  | none => return parser

/-- `ConfigParser::startElement`. -/
def startElement [Floats F] (surroundings : Surroundings F) (fullname : Bytes)
    (attributes : AttributeMap) (parser : ConfigParser F) : Except Failure (ConfigParser F) :=
  let xmlState := fullname :: parser.xmlState
  start surroundings attributes { parser with inChardata := false, xmlState := xmlState }
    (place xmlState)

/-- The end of a version in `endElement`. -/
def endVersion (parser : ConfigParser F) : Except Failure (ConfigParser F) :=
  match parser.currentRequest, parser.currentRequestVersion with
  | none, _ => return { parser with currentRequestVersion := none }
  | some _, none => throw .nullRequestVersion
  | some request, some it =>
      let conf := parser.objects it
      let addition : Request.Addition F :=
        if !conf.version.invalid && !conf.version.defaultVersionHighest then
          request.addRequestVersion parser.objects (some it)
        else ⟨true, [], request⟩
      let conf :=
        if conf.schema.isNone && request.requestDefault.schema.isSome then
          { conf with schema := request.requestDefault.schema }
        else conf
      return { parser.report (if addition.accepted then [] else warning addition.warning) with
        objects := Function.update parser.objects it conf
        currentRequest := some addition.request
        currentRequestVersion := none }

/-- The end of a request in `endElement`. -/
def endRequest (parser : ConfigParser F) : Except Failure (ConfigParser F) :=
  match parser.currentRequest with
  | none => throw .nullRequest
  | some request =>
      let resolved := request.resolve parser.objects
      return { parser with
        objects := resolved.1
        config :=
          { parser.config with
            requests := addRequest resolved.1 parser.config.requests resolved.2 }
        currentRequest := none }

/-- The end of a query in `endElement`, with the characters in front of it. -/
def endQuery (buf : Bytes) (parser : ConfigParser F) : Except Failure (ConfigParser F) :=
  let text := queryText buf
  if text.isEmpty then return parser
  else
    match parser.itCurrentQueryDef with
    | .uninitialised => throw .uninitialisedQueryDef
    | .end_ => return parser
    | .at_ id =>
        let element : QueryElement :=
          ⟨text, parser.currentQueryProbe, parser.currentQueryStopIfData, parser.currentQueryWdbdb,
            parser.currentQueryPrognosisLengthSeconds⟩
        return { parser with
          config :=
            { parser.config with
              querys := parser.config.querys.upsert id fun query =>
                (query.getD Query.create).push_back element } }

/-- The end of the `paramdefs` of an owner in `endElement`. -/
def endParamDefs (parser : ConfigParser F) : Owner → Except Failure (ConfigParser F)
  | .configuration =>
      return { parser with
        config :=
          { parser.config with
            paramdef := ParamDefConfig.mergeWith parser.config.paramdef
              parser.paramDefState.currentParamDefConfig true } }
  | .request =>
      match parser.currentRequest with
      | none => throw .nullRequest
      | some request =>
          return { parser with
            currentRequest :=
              some { request with
                requestDefault :=
                  { request.requestDefault with
                    paramdef := ParamDefConfig.mergeWith request.requestDefault.paramdef
                      parser.paramDefState.currentParamDefConfig true } } }
  | .version =>
      match parser.currentRequestVersion with
      | none => throw .nullRequestVersion
      | some it =>
          let conf := parser.objects it
          return { parser with
            objects := Function.update parser.objects it
              { conf with
                paramdef := ParamDefConfig.mergeWith conf.paramdef
                  parser.paramDefState.currentParamDefConfig true } }

/-- What `endElement` does in an element, with the characters in front of the end. -/
def end_ [Floats F] (buf : Bytes) (parser : ConfigParser F) :
    Option Place → Except Failure (ConfigParser F)
  | some .version => parser.endVersion
  | some .request => parser.endRequest
  | some .queryDef => return { parser with currentQueryDefWdbdb := [], itCurrentQueryDef := .end_ }
  | some .query => parser.endQuery buf
  | some (.paramDefs owner) => parser.endParamDefs owner
  | some (.paramDef _) => return parser.withParamDefs parser.paramDefState.addParamDef
  | _ => return parser

/-- `ConfigParser::endElement`. -/
def endElement [Floats F] (parser : ConfigParser F) : Except Failure (ConfigParser F) := do
  let buf := parser.chardata
  let parser ← end_ buf { parser with inChardata := false, chardata := [] } (place parser.xmlState)
  return { parser with xmlState := parser.xmlState.tail }

/-- The handler of an event. -/
def handle [Floats F] (surroundings : Surroundings F) (parser : ConfigParser F) :
    Event → Except Failure (ConfigParser F)
  | .startElement fullname attributes => parser.startElement surroundings fullname attributes
  | .endElement _ => parser.endElement
  | .characters buf => return parser.characters buf

end ConfigParser

end config

end Wdb2ts
