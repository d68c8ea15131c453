import Wdb2ts.Floats
import Wdb2ts.RequestConf

/-!
# The configuration

A `Config` has the query definitions, the parameter definitions and the requests of the
configuration files.  The parser fills it, and merges the configurations of included files.
-/

namespace Wdb2ts

variable {F : Type}

/-! ## Parameter definitions with replacement -/

namespace ParamDefList

/-- The loop of `addParamDef` that replaces a definition. -/
def replaceParamDef (pd : ParamDef F) : List (ParamDef F) → List (ParamDef F)
  | [] => []
  | paramDef :: rest =>
      if paramDef.alias_ = pd.alias_ then pd :: rest else paramDef :: replaceParamDef pd rest

/-- `ParamDefList::addParamDef`. -/
def addParamDefWith (list : ParamDefList F) (pd : ParamDef F) (provider : Bytes) (replace : Bool) :
    Bool × ParamDefList F :=
  if list.hasParam pd.alias_ provider && replace then
    (true,
      { list with
        defs := list.defs.upsert (providerKey provider) fun params =>
          replaceParamDef pd (params.getD []) })
  else list.addParamDef pd provider

/-- `ParamDefList::merge`. -/
def mergeWith (list other : ParamDefList F) (replace : Bool) : ParamDefList F :=
  other.defs.entries.foldl
    (fun merged entry =>
      match merged.defs.find? entry.1 with
      | none => { merged with defs := merged.defs.insert entry.1 entry.2 }
      | some _ =>
          entry.2.foldl (fun list param => (list.addParamDefWith param entry.1 replace).2) merged)
    list

theorem addParamDefWith_false (list : ParamDefList F) (pd : ParamDef F) (provider : Bytes) :
    list.addParamDefWith pd provider false = list.addParamDef pd provider := by
  rw [addParamDefWith, Bool.and_false, if_neg Bool.false_ne_true]

end ParamDefList

namespace ParamDefConfig

/-- `ParamDefConfig::merge`. -/
def mergeWith (config other : ParamDefConfig F) (replace : Bool) : ParamDefConfig F :=
  other.entries.foldl
    (fun merged entry =>
      match merged.find? entry.1 with
      | none => merged.insert entry.1 entry.2
      | some own => merged.insert entry.1 (own.mergeWith entry.2 replace))
    config

/-- `ParamDefConfig::hasParam`. -/
def hasParam (config : ParamDefConfig F) (alias_ provider paramdefsId : Bytes) : Bool :=
  match config.find? paramdefsId with
  | none => false
  | some list => list.hasParam alias_ provider

/-- `ParamDefConfig::paramDefs`. -/
def paramDefs (config : ParamDefConfig F) (paramdefsId : Bytes) : ParamDefList F :=
  (config.find? paramdefsId).getD ∅

/-- The call of `addParamDef` for a provider: the error when it fails, and the configuration. -/
def addToProvider (paramdefId : Bytes) (pd : ParamDef F) (replace : Bool) (provider shown : Bytes)
    (config : ParamDefConfig F) : Option Bytes × ParamDefConfig F :=
  let added := (ParamDefConfig.paramDefs config paramdefId).addParamDefWith pd provider replace
  (if added.1 then none
    else some (Bytes.str "addParam: ParamDef '" ++ pd.alias_ ++ Bytes.str "' provider: '" ++ shown ++
      Bytes.str "' allready defined."),
    SortedMap.insert config paramdefId added.2)

/-- The loop of `addParamDef` over the providers. -/
def addToProviders (paramdefId : Bytes) (pd : ParamDef F) (replace : Bool) :
    List Bytes → ParamDefConfig F → Option Bytes × ParamDefConfig F
  | [], config => (none, config)
  | it :: rest, config =>
      let added := addToProvider paramdefId pd replace it it config
      if added.1.isSome then added else addToProviders paramdefId pd replace rest added.2

/-- `ParamDefConfig::addParamDef`: the error when it fails, and the configuration. -/
def addParamDef (config : ParamDefConfig F) (paramdefId : Bytes) (pd : ParamDef F)
    (provider : List Bytes) (replace : Bool) : Option Bytes × ParamDefConfig F :=
  if provider.isEmpty then
    addToProvider paramdefId pd replace [] (Bytes.str "default") config
  else addToProviders paramdefId pd replace provider config

end ParamDefConfig

namespace config

/-- `Config::QueryElement`. -/
structure QueryElement where
  query : Bytes
  probe : Bool
  stopIfData : Bool
  wdbdb : Bytes
  prognosisLengthSeconds : ℤ
  deriving DecidableEq, Repr

/-- `Config::Query`. -/
structure Query where
  querys : List QueryElement
  dbRequestsInParalells : ℤ
  deriving DecidableEq, Repr

/-- `Query()`. -/
def Query.create : Query := ⟨[], 0⟩

def Query.push_back (query : Query) (val : QueryElement) : Query :=
  { query with querys := query.querys ++ [val] }

/-- A request of the `RequestMap`, with the versions it points to. -/
structure MappedRequest (F : Type) where
  requestDefault : RequestConf F
  requestVersions : List (RequestConf F)
  path : miutil.Value

structure Config (F : Type) where
  querys : SortedMap Bytes Query
  paramdef : ParamDefConfig F
  requests : SortedMap Bytes (MappedRequest F)

namespace Config

/-- `Config()`. -/
def create : Config F := ⟨∅, ∅, ∅⟩

/-- The loops of `Config::merge` over the requests and over the query definitions: the warnings,
and the merged map. -/
def mergeMap {β : Type} (what file : Bytes) (map other : SortedMap Bytes β) :
    Bytes × SortedMap Bytes β :=
  other.entries.foldl
    (fun merged entry =>
      if merged.2.contains entry.1 then
        (merged.1 ++ Bytes.str "WARNING: " ++ what ++ Bytes.str " <" ++ entry.1 ++
          Bytes.str "> allready defined. Ignoring redefinition in file <" ++ file ++
          Bytes.str ">." ++ [Bytes.chr '\n'], merged.2)
      else (merged.1, merged.2.insert entry.1 entry.2))
    ([], map)

/-- `Config::merge`: the warnings, and the merged configuration. -/
def merge (config other : Config F) (file : Bytes) : Bytes × Config F :=
  let requests := mergeMap (Bytes.str "request") file config.requests other.requests
  let querys := mergeMap (Bytes.str "querydef") file config.querys other.querys
  (requests.1 ++ querys.1,
    { querys := querys.2
      paramdef := ParamDefConfig.mergeWith config.paramdef other.paramdef false
      requests := requests.2 })

end Config

/-- `addRequest`.  A request behind a path that is taken is dropped. -/
def addRequest (objects : Objects F) (requestMap : SortedMap Bytes (MappedRequest F))
    (request : Request F) : SortedMap Bytes (MappedRequest F) :=
  let path := request.path.getD []
  if path.isEmpty || requestMap.contains path then requestMap
  else
    requestMap.insert path
      ⟨request.requestDefault, request.requestVersions.map objects, request.path⟩

/-! ## Attributes and messages -/

/-- The attributes of an element. -/
abbrev AttributeMap := SortedMap Bytes Bytes

/-- `SAXParser::getAttr`: whether the attribute is there, and its value.  An empty value is replaced
by the default value. -/
def getAttr (attributes : AttributeMap) (attr defaultVal : Bytes) : Bool × Bytes :=
  match attributes.find? attr with
  | none => (false, defaultVal)
  | some val =>
      let val := miutil.trimstr val miutil.blanks
      (true, if val.isEmpty then defaultVal else val)

/-- What `SAXParser::error` writes to the messages. -/
def error (msg : Bytes) : Bytes := Bytes.str "xml error: " ++ msg ++ [Bytes.chr '\n']

/-- What `SAXParser::warning` writes to the messages. -/
def warning (msg : Bytes) : Bytes := Bytes.str "xml warning: " ++ msg ++ [Bytes.chr '\n']

/-- What the handlers of the parser use of their surroundings.  `indeterminate` is the value of an
`int` that nothing is assigned to. -/
structure Surroundings (F : Type) where
  /-- What `readFile` makes of a file, and the messages about it. -/
  readFile : Bytes → Option (Config F) × Bytes
  /-- `boost::lexical_cast<float>`. -/
  lexicalCastFloat : Bytes → Option F
  indeterminate : ℤ

/-- What a handler does instead of returning. -/
inductive Failure where
  /-- The pointer `currentRequest` is null where it is used. -/
  | nullRequest
  /-- The pointer `currentRequestVersion` is null where it is used. -/
  | nullRequestVersion
  /-- The iterator `itCurrentQueryDef` is used before something is assigned to it. -/
  | uninitialisedQueryDef
  /-- A `std::logic_error` is thrown. -/
  | logicError
  deriving DecidableEq, Repr

end config

end Wdb2ts
