import Wdb2ts.ParamDef
import Wdb2ts.ProviderReftimes

/-!
# The queries for the database

`QueryMaker` groups the parameters of a configuration by id, provider and level, and makes one
query for the parameters of each group.
-/

namespace Wdb2ts

variable {F : Type}

/-! ## Levels -/

/-- `Level::Qualifier`. -/
inductive Qualifier where
  | exact
  | below
  | above
  | inside
  | any
  | udef
  deriving DecidableEq, Repr

/-- The order of the enumeration. -/
instance : LinearOrder Qualifier :=
  LinearOrder.lift' Qualifier.ctorIdx fun left right equal => by
    cases left <;> cases right <;> simp_all [Qualifier.ctorIdx]

/-- `Level`. -/
structure Level where
  from_ : ℤ
  to_ : ℤ
  levelparametername : Bytes
  unit : Bytes
  qualifier : Qualifier
  deriving DecidableEq, Repr

/-- What `Level::operator<` compares, in the order of its comparisons. -/
abbrev LevelKey := Bytes ×ₗ ℤ ×ₗ ℤ ×ₗ Qualifier

namespace Level

/-- `Level()`. -/
def undefined : Level := ⟨INT_MIN, INT_MIN, [], [], .udef⟩

/-- `Level( param )`. -/
def ofParam (param : ParamDef F) : Level :=
  if param.hasLevelparameters then
    ⟨param.levelfrom, param.levelto, param.levelparametername, param.levelunitname, .udef⟩
  else undefined

/-- `Level::isDefined`. -/
def isDefined (level : Level) : Bool :=
  !(decide (level.to_ = INT_MIN) && decide (level.from_ = INT_MIN) &&
    level.levelparametername.isEmpty)

/-- `Level::isEqual`. -/
def isEqual (level toThis : Level) (ignoreQualifier : Bool) : Bool :=
  decide (level.levelparametername = toThis.levelparametername) &&
    decide (level.from_ = toThis.from_) && decide (level.to_ = toThis.to_) &&
    decide (level.unit = toThis.unit) &&
    (ignoreQualifier || decide (level.qualifier = toThis.qualifier))

/-- `Level::operator<`. -/
def less (level rhs : Level) : Bool :=
  decide (level.levelparametername < rhs.levelparametername) ||
    decide (level.levelparametername = rhs.levelparametername ∧ level.from_ < rhs.from_) ||
    decide (level.levelparametername = rhs.levelparametername ∧ level.from_ = rhs.from_ ∧
      level.to_ < rhs.to_) ||
    decide (level.levelparametername = rhs.levelparametername ∧ level.from_ = rhs.from_ ∧
      level.to_ = rhs.to_ ∧ level.qualifier < rhs.qualifier)

/-- The key of a level in a map that is ordered by `operator<`. -/
def key (level : Level) : LevelKey :=
  toLex (level.levelparametername, toLex (level.from_, toLex (level.to_, level.qualifier)))

theorem less_iff_key_lt (level rhs : Level) : level.less rhs = true ↔ level.key < rhs.key := by
  simp only [less, key, Prod.Lex.toLex_lt_toLex, Bool.or_eq_true, decide_eq_true_eq]
  tauto

theorem key_eq_iff {level other : Level} : level.key = other.key ↔
    level.levelparametername = other.levelparametername ∧ level.from_ = other.from_ ∧
      level.to_ = other.to_ ∧ level.qualifier = other.qualifier := by
  simp [key]

end Level

/-! ## Sets of queries -/

/-- `Query`. -/
structure Query (F : Type) where
  id : Bytes
  provider : Bytes
  params : List (ParamDef F)
  querys : List Bytes
  deriving DecidableEq

namespace Query

/-- `Query( id, provider )`. -/
def new (id provider : Bytes) : Query F := ⟨id, provider, [], []⟩

/-- `Query::operator==`. -/
def isSame (query rhs : Query F) : Bool :=
  decide (query.id = rhs.id) && decide (query.provider = rhs.provider)

/-- `Query::addParam`. -/
def addParam (query : Query F) (param : ParamDef F) : Query F :=
  if query.params.any fun other => other.valueparametername = param.valueparametername then query
  else { query with params := query.params ++ [param] }

/-- The loop over the query strings of `Query::merge`. -/
def mergeQuerys (querys with_ : List Bytes) : List Bytes :=
  with_.foldl (fun querys text => if text ∈ querys then querys else querys ++ [text]) querys

/-- The loop over the parameters of `Query::merge`. -/
def mergeParams (params with_ : List (ParamDef F)) : List (ParamDef F) :=
  with_.foldl
    (fun params param =>
      if params.any fun other => other.alias_ = param.alias_ then params else params ++ [param])
    params

/-- `Query::merge`. -/
def merge (query with_ : Query F) : Query F :=
  if with_.isSame query then
    { query with
      querys := mergeQuerys query.querys with_.querys
      params := mergeParams query.params with_.params }
  else query

end Query

/-- `QuerysAndParamDefs`. -/
structure QuerysAndParamDefs (F : Type) where
  querys : List (Query F)
  providerPriority : ProviderList
  params : ParamDefList F
  referenceTimes : ProviderRefTimeList
  wciProtocol : ℤ

namespace QuerysAndParamDefs

/-- `QuerysAndParamDefs( wciProtocol )`. -/
def new (wciProtocol : ℤ) : QuerysAndParamDefs F := ⟨[], [], ∅, ∅, wciProtocol⟩

/-- `QuerysAndParamDefs::addQuery`. -/
def addQuery (set : QuerysAndParamDefs F) (q : Query F) : QuerysAndParamDefs F :=
  match set.querys.findIdx? fun query => query.isSame q with
  | none => { set with querys := set.querys ++ [q] }
  | some index => { set with querys := set.querys.modify index fun query => query.merge q }

end QuerysAndParamDefs

/-! ## The maker of the queries -/

/-- `providerReftimeDisabledAndDataversion`: the reference time, the disabled flag and the data
version of the first entry of a provider. -/
def ProviderRefTimeList.providerReftimeDisabledAndDataversion (list : ProviderRefTimeList)
    (provider : Bytes) : Option (PTime × Bool × ℤ) :=
  (list.entries.find? fun entry =>
    isRequested (ProviderList.decodeItem provider)
      (ProviderList.decodeItem entry.1)).map fun entry =>
        (entry.2.refTime, entry.2.disabled, entry.2.dataversion)

/-- `list::unique`: of equal neighbours the first one stays. -/
def unique : List Bytes → List Bytes
  | [] => []
  | [name] => [name]
  | name :: other :: rest =>
      if name = other then unique (name :: rest) else name :: unique (other :: rest)
  termination_by names => names.length

/-- `ProviderList::providerWithoutPlacename`. -/
def ProviderList.providerWithoutPlacename (list : ProviderList) : List Bytes :=
  unique (list.map ProviderItem.provider)

/-- `QueryMaker::LevelParams`.  The map keeps the first of the levels that it does not tell
apart. -/
abbrev LevelParams (F : Type) := SortedMap LevelKey (Level × List (ParamDef F))

/-- `params[level].push_back( param )`. -/
def LevelParams.push (params : LevelParams F) (param : ParamDef F) : LevelParams F :=
  params.upsert (Level.ofParam param).key fun group =>
    match group with
    | none => (Level.ofParam param, [param])
    | some group => (group.1, group.2 ++ [param])

/-- `QueryMaker`. -/
structure QueryMaker (F : Type) where
  params : SortedMap Bytes (SortedMap Bytes (LevelParams F))
  wciProtocol : ℤ

/-- What a call of `getWdbReadQuerys` sets in the members of the maker. -/
structure ReadRequest (F : Type) where
  latitude : F
  longitude : F
  referenceTimes : ProviderRefTimeList
  validTime : PTime × PTime
  dataVersion : ℤ

namespace QueryMaker

/-- The provider of a key of the configuration. -/
def providerOf (key : Bytes) : Bytes :=
  if key = defaultProvider then []
  else
    match ProviderList.decode_ key true with
    | [] => key
    | item :: _ => item.provider

/-- `query->params[id][provider][Level( param )].push_back( param )`. -/
def push (params : SortedMap Bytes (SortedMap Bytes (LevelParams F))) (id provider : Bytes)
    (param : ParamDef F) : SortedMap Bytes (SortedMap Bytes (LevelParams F)) :=
  params.upsert id fun providers =>
    (providers.getD ∅).upsert provider fun levels => LevelParams.push (levels.getD ∅) param

/-- `QueryMaker::create`. -/
def create (params : ParamDefConfig F) (wciProtocol : ℤ) : QueryMaker F where
  params := params.entries.foldl
    (fun made itId => itId.2.defs.entries.foldl
      (fun made it => it.2.foldl (fun made pit => push made itId.1 (providerOf it.1) pit) made)
      made)
    ∅
  wciProtocol := wciProtocol

section Text

variable (isotimeString : PTime → Bytes) (decimal : F → Bytes)

/-- `timeStr`. -/
def timeStr (t : PTime) : Bytes :=
  match t with
  | .posInfinity => Bytes.str "infinity"
  | .negInfinity => Bytes.str "epoch"
  | .notADateTime => []
  | .ticks _ => isotimeString t

/-- `wciReadReturnColoumns`. -/
def wciReadReturnColoumns (wciProtocol : ℤ) : Bytes :=
  let times := if wciProtocol < 3 then "validfrom, validto, " else "validtimefrom, validtimeto, "
  Bytes.str "value, dataprovidername, placename, referencetime, " ++ Bytes.str times ++
    Bytes.str "valueparametername, valueparameterunit, levelparametername, " ++
    Bytes.str "levelunitname, levelfrom, levelto, dataversion, " ++
    Bytes.str "ST_AsText(placegeometry) as point"

/-- `wciTimeSpec`. -/
def wciTimeSpec (wciProtocol : ℤ) (from_ to_ : PTime) : Bytes :=
  if from_ = .notADateTime then Bytes.str "NULL"
  else
    let to_ := if to_ = .notADateTime then from_ else to_
    let sFrom := timeStr isotimeString from_
    let sTo := timeStr isotimeString to_
    if sFrom.isEmpty then Bytes.str "NULL"
    else
      let end_ := if sTo.isEmpty then (from_, sFrom) else (to_, sTo)
      if wciProtocol = 1 then
        Bytes.str "('" ++ sFrom ++ Bytes.str "', '" ++ end_.2 ++
          Bytes.str (if end_.1 = from_ then "', 'exact')" else "', 'inside')")
      else if end_.1 = from_ then Bytes.str "'exact " ++ end_.2 ++ Bytes.str "'"
      else Bytes.str "'inside " ++ sFrom ++ Bytes.str " TO " ++ end_.2 ++ Bytes.str "'"

/-- The place of the value parameters in a query. -/
def PARAMS : Bytes := Bytes.str "@@PARAMS@@"

/-- The text of a query. -/
def readQuery (wciProtocol : ℤ) (request : ReadRequest F) (provider : Bytes) (reftime : PTime)
    (dataversion : ℤ) : Bytes :=
  Bytes.str "SELECT " ++ wciReadReturnColoumns wciProtocol ++ Bytes.str " FROM wci.read(\n" ++
    Bytes.str "ARRAY['" ++ provider ++ Bytes.str "'], \n" ++
    Bytes.str "'nearest POINT(" ++ decimal request.longitude ++ Bytes.str " " ++
    decimal request.latitude ++ Bytes.str ")', \n" ++
    wciTimeSpec isotimeString wciProtocol reftime .notADateTime ++ Bytes.str ", \n" ++
    wciTimeSpec isotimeString wciProtocol request.validTime.1 request.validTime.2 ++
    Bytes.str ", \n" ++ PARAMS ++ Bytes.str ", \nNULL, \nARRAY[" ++
    Bytes.str (toString dataversion) ++
    Bytes.str "], NULL::wci.returnfloat ) ORDER BY referencetime"

end Text

/-- The level of a group, given to a parameter. -/
def withLevel (lvl : Level) (param : ParamDef F) : ParamDef F :=
  { param with
    levelfrom := lvl.from_
    levelto := lvl.to_
    levelparametername := lvl.levelparametername
    levelunitname := lvl.unit }

variable (isotimeString : PTime → Bytes) (decimal : F → Bytes)

/-- `createQuery`, for a query and the parameter definitions of the result. -/
def createQuery (wciProtocol : ℤ) (request : ReadRequest F) (params : List (ParamDef F))
    (lvl : Level) (state : Query F × ParamDefList F) : Query F × ParamDefList F :=
  match request.referenceTimes.providerReftimeDisabledAndDataversion state.1.provider with
  | none => state
  | some (reftime, disabled, dataversion) =>
      if disabled then state
      else
        let dataversion :=
          if request.dataVersion ≠ INT_MAX then request.dataVersion else dataversion
        let q := readQuery isotimeString decimal wciProtocol request state.1.provider reftime
          dataversion
        let added := params.foldl
          (fun state it =>
            (state.1.addParam (withLevel lvl it),
              (state.2.addParamDef (withLevel lvl it) state.1.provider).2))
          state
        ({ added.1 with querys := added.1.querys ++ [q] }, added.2)

/-- The loop of `getWdbReadQuerys` over the levels of a provider. -/
def createQuerys (wciProtocol : ℤ) (request : ReadRequest F) (level : Level)
    (levels : LevelParams F) (state : Query F × ParamDefList F) : Query F × ParamDefList F :=
  levels.entries.foldl
    (fun state itLevel =>
      if itLevel.2.1.isDefined then
        createQuery isotimeString decimal wciProtocol request itLevel.2.2 itLevel.2.1 state
      else if level.isDefined then
        createQuery isotimeString decimal wciProtocol request itLevel.2.2 level state
      else state)
    state

/-- The levels of a provider, or those that belong to no provider. -/
def findLevels (params : SortedMap Bytes (LevelParams F)) (provider : Bytes) :
    Option (LevelParams F) :=
  match params.find? provider with
  | some levels => some levels
  | none => params.find? []

/-- `getWdbReadQuerys` for the providers of a list. -/
def getWdbReadQuerysOf (wciProtocol : ℤ) (request : ReadRequest F) (id : Bytes) (level : Level)
    (providerList : List Bytes) (params : SortedMap Bytes (LevelParams F))
    (res : QuerysAndParamDefs F) : QuerysAndParamDefs F :=
  providerList.foldl
    (fun res provider =>
      match findLevels params provider with
      | none => res
      | some levels =>
          let made := createQuerys isotimeString decimal wciProtocol request level levels
            (Query.new id provider, res.params)
          { res with params := made.2 }.addQuery made.1)
    res

/-- The providers for the id `all`: those of the configuration, and those of the list. -/
def allProviders (params : SortedMap Bytes (LevelParams F)) (providerList : List Bytes) :
    List Bytes :=
  providerList.foldl
    (fun providers provider => if provider ∈ providers then providers else providers ++ [provider])
    (params.keys.filter fun provider => !provider.isEmpty)

/-- `QueryMaker::getWdbReadQuerys`. -/
def getWdbReadQuerys (maker : QueryMaker F) (id : Bytes) (providerList : ProviderList)
    (level : Level) (request : ReadRequest F) : QuerysAndParamDefs F :=
  let providers := providerList.providerWithoutPlacename
  let res : QuerysAndParamDefs F :=
    { QuerysAndParamDefs.new maker.wciProtocol with
      providerPriority := providerList
      referenceTimes := request.referenceTimes }
  let res :=
    match maker.params.find? (Bytes.str "all") with
    | none => res
    | some params =>
        getWdbReadQuerysOf isotimeString decimal maker.wciProtocol request (Bytes.str "all")
          level (allProviders params providers) params res
  match maker.params.find? id with
  | none => res
  | some params =>
      getWdbReadQuerysOf isotimeString decimal maker.wciProtocol request id level providers params
        res

end QueryMaker

end Wdb2ts
