import Wdb2ts.Config

/-!
# Parameter definitions in the configuration

The handlers of the `paramdefs` elements.  They collect the attributes of a `paramdef` element and
of the elements in it, and add the definition when the element ends.
-/

namespace Wdb2ts

namespace config

variable {F : Type}

/-- `config::ParamDef`. -/
structure ParamDef (F : Type) where
  id : miutil.Value
  valueparameterName : miutil.Value
  valueparameterUnit : miutil.Value
  levelName : miutil.Value
  levelUnit : miutil.Value
  levelFrom : ℤ
  levelTo : ℤ
  valueScale : F
  valueOffset : F
  dataVersion : ℤ
  compare : Compare
  compareValue : ℤ

/-- `ParamDef()`, which is also what `clear` sets. -/
def ParamDef.create [Floats F] : ParamDef F :=
  { id := none
    valueparameterName := none
    valueparameterUnit := none
    levelName := none
    levelUnit := none
    levelFrom := INT_MIN
    levelTo := INT_MIN
    valueScale := lit 1
    valueOffset := lit 0
    dataVersion := -1
    compare := .undef
    compareValue := INT_MAX }

/-- `valid( true )`. -/
def ParamDef.valid (paramDef : ParamDef F) : Bool :=
  !(paramDef.id.getD []).isEmpty && !(paramDef.valueparameterName.getD []).isEmpty

/-- The members of the parser for parameter definitions. -/
structure ParamDefState (F : Type) where
  currentParamDefConfig : ParamDefConfig F
  currentParamDef : ParamDef F
  currentParamDefsId : Bytes
  currentParamDefOverrid : Bool
  currentParamDefProvider : List Bytes

namespace ParamDefState

/-- The members of a new parser.  `currentParamDefOverrid` is not used before it is set. -/
def create [Floats F] : ParamDefState F := ⟨∅, ParamDef.create, [], false, []⟩

/-- The id of `doParamDefs` when the attribute is missing. -/
def undefinedId : Bytes := Bytes.str "__UNDEFINED__"

/-- The part of an `idref` for one file: the messages, and the merged definitions. -/
def readIdRef (surroundings : Surroundings F) (paramDefsId : Bytes)
    (read : Bytes × ParamDefConfig F) (it : Bytes) : Bytes × ParamDefConfig F :=
  let at_ := findByte it (Bytes.chr '@')
  let id := at_.elim [] fun i => miutil.trimstr (it.take i) miutil.blanks
  let file := at_.elim (miutil.trimstr it miutil.blanks) fun i =>
    miutil.trimstr (it.drop (i + 1)) miutil.blanks
  let conf := if file.isEmpty then (none, []) else surroundings.readFile file
  match conf.1 with
  | none => (read.1 ++ conf.2, read.2)
  | some config =>
      let lists :=
        if at_.isNone then config.paramdef.entries
        else [(id, ParamDefConfig.paramDefs config.paramdef id)]
      (read.1 ++ conf.2,
        lists.foldl
          (fun merged entry =>
            let key := if paramDefsId = undefinedId then entry.1 else paramDefsId
            merged.upsert key fun own => (own.getD ∅).mergeWith entry.2 true)
          read.2)

/-- `ConfigParser::doParamDefs`: the messages, and the members. -/
def doParamDefs (surroundings : Surroundings F) (attributes : AttributeMap)
    (state : ParamDefState F) : Bytes × ParamDefState F :=
  let currentParamDefsId := (getAttr attributes (Bytes.str "id") undefinedId).2
  let idref := (getAttr attributes (Bytes.str "idref") []).2
  let read :=
    if idref.isEmpty then ([], ∅)
    else
      (miutil.splitstr idref (Bytes.chr ';') (Bytes.chr '"')).foldl
        (readIdRef surroundings currentParamDefsId)
        ([], (∅ : ParamDefConfig F).insert currentParamDefsId ∅)
  (read.1,
    { state with
      currentParamDefConfig := read.2
      currentParamDefOverrid := !idref.isEmpty
      currentParamDefsId := if currentParamDefsId = undefinedId then [] else currentParamDefsId })

/-- The loop of `doParamDef` over the providers: the providers, or the error that ends it. -/
def readProviders (config : Config F) (paramDefsId : Bytes) (overrid : Bool) (id : Bytes) :
    List Bytes → (providers : List Bytes) → Except Bytes (List Bytes)
  | [], providers => .ok providers
  | it :: rest, providers =>
      let it := miutil.trimstr it miutil.blanks
      if it.isEmpty then readProviders config paramDefsId overrid id rest providers
      else if ParamDefConfig.hasParam config.paramdef id it paramDefsId && !overrid then
        .error (Bytes.str "doParamDef id: '" ++ id ++ Bytes.str "' provider: '" ++ it ++
          Bytes.str "' allready defined.")
      else readProviders config paramDefsId overrid id rest (providers ++ [it])

/-- `ConfigParser::doParamDef`: the messages, and the members. -/
def doParamDef [Floats F] (config : Config F) (attributes : AttributeMap)
    (state : ParamDefState F) : Bytes × ParamDefState F :=
  let state := { state with currentParamDef := ParamDef.create, currentParamDefProvider := [] }
  let id := (getAttr attributes (Bytes.str "id") []).2
  if id.isEmpty then (error (Bytes.str "Mandatory 'paramdef' attribute 'id' missing."), state)
  else
    let provider := (getAttr attributes (Bytes.str "dataprovider") []).2
    match readProviders config state.currentParamDefsId state.currentParamDefOverrid id
      (miutil.splitstr provider (Bytes.chr ';') (Bytes.chr '"')) [] with
    | .error msg => (error msg, state)
    | .ok providers =>
        ([], { state with
          currentParamDefProvider := providers
          currentParamDef := { state.currentParamDef with id := some id } })

/-- An error about the current parameter.  Its id is asked for, which throws when it is
undefined. -/
def paramDefError (state : ParamDefState F) (msg : String) : Except Failure Bytes :=
  match state.currentParamDef.id with
  | none => .error .logicError
  | some id => .ok (error (Bytes.str "ParamDef id: '" ++ id ++ Bytes.str msg))

/-- The text of a `boost::bad_lexical_cast`. -/
def badLexicalCast : Bytes :=
  Bytes.str "bad lexical cast: source type value could not be interpreted as target"

/-- An error about an attribute of the current parameter that cannot be cast. -/
def castError (state : ParamDefState F) (before : String) (value : Bytes) (between : String) :
    Except Failure Bytes :=
  match state.currentParamDef.id with
  | none => .error .logicError
  | some id =>
      .ok (error (Bytes.str "ParamDef id: '" ++ id ++ Bytes.str before ++ value ++
        Bytes.str between ++ badLexicalCast ++ Bytes.str "."))

/-- The error of `castError` when a cast has no result. -/
def castMessage {α : Type} (state : ParamDefState F) (result : Option α) (before : String)
    (value : Bytes) (between : String) : Except Failure Bytes :=
  if result.isSome then .ok [] else state.castError before value between

/-- `ConfigParser::doValueParameter`: the messages, and the members. -/
def doValueParameter (attributes : AttributeMap) (state : ParamDefState F) :
    Except Failure (Bytes × ParamDefState F) := do
  let name := getAttr attributes (Bytes.str "name") []
  let unit := getAttr attributes (Bytes.str "unit") []
  if name.2.isEmpty then
    return (← state.paramDefError "'. Mandatory 'valueparameter' attribute 'name' missing.", state)
  else if !unit.1 then
    return (← state.paramDefError "'. Mandatory 'valueparameter' attribute 'unit' missing.", state)
  else
    return ([], { state with
      currentParamDef :=
        { state.currentParamDef with
          valueparameterName := some name.2
          valueparameterUnit := some unit.2 } })

/-- `ConfigParser::doLevelParameter`: the messages, and the members. -/
def doLevelParameter (attributes : AttributeMap) (state : ParamDefState F) :
    Except Failure (Bytes × ParamDefState F) := do
  let name := getAttr attributes (Bytes.str "name") []
  let unit := getAttr attributes (Bytes.str "unit") []
  let from_ := getAttr attributes (Bytes.str "from") []
  let to_ := getAttr attributes (Bytes.str "to") []
  if name.2.isEmpty then
    return (← state.paramDefError "'. Mandatory 'levelparameter' attribute 'name' missing.", state)
  else if !unit.1 then
    return (← state.paramDefError "'. 'levelparameter' attribute 'unit' must be defined.", state)
  else if !from_.1 then
    return (← state.paramDefError "'. 'levelparameter' attribute 'from' must be defined.", state)
  else if !to_.1 then
    return (← state.paramDefError "'. 'levelparameter' attribute 'to' must be defined.", state)
  else
    let named := { state.currentParamDef with levelName := some name.2, levelUnit := some unit.2 }
    match lexicalCastInt to_.2 with
    | none =>
        let state := { state with currentParamDef := named }
        return (← state.castError
          "' : levelparameter, invalid attribute value for 'to' value '" to_.2 "': Reason: ", state)
    | some levelTo =>
        match lexicalCastInt from_.2 with
        | none =>
            let state := { state with currentParamDef := { named with levelTo := levelTo } }
            return (← state.castError
              "' : levelparameter, invalid attribute value for 'from' value '" from_.2
              "': Reason: ", state)
        | some levelFrom =>
            return ([], { state with
              currentParamDef := { named with levelTo := levelTo, levelFrom := levelFrom } })

/-- The attributes `scale` and `offset` of `doValue`. -/
def doScaleAndOffset (surroundings : Surroundings F) (attributes : AttributeMap)
    (state : ParamDefState F) : Except Failure (Bytes × ParamDefState F) := do
  let scale := (getAttr attributes (Bytes.str "scale") (Bytes.str "1.0")).2
  let offset := (getAttr attributes (Bytes.str "offset") (Bytes.str "0.0")).2
  let scaleRead := surroundings.lexicalCastFloat scale
  let offsetRead := surroundings.lexicalCastFloat offset
  let scaleMessage ← state.castMessage scaleRead
    "' : value element invalid attribute value scale '" scale "' "
  let offsetMessage ← state.castMessage offsetRead
    "' : value element invalid attribute value offset '" offset "' "
  return (scaleMessage ++ offsetMessage,
    { state with
      currentParamDef :=
        { state.currentParamDef with
          valueScale := scaleRead.getD state.currentParamDef.valueScale
          valueOffset := offsetRead.getD state.currentParamDef.valueOffset } })

/-- The operator of the attribute `null`. -/
def readCompare (cmp : Bytes) : Option Compare :=
  if cmp = Bytes.str "lt" then some .lesser
  else if cmp = Bytes.str "gt" then some .greater
  else if cmp = Bytes.str "eq" ∨ cmp.isEmpty then some .equal
  else none

/-- `ConfigParser::doValue`: the messages, and the members. -/
def doValue (surroundings : Surroundings F) (attributes : AttributeMap) (state : ParamDefState F) :
    Except Failure (Bytes × ParamDefState F) := do
  let (messages, state) ← doScaleAndOffset surroundings attributes state
  let null := miutil.trimstr (getAttr attributes (Bytes.str "null") []).2 miutil.blanks
  if null.isEmpty then return (messages, state)
  else
    let i := findByte null (Bytes.chr ':')
    let cmp := miutil.trimstr (i.elim [] fun i => null.take i) miutil.blanks
    let val := miutil.trimstr (i.elim null fun i => null.drop (i + 1)) miutil.blanks
    match readCompare cmp with
    | none =>
        match state.currentParamDef.id with
        | none => throw .logicError
        | some id =>
            return (messages ++ error (Bytes.str "ParamDef id: '" ++ id ++
              Bytes.str "' : value attribut 'null' operator '" ++ cmp ++ Bytes.str "' invalid!"),
              state)
    | some compare =>
        match lexicalCastInt val, state.currentParamDef.id with
        | some compareValue, _ =>
            return (messages, { state with
              currentParamDef :=
                { state.currentParamDef with compare := compare, compareValue := compareValue } })
        | none, none => throw .logicError
        | none, some id =>
            return (messages ++ error (Bytes.str "ParamDef id: '" ++ id ++
              Bytes.str "' : value attribut 'null' value '" ++ val ++
              Bytes.str "' not an integer!"),
              { state with
                currentParamDef := { state.currentParamDef with compare := .undef } })

/-- `ConfigParser::doDataVersion`: the messages, and the members. -/
def doDataVersion (attributes : AttributeMap) (state : ParamDefState F) :
    Except Failure (Bytes × ParamDefState F) := do
  let value := (getAttr attributes (Bytes.str "version") (Bytes.str "-1")).2
  match lexicalCastInt value with
  | none =>
      return (← state.castError "' : dataversion element, invalid attribute version '" value "' ",
        state)
  | some dataVersion =>
      return ([], { state with
        currentParamDef := { state.currentParamDef with dataVersion := dataVersion } })

/-- `ConfigParser::addParamDef`: the messages, and the members. -/
def addParamDef [Floats F] (state : ParamDefState F) : Bytes × ParamDefState F :=
  let paramDef := state.currentParamDef
  let alias_ := paramDef.id.getD []
  let cleared := { state with currentParamDef := ParamDef.create, currentParamDefProvider := [] }
  if alias_.isEmpty then (error (Bytes.str "Paramdef without an valid 'id' attribute."), cleared)
  else if !paramDef.valid then
    (error (Bytes.str "Some invalid values for paramdef id '" ++ alias_ ++ Bytes.str "'."), cleared)
  else
    let pd : Wdb2ts.ParamDef F :=
      { alias_ := alias_
        valueparametername := paramDef.valueparameterName.getD []
        valueparameterunit := paramDef.valueparameterUnit.getD []
        levelparametername := paramDef.levelName.getD []
        levelfrom := paramDef.levelFrom
        levelto := paramDef.levelTo
        levelunitname := paramDef.levelUnit.getD []
        scale := paramDef.valueScale
        offset := paramDef.valueOffset
        dataversion := paramDef.dataVersion
        compare := paramDef.compare
        compareValue := paramDef.compareValue
        interpolation := Bytes.str "nearest" }
    let added := ParamDefConfig.addParamDef state.currentParamDefConfig state.currentParamDefsId pd
      state.currentParamDefProvider state.currentParamDefOverrid
    (added.1.elim [] error, { cleared with currentParamDefConfig := added.2 })

end ParamDefState

end config

end Wdb2ts
