import Wdb2ts.ParamGroups

/-!
# The parameters of the queries

The parameter definitions of a result are those of the providers that are asked for.  They are
added one after the other, each with the level of its group or with the level of the request,
and the first definition of an alias stays.
-/

namespace Wdb2ts

variable {F : Type}

/-- A fold is observed as a fold over the pieces that its steps are made of. -/
theorem observe_foldl {σ ω α β : Type} (observe : σ → ω) {step : σ → α → σ} {pick : α → List β}
    {add : ω → β → ω}
    (steps : ∀ state entry, observe (step state entry) = (pick entry).foldl add (observe state))
    (entries : List α) (state : σ) :
    observe (entries.foldl step state) = (entries.flatMap pick).foldl add (observe state) := by
  induction entries generalizing state with
  | nil => rfl
  | cons entry rest ih =>
      rw [List.foldl_cons, ih, List.flatMap_cons, List.foldl_append, steps]

/-! ## Adding parameter definitions -/

namespace ParamDefList

/-- Add parameter definitions, each to its provider. -/
def addParamDefs (list : ParamDefList F) (calls : List (Bytes × ParamDef F)) : ParamDefList F :=
  calls.foldl (fun list call => (list.addParamDef call.2 call.1).2) list

theorem addParamDefs_append (list : ParamDefList F) (calls later : List (Bytes × ParamDef F)) :
    list.addParamDefs (calls ++ later) = (list.addParamDefs calls).addParamDefs later :=
  List.foldl_append

theorem exists_call {calls : List (Bytes × ParamDef F)} {provider : Bytes} {param : ParamDef F}
    (member : param ∈ (addParamDefs ∅ calls).paramsOf provider) :
    ∃ call ∈ calls, providerKey call.1 = providerKey provider ∧ call.2 = param := by
  induction calls using List.reverseRecOn with
  | nil => cases member
  | append_singleton earlier call ih =>
      have before (inEarlier : param ∈ (addParamDefs ∅ earlier).paramsOf provider) :
          ∃ call' ∈ earlier ++ [call], providerKey call'.1 = providerKey provider ∧
            call'.2 = param := by
        obtain ⟨found, inCalls, facts⟩ := ih inEarlier
        exact ⟨found, List.mem_append_left _ inCalls, facts⟩
      simp only [addParamDefs, List.foldl_append, List.foldl_cons, List.foldl_nil,
        paramsOf_addParamDef] at member
      split at member
      · rename_i isNew
        rcases List.mem_append.mp member with inEarlier | isLast
        · exact before inEarlier
        · rw [List.mem_singleton] at isLast
          exact ⟨call, List.mem_append_right _ List.mem_cons_self, isNew.1.symm, isLast.symm⟩
      · exact before member

/-- The alias of every definition that is added is defined. -/
theorem exists_param {calls : List (Bytes × ParamDef F)} {call : Bytes × ParamDef F}
    (member : call ∈ calls) {provider : Bytes}
    (same : providerKey call.1 = providerKey provider) :
    ∃ param ∈ (addParamDefs ∅ calls).paramsOf provider, param.alias_ = call.2.alias_ := by
  induction calls using List.reverseRecOn with
  | nil => cases member
  | append_singleton earlier last ih =>
      simp only [addParamDefs, List.foldl_append, List.foldl_cons, List.foldl_nil,
        paramsOf_addParamDef]
      rcases List.mem_append.mp member with inEarlier | isLast
      · obtain ⟨param, inParams, sameAlias⟩ := ih inEarlier
        refine ⟨param, ?_, sameAlias⟩
        split
        · exact List.mem_append_left _ inParams
        · exact inParams
      · rw [List.mem_singleton] at isLast
        subst isLast
        cases defined : hasParam (addParamDefs ∅ earlier) call.2.alias_ call.1 with
        | false =>
            rw [addParamDefs] at defined
            rw [if_pos ⟨same.symm, defined⟩]
            exact ⟨call.2, List.mem_append_right _ List.mem_cons_self, rfl⟩
        | true =>
            obtain ⟨param, inParams, sameAlias⟩ := hasParam_iff.mp defined
            rw [paramsOf_congr _ same] at inParams
            refine ⟨param, ?_, sameAlias⟩
            split
            · exact List.mem_append_left _ inParams
            · exact inParams

end ParamDefList

namespace QueryMaker

/-! ## The groups of a configuration -/

/-- The parameters of a configuration for an id and a provider. -/
def configured (params : ParamDefConfig F) (id provider : Bytes) : List (ParamDef F) :=
  params.entries.flatMap fun itId => itId.2.defs.entries.flatMap fun it =>
    if itId.1 = id ∧ providerOf it.1 = provider then it.2 else []

/-- The parameters for a provider are its own, or those that belong to no provider when it has
none. -/
def paramsFor (params : ParamDefConfig F) (id provider : Bytes) : List (ParamDef F) :=
  if (configured params id provider).isEmpty then configured params id []
  else configured params id provider

/-- The groups of an id and a provider. -/
def lookup (made : SortedMap Bytes (SortedMap Bytes (LevelParams F))) (id provider : Bytes) :
    Option (LevelParams F) :=
  (made.find? id).bind fun providers => providers.find? provider

/-- Add a parameter to groups that may be absent. -/
def pushTo (levels : Option (LevelParams F)) (param : ParamDef F) : Option (LevelParams F) :=
  some ((levels.getD ∅).push param)

theorem foldl_pushTo (params : List (ParamDef F)) :
    params.foldl pushTo none =
      if params.isEmpty then none else some (LevelParams.group params) := by
  have present (levels : LevelParams F) (params : List (ParamDef F)) :
      params.foldl pushTo (some levels) = some (params.foldl LevelParams.push levels) := by
    induction params generalizing levels with
    | nil => rfl
    | cons param rest ih => exact ih (levels.push param)
  cases params with
  | nil => rfl
  | cons param rest => exact present _ rest

theorem lookup_push (made : SortedMap Bytes (SortedMap Bytes (LevelParams F)))
    (id provider otherId other : Bytes) (param : ParamDef F) :
    lookup (push made id provider param) otherId other =
      if id = otherId ∧ provider = other then pushTo (lookup made otherId other) param
      else lookup made otherId other := by
  simp only [lookup, push, SortedMap.find?_upsert]
  by_cases sameId : otherId = id
  · subst sameId
    by_cases sameProvider : other = provider
    · subst sameProvider
      cases made.find? otherId <;> simp [pushTo]
    · cases made.find? otherId <;>
        simp [SortedMap.find?_upsert, sameProvider, Ne.symm sameProvider]
  · simp [sameId, Ne.symm sameId]

theorem lookup_foldl_push (id provider otherId other : Bytes) (params : List (ParamDef F))
    (made : SortedMap Bytes (SortedMap Bytes (LevelParams F))) :
    lookup (params.foldl (fun made param => push made id provider param) made) otherId other =
      (if id = otherId ∧ provider = other then params else []).foldl pushTo
        (lookup made otherId other) := by
  induction params generalizing made with
  | nil => simp
  | cons param rest ih =>
      rw [List.foldl_cons, ih, lookup_push]
      split
      · rfl
      · rfl

/-- The groups that `create` makes. -/
theorem lookup_create (params : ParamDefConfig F) (wciProtocol : ℤ) (id provider : Bytes) :
    lookup (create params wciProtocol).params id provider =
      if (configured params id provider).isEmpty then none
      else some (LevelParams.group (configured params id provider)) := by
  rw [← foldl_pushTo]
  refine observe_foldl (fun made => lookup made id provider) (fun made itId => ?_)
    params.entries ∅
  refine observe_foldl (fun made => lookup made id provider) (fun made it => ?_)
    itId.2.defs.entries made
  exact lookup_foldl_push itId.1 (providerOf it.1) id provider it.2 made

/-- The groups that are used for a provider. -/
theorem findLevels_create {params : ParamDefConfig F} {wciProtocol : ℤ} {id : Bytes}
    {providers : SortedMap Bytes (LevelParams F)}
    (isId : (create params wciProtocol).params.find? id = some providers) (provider : Bytes) :
    findLevels providers provider =
      if (paramsFor params id provider).isEmpty then none
      else some (LevelParams.group (paramsFor params id provider)) := by
  have found (provider : Bytes) : providers.find? provider =
      if (configured params id provider).isEmpty then none
      else some (LevelParams.group (configured params id provider)) := by
    rw [← lookup_create params wciProtocol, lookup, isId]
    rfl
  cases isEmpty : (configured params id provider).isEmpty with
  | true => simp only [findLevels, found, paramsFor, isEmpty, if_true]
  | false => simp only [findLevels, found, paramsFor, isEmpty, Bool.false_eq_true, if_false]

/-! ## The definitions that a request adds -/

section Request

variable (isotimeString : PTime → Bytes) (decimal : F → Bytes)

/-- A provider that has a reference time and is not disabled. -/
def isEnabled (referenceTimes : ProviderRefTimeList) (provider : Bytes) : Bool :=
  match referenceTimes.providerReftimeDisabledAndDataversion provider with
  | none => false
  | some times => !times.2.1

theorem createQuery_frame (wciProtocol : ℤ) (request : ReadRequest F)
    (params : List (ParamDef F)) (lvl : Level) (state : Query F × ParamDefList F) :
    (createQuery isotimeString decimal wciProtocol request params lvl state).1.provider =
        state.1.provider ∧
      (createQuery isotimeString decimal wciProtocol request params lvl state).2 =
        if isEnabled request.referenceTimes state.1.provider then
          state.2.addParamDefs
            ((params.map (withLevel lvl)).map fun param => (state.1.provider, param))
        else state.2 := by
  have added (params : List (ParamDef F)) (state : Query F × ParamDefList F) :
      let added := params.foldl
        (fun state it =>
          (state.1.addParam (withLevel lvl it),
            (state.2.addParamDef (withLevel lvl it) state.1.provider).2))
        state
      added.1.provider = state.1.provider ∧
        added.2 = state.2.addParamDefs
          ((params.map (withLevel lvl)).map fun param => (state.1.provider, param)) := by
    induction params generalizing state with
    | nil => exact ⟨rfl, rfl⟩
    | cons param rest ih =>
        have sameProvider : (state.1.addParam (withLevel lvl param)).provider =
            state.1.provider := by
          simp only [Query.addParam]
          split <;> rfl
        obtain ⟨provider, list⟩ := ih (state.1.addParam (withLevel lvl param),
          (state.2.addParamDef (withLevel lvl param) state.1.provider).2)
        simp only [sameProvider] at provider list
        exact ⟨provider, list⟩
  rcases isTimes :
      request.referenceTimes.providerReftimeDisabledAndDataversion state.1.provider with
    _ | ⟨reftime, disabled, dataversion⟩
  · simp only [createQuery, isEnabled, isTimes]
    exact ⟨trivial, rfl⟩
  · cases disabled with
    | true =>
        simp only [createQuery, isEnabled, isTimes]
        exact ⟨rfl, rfl⟩
    | false =>
        simp only [createQuery, isEnabled, isTimes]
        exact added params state

/-- The definitions that a provider adds. -/
theorem createQuerys_frame (wciProtocol : ℤ) (request : ReadRequest F) (level : Level)
    (levels : LevelParams F) (state : Query F × ParamDefList F) :
    (createQuerys isotimeString decimal wciProtocol request level levels state).2 =
      if isEnabled request.referenceTimes state.1.provider then
        state.2.addParamDefs ((madeParams levels level).map fun param =>
          (state.1.provider, param))
      else state.2 := by
  have round (itLevel : LevelKey × Level × List (ParamDef F))
      (state : Query F × ParamDefList F) :
      let next :=
        if itLevel.2.1.isDefined then
          createQuery isotimeString decimal wciProtocol request itLevel.2.2 itLevel.2.1 state
        else if level.isDefined then
          createQuery isotimeString decimal wciProtocol request itLevel.2.2 level state
        else state
      next.1.provider = state.1.provider ∧
        next.2 =
          if isEnabled request.referenceTimes state.1.provider then
            state.2.addParamDefs
              ((if itLevel.2.1.isDefined then itLevel.2.2.map (withLevel itLevel.2.1)
                else if level.isDefined then itLevel.2.2.map (withLevel level)
                else []).map fun param => (state.1.provider, param))
          else state.2 := by
    split
    · exact createQuery_frame isotimeString decimal wciProtocol request itLevel.2.2 itLevel.2.1
        state
    · split
      · exact createQuery_frame isotimeString decimal wciProtocol request itLevel.2.2 level state
      · exact ⟨rfl, (ite_self _).symm⟩
  simp only [createQuerys, madeParams]
  generalize levels.entries = entries
  induction entries generalizing state with
  | nil => exact (ite_self _).symm
  | cons itLevel rest ih =>
      obtain ⟨sameProvider, added⟩ := round itLevel state
      rw [List.foldl_cons, ih, sameProvider, added, List.flatMap_cons, List.map_append,
        ParamDefList.addParamDefs_append]
      split
      · rfl
      · rfl

/-- The calls of `addParamDef` for one id and its providers. -/
def callsOf (params : ParamDefConfig F) (level : Level) (referenceTimes : ProviderRefTimeList)
    (visit : Bytes × Bytes) : List (Bytes × ParamDef F) :=
  if isEnabled referenceTimes visit.2 then
    (madeParams (LevelParams.group (paramsFor params visit.1 visit.2)) level).map fun param =>
      (visit.2, param)
  else []

theorem getWdbReadQuerysOf_params {params : ParamDefConfig F} {wciProtocol : ℤ} {id : Bytes}
    {providers : SortedMap Bytes (LevelParams F)}
    (isId : (create params wciProtocol).params.find? id = some providers)
    (request : ReadRequest F) (level : Level) (providerList : List Bytes)
    (res : QuerysAndParamDefs F) :
    (getWdbReadQuerysOf isotimeString decimal wciProtocol request id level providerList providers
        res).params =
      res.params.addParamDefs ((providerList.map fun provider => (id, provider)).flatMap
        (callsOf params level request.referenceTimes)) := by
  rw [List.flatMap_map]
  refine observe_foldl QuerysAndParamDefs.params (fun res provider => ?_) providerList res
  have sameParams (set : QuerysAndParamDefs F) (q : Query F) :
      (set.addQuery q).params = set.params := by
    simp only [QuerysAndParamDefs.addQuery]
    split <;> rfl
  have found := findLevels_create isId provider
  simp only [callsOf]
  cases isEmpty : (paramsFor params id provider).isEmpty with
  | true =>
      rw [isEmpty, if_pos rfl] at found
      rw [List.isEmpty_iff] at isEmpty
      simp only [found, isEmpty]
      cases isEnabled request.referenceTimes provider <;> rfl
  | false =>
      rw [isEmpty, if_neg Bool.false_ne_true] at found
      have made : (createQuerys isotimeString decimal wciProtocol request level
          (LevelParams.group (paramsFor params id provider))
          (Query.new id provider, res.params)).2 =
          if isEnabled request.referenceTimes provider then
            res.params.addParamDefs
              ((madeParams (LevelParams.group (paramsFor params id provider)) level).map
                fun param => (provider, param))
          else res.params :=
        createQuerys_frame isotimeString decimal wciProtocol request level _ _
      simp only [found, sameParams]
      refine made.trans ?_
      split
      · rfl
      · rfl

/-- The ids and providers that a request asks for, in order. -/
def visits (maker : QueryMaker F) (id : Bytes) (providerList : ProviderList) :
    List (Bytes × Bytes) :=
  let providers := providerList.providerWithoutPlacename
  (match maker.params.find? (Bytes.str "all") with
    | none => []
    | some params =>
        (allProviders params providers).map fun provider => (Bytes.str "all", provider)) ++
    match maker.params.find? id with
    | none => []
    | some _ => providers.map fun provider => (id, provider)

/-- The parameter definitions of a result. -/
theorem getWdbReadQuerys_params (params : ParamDefConfig F) (wciProtocol : ℤ) (id : Bytes)
    (providerList : ProviderList) (level : Level) (request : ReadRequest F) :
    (getWdbReadQuerys isotimeString decimal (create params wciProtocol) id providerList level
        request).params =
      ParamDefList.addParamDefs ∅
        ((visits (create params wciProtocol) id providerList).flatMap
          (callsOf params level request.referenceTimes)) := by
  have protocol : (create params wciProtocol).wciProtocol = wciProtocol := rfl
  cases isAll : (create params wciProtocol).params.find? (Bytes.str "all") with
  | none =>
      cases isId : (create params wciProtocol).params.find? id with
      | none =>
          simp only [getWdbReadQuerys, visits, isAll, isId]
          rfl
      | some providers =>
          simp only [getWdbReadQuerys, visits, isAll, isId, protocol,
            getWdbReadQuerysOf_params isotimeString decimal isId, List.nil_append]
          rfl
  | some all =>
      cases isId : (create params wciProtocol).params.find? id with
      | none =>
          simp only [getWdbReadQuerys, visits, isAll, isId, protocol,
            getWdbReadQuerysOf_params isotimeString decimal isAll, List.append_nil]
          rfl
      | some providers =>
          simp only [getWdbReadQuerys, visits, isAll, isId, protocol,
            getWdbReadQuerysOf_params isotimeString decimal isId,
            getWdbReadQuerysOf_params isotimeString decimal isAll, List.flatMap_append,
            ParamDefList.addParamDefs_append]
          rfl

/-! ## What is lost -/

/-- The ids and providers that add parameters to a result. -/
def served (params : ParamDefConfig F) (wciProtocol : ℤ) (id : Bytes)
    (providerList : ProviderList) (referenceTimes : ProviderRefTimeList) :
    List (Bytes × Bytes) :=
  (visits (create params wciProtocol) id providerList).filter fun visit =>
    isEnabled referenceTimes visit.2

/-- The parameter lists that belong to one provider of a result have pairwise distinct
aliases. -/
structure DistinctAliases (params : ParamDefConfig F) (visits : List (Bytes × Bytes)) : Prop where
  inList : ∀ visit ∈ visits,
    ((paramsFor params visit.1 visit.2).map ParamDef.alias_).Nodup
  ofLists : ∀ visit ∈ visits, ∀ other ∈ visits, visit ≠ other →
    ParamDefList.providerKey visit.2 = ParamDefList.providerKey other.2 →
    ∀ param ∈ paramsFor params visit.1 visit.2, ∀ otherParam ∈ paramsFor params other.1 other.2,
      param.alias_ ≠ otherParam.alias_

/-- A parameter is kept: with its own level, or with the requested one when it has none. -/
def Kept (level : Level) (defined : List (ParamDef F)) (param : ParamDef F) : Prop :=
  if param.hasLevelparameters then param ∈ defined
  else if level.isDefined then withLevel level param ∈ defined
  else ∀ other ∈ defined, other.alias_ ≠ param.alias_

/-- Parameters whose levels have the same name and bounds have the same unit. -/
def SameUnits (params : List (ParamDef F)) : Prop :=
  ∀ param ∈ params, ∀ other ∈ params,
    param.hasLevelparameters = true → other.hasLevelparameters = true →
    param.levelparametername = other.levelparametername → param.levelfrom = other.levelfrom →
    param.levelto = other.levelto → param.levelunitname = other.levelunitname

theorem ofParam_of_has {param : ParamDef F} (has : param.hasLevelparameters = true) :
    Level.ofParam param =
      ⟨param.levelfrom, param.levelto, param.levelparametername, param.levelunitname, .udef⟩ :=
  if_pos has

/-- A group has parameters with levels, or parameters without. -/
theorem has_of_key_eq {param other : ParamDef F}
    (same : (Level.ofParam param).key = (Level.ofParam other).key) :
    param.hasLevelparameters = other.hasLevelparameters := by
  rw [← isDefined_ofParam param, ← isDefined_ofParam other, isDefined_of_key_eq same]

theorem key_eq_iff_of_has {param other : ParamDef F} (has : param.hasLevelparameters = true)
    (otherHas : other.hasLevelparameters = true) :
    (Level.ofParam param).key = (Level.ofParam other).key ↔
      param.levelparametername = other.levelparametername ∧
        param.levelfrom = other.levelfrom ∧ param.levelto = other.levelto := by
  rw [Level.key_eq_iff, ofParam_of_has has, ofParam_of_has otherHas]
  simp

/-- The level of the group is the own level of a parameter exactly when the units agree. -/
theorem withLevel_groupLevel_eq_iff {params : List (ParamDef F)} {param : ParamDef F}
    (member : param ∈ params) (has : param.hasLevelparameters = true) :
    withLevel (groupLevel params param) param = param ↔
      (groupLevel params param).unit = param.levelunitname := by
  obtain ⟨first, _, same, isGroup⟩ := groupLevel_cases member
  have firstHas : first.hasLevelparameters = true := (has_of_key_eq same).trans has
  obtain ⟨sameName, sameFrom, sameTo⟩ := (key_eq_iff_of_has firstHas has).mp same
  rw [isGroup, ofParam_of_has firstHas]
  constructor
  · intro own
    have units := congrArg ParamDef.levelunitname own
    exact units
  · intro sameUnit
    simp only at sameUnit
    simp only [withLevel, sameName, sameFrom, sameTo, sameUnit]

/-- The units agree with the levels of the groups exactly when they agree with each other. -/
theorem sameUnits_iff {params : List (ParamDef F)} :
    SameUnits params ↔ ∀ param ∈ params, param.hasLevelparameters = true →
      (groupLevel params param).unit = param.levelunitname := by
  constructor
  · intro sameUnits param member has
    obtain ⟨first, firstMember, same, isGroup⟩ := groupLevel_cases member
    have firstHas : first.hasLevelparameters = true := (has_of_key_eq same).trans has
    obtain ⟨sameName, sameFrom, sameTo⟩ := (key_eq_iff_of_has firstHas has).mp same
    rw [isGroup, ofParam_of_has firstHas]
    exact sameUnits first firstMember param member firstHas has sameName sameFrom sameTo
  · intro own param member other otherMember has otherHas sameName sameFrom sameTo
    have same := (key_eq_iff_of_has has otherHas).mpr ⟨sameName, sameFrom, sameTo⟩
    rw [← own param member has, groupLevel_eq_of_key_eq member same, own other otherMember otherHas]

section Kept

variable {params : ParamDefConfig F} {level : Level} {referenceTimes : ProviderRefTimeList}
  {visits : List (Bytes × Bytes)}

/-- The calls of `addParamDef`, by the parameters they come from. -/
theorem mem_callsOf {visit : Bytes × Bytes} {call : Bytes × ParamDef F} :
    call ∈ callsOf params level referenceTimes visit ↔
      isEnabled referenceTimes visit.2 = true ∧ call.1 = visit.2 ∧
        ∃ param ∈ paramsFor params visit.1 visit.2, ∃ own,
          levelOf (paramsFor params visit.1 visit.2) level param = some own ∧
            call.2 = withLevel own param := by
  simp only [callsOf]
  split
  · rename_i enabled
    simp only [List.mem_map, mem_madeParams]
    constructor
    · rintro ⟨made, isMade, rfl⟩
      exact ⟨enabled, rfl, isMade⟩
    · rintro ⟨_, sameProvider, isMade⟩
      exact ⟨call.2, isMade, Prod.ext sameProvider.symm rfl⟩
  · rename_i notEnabled
    simp [notEnabled]

/-- A definition with the alias of a parameter is made of that parameter. -/
theorem made_of_param (distinct : DistinctAliases params visits)
    {visit : Bytes × Bytes} (isVisit : visit ∈ visits) {param : ParamDef F}
    (member : param ∈ paramsFor params visit.1 visit.2) {defined : ParamDef F}
    (isDefined : defined ∈ (ParamDefList.addParamDefs ∅ (visits.flatMap
      (callsOf params level referenceTimes))).paramsOf visit.2)
    (sameAlias : defined.alias_ = param.alias_) :
    ∃ own, levelOf (paramsFor params visit.1 visit.2) level param = some own ∧
      defined = withLevel own param := by
  obtain ⟨call, inCalls, sameKey, rfl⟩ := ParamDefList.exists_call isDefined
  obtain ⟨other, isOther, inOther⟩ := List.mem_flatMap.mp inCalls
  obtain ⟨_, sameProvider, otherParam, otherMember, own, isOwn, isMade⟩ := mem_callsOf.mp inOther
  have otherAlias : otherParam.alias_ = param.alias_ := by
    rw [← sameAlias, isMade]
    rfl
  have sameVisit : other = visit := by
    by_contra different
    rw [sameProvider] at sameKey
    exact distinct.ofLists other isOther visit isVisit different sameKey otherParam otherMember
      param member otherAlias
  subst sameVisit
  have sameParam : otherParam = param :=
    List.inj_on_of_nodup_map (distinct.inList other isVisit) otherMember member otherAlias
  subst sameParam
  exact ⟨own, isOwn, isMade⟩

/-- A parameter that gets a level is defined with that level. -/
theorem withLevel_mem (distinct : DistinctAliases params visits)
    (enabled : ∀ visit ∈ visits, isEnabled referenceTimes visit.2 = true)
    {visit : Bytes × Bytes} (isVisit : visit ∈ visits) {param : ParamDef F}
    (member : param ∈ paramsFor params visit.1 visit.2) {own : Level}
    (isOwn : levelOf (paramsFor params visit.1 visit.2) level param = some own) :
    withLevel own param ∈ (ParamDefList.addParamDefs ∅ (visits.flatMap
      (callsOf params level referenceTimes))).paramsOf visit.2 := by
  have isCall : (visit.2, withLevel own param) ∈ callsOf params level referenceTimes visit :=
    mem_callsOf.mpr ⟨enabled visit isVisit, rfl, param, member, own, isOwn, rfl⟩
  obtain ⟨defined, isDefined, sameAlias⟩ := ParamDefList.exists_param
    (List.mem_flatMap.mpr ⟨visit, isVisit, isCall⟩) rfl
  obtain ⟨other, isOther, isMade⟩ := made_of_param distinct isVisit member isDefined sameAlias
  rw [isOwn] at isOther
  cases isOther
  exact isMade ▸ isDefined

/-- A parameter is kept exactly when its group has its unit. -/
theorem kept_iff (distinct : DistinctAliases params visits)
    (enabled : ∀ visit ∈ visits, isEnabled referenceTimes visit.2 = true)
    {visit : Bytes × Bytes} (isVisit : visit ∈ visits) {param : ParamDef F}
    (member : param ∈ paramsFor params visit.1 visit.2) :
    Kept level ((ParamDefList.addParamDefs ∅ (visits.flatMap
        (callsOf params level referenceTimes))).paramsOf visit.2) param ↔
      (param.hasLevelparameters = true →
        (groupLevel (paramsFor params visit.1 visit.2) param).unit = param.levelunitname) := by
  cases has : param.hasLevelparameters with
  | true =>
      have isOwn : levelOf (paramsFor params visit.1 visit.2) level param =
          some (groupLevel (paramsFor params visit.1 visit.2) param) := if_pos has
      simp only [Kept, has, if_true, forall_const]
      rw [← withLevel_groupLevel_eq_iff member has]
      constructor
      · intro isDefined
        obtain ⟨own, isOther, isMade⟩ := made_of_param distinct isVisit member isDefined rfl
        rw [isOwn] at isOther
        cases isOther
        exact isMade.symm
      · intro isSame
        have isDefined := withLevel_mem distinct enabled isVisit member isOwn
        rwa [isSame] at isDefined
  | false =>
      simp only [Kept, has, Bool.false_eq_true, if_false, false_implies, iff_true]
      cases requested : level.isDefined with
      | true =>
          have isOwn : levelOf (paramsFor params visit.1 visit.2) level param = some level := by
            simp only [levelOf, has, requested, Bool.false_eq_true, if_false, if_true]
          exact withLevel_mem distinct enabled isVisit member isOwn
      | false =>
          intro defined isDefined sameAlias
          obtain ⟨own, isOwn, _⟩ := made_of_param distinct isVisit member isDefined sameAlias
          simp [levelOf, has, requested] at isOwn

end Kept

/-- The result has every parameter with its own level exactly when no two parameters of a
provider have levels that differ in their units only. -/
theorem getWdbReadQuerys_kept_iff (params : ParamDefConfig F) (wciProtocol : ℤ) (id : Bytes)
    (providerList : ProviderList) (level : Level) (request : ReadRequest F)
    (distinct : DistinctAliases params
      (served params wciProtocol id providerList request.referenceTimes)) :
    (∀ visit ∈ served params wciProtocol id providerList request.referenceTimes,
      ∀ param ∈ paramsFor params visit.1 visit.2,
        Kept level ((getWdbReadQuerys isotimeString decimal (create params wciProtocol) id
          providerList level request).params.paramsOf visit.2) param) ↔
      ∀ visit ∈ served params wciProtocol id providerList request.referenceTimes,
        SameUnits (paramsFor params visit.1 visit.2) := by
  have onlyServed : (visits (create params wciProtocol) id providerList).flatMap
        (callsOf params level request.referenceTimes) =
      (served params wciProtocol id providerList request.referenceTimes).flatMap
        (callsOf params level request.referenceTimes) := by
    rw [served]
    generalize visits (create params wciProtocol) id providerList = visits
    induction visits with
    | nil => rfl
    | cons visit rest ih =>
        rw [List.flatMap_cons, ih, List.filter_cons]
        split
        · rw [List.flatMap_cons]
        · rename_i notEnabled
          simp [callsOf, notEnabled]
  have enabled : ∀ visit ∈ served params wciProtocol id providerList request.referenceTimes,
      isEnabled request.referenceTimes visit.2 = true := fun visit member =>
    (List.mem_filter.mp member).2
  simp only [getWdbReadQuerys_params, onlyServed, sameUnits_iff]
  constructor
  · intro kept visit isVisit param member
    exact (kept_iff distinct enabled isVisit member).mp (kept visit isVisit param member)
  · intro units visit isVisit param member
    exact (kept_iff distinct enabled isVisit member).mpr (units visit isVisit param member)

end Request

/-- A temperature two metres above the ground, with the unit of its level. -/
def temperature (alias_ : String) (unit : String) : ParamDef ℚ where
  alias_ := Bytes.str alias_
  valueparametername := Bytes.str "air temperature"
  valueparameterunit := Bytes.str "K"
  levelparametername := Bytes.str "height above ground"
  levelfrom := 2
  levelto := 2
  levelunitname := Bytes.str unit
  scale := 1
  offset := 0
  dataversion := -1
  compare := .undef
  compareValue := INT_MAX
  interpolation := Bytes.str "nearest"

/-- A configuration with two parameters of one provider. -/
def twoParams (first second : ParamDef ℚ) : ParamDefConfig ℚ :=
  (∅ : ParamDefConfig ℚ).insert (Bytes.str "forecast")
    { defs := (∅ : SortedMap Bytes (List (ParamDef ℚ))).insert (Bytes.str "arome") [first, second]
      providerGroups := ∅ }

/-- A request, with a reference time of the provider. -/
def aromeRequest : ReadRequest ℚ where
  latitude := 60
  longitude := 10
  referenceTimes := (∅ : ProviderRefTimeList).insert (Bytes.str "arome")
    (ProviderTimes.create (.ticks 0) (.ticks 0))
  validTime := (default, default)
  dataVersion := INT_MAX

theorem distinctAliases_twoParams (unit : String) (isUnit : unit = "m" ∨ unit = "") :
    DistinctAliases (twoParams (temperature "TA" "m") (temperature "T2M" unit))
      (served (twoParams (temperature "TA" "m") (temperature "T2M" unit)) 5
        (Bytes.str "forecast") [⟨Bytes.str "arome", []⟩] aromeRequest.referenceTimes) := by
  rcases isUnit with rfl | rfl
  · exact ⟨by decide +kernel, by decide +kernel⟩
  · exact ⟨by decide +kernel, by decide +kernel⟩

theorem getWdbReadQuerys_kept_sameUnit :
    Kept .undefined
      ((getWdbReadQuerys (fun _ => []) (fun _ => [])
        (create (twoParams (temperature "TA" "m") (temperature "T2M" "m")) 5)
        (Bytes.str "forecast") [⟨Bytes.str "arome", []⟩] .undefined
        aromeRequest).params.paramsOf (Bytes.str "arome")) (temperature "T2M" "m") :=
  (getWdbReadQuerys_kept_iff (fun _ => []) (fun _ => []) _ 5 (Bytes.str "forecast")
    [⟨Bytes.str "arome", []⟩] .undefined aromeRequest
    (distinctAliases_twoParams "m" (Or.inl rfl))).mpr (by unfold SameUnits; decide +kernel)
    (Bytes.str "forecast", Bytes.str "arome") (by decide +kernel) _ (by decide +kernel)

/-- A level without a unit becomes a level in metres, because its group has that unit. -/
theorem not_getWdbReadQuerys_kept :
    ¬∀ (isotimeString : PTime → Bytes) (decimal : ℚ → Bytes) (params : ParamDefConfig ℚ)
        (wciProtocol : ℤ) (id : Bytes) (providerList : ProviderList) (level : Level)
        (request : ReadRequest ℚ),
      DistinctAliases params
        (served params wciProtocol id providerList request.referenceTimes) →
      ∀ visit ∈ served params wciProtocol id providerList request.referenceTimes,
        ∀ param ∈ paramsFor params visit.1 visit.2,
          Kept level ((getWdbReadQuerys isotimeString decimal (create params wciProtocol) id
            providerList level request).params.paramsOf visit.2) param := by
  intro always
  have kept := always (fun _ => []) (fun _ => [])
    (twoParams (temperature "TA" "m") (temperature "T2M" "")) 5 (Bytes.str "forecast")
    [⟨Bytes.str "arome", []⟩] .undefined aromeRequest
    (distinctAliases_twoParams "" (Or.inr rfl)) (Bytes.str "forecast", Bytes.str "arome")
    (by decide +kernel) (temperature "T2M" "") (by decide +kernel)
  rw [Kept, if_pos (by decide)] at kept
  revert kept
  decide +kernel

end QueryMaker

end Wdb2ts
