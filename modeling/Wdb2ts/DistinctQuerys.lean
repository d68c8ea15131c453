import Wdb2ts.Lib.UniqueKeys
import Wdb2ts.QueryMakerParams
import Wdb2ts.QuerySets
import Wdb2ts.StreamRefinement

/-!
# Queries that are issued twice

`createQuery` appends a text to the query of a provider for each group of its parameters.  All
texts of a query are the same until `getQuerys` replaces their place for the value parameters, and
it gives each of them all value parameters of the query.
-/

namespace Wdb2ts

variable {F : Type}

/-! ## The code -/

/-- `miutil::replaceStringCopy`, whose loop is the one of `replaceString`. -/
def miutil.replaceStringCopy (str_ what with_ : Bytes) (nToReplace : ℤ) : Bytes :=
  (miutil.replaceString str_ what with_ nToReplace).getD []

/-- `wciValueParameter`, which is the same for all protocols. -/
def wciValueParameter (_wciProtocol : ℤ) : List (ParamDef F) → Bytes
  | [] => Bytes.str "NULL"
  | it :: rest =>
      Bytes.str "ARRAY['" ++ it.valueparametername ++ Bytes.str "'" ++
        (rest.flatMap fun it => Bytes.str ",'" ++ it.valueparametername ++ Bytes.str "'") ++
        Bytes.str "]"

/-- `Query::getQuerys`. -/
def Query.getQuerys (wciProtocol : ℤ) (query : Query F) : List Bytes :=
  let sParams := wciValueParameter wciProtocol query.params
  query.querys.map fun it => miutil.replaceStringCopy it QueryMaker.PARAMS sParams 0

namespace QueryMaker

/-! ## What is issued -/

/-- The texts of the queries for one id are distinct for each provider. -/
def DistinctForId (wciProtocol : ℤ) (res : QuerysAndParamDefs F) : Prop :=
  ∀ id provider, ((res.querys.filter fun query =>
    decide (query.id = id ∧ query.provider = provider)).flatMap
      (Query.getQuerys wciProtocol)).Nodup

/-- The texts of all queries, those for the id `all` included, are distinct for each provider. -/
def DistinctForCall (wciProtocol : ℤ) (res : QuerysAndParamDefs F) : Prop :=
  ∀ provider, ((res.querys.filter fun query => decide (query.provider = provider)).flatMap
    (Query.getQuerys wciProtocol)).Nodup

/-- A parameter is asked for when it has a level or one is requested. -/
def isUsable (level : Level) (param : ParamDef F) : Bool :=
  param.hasLevelparameters || level.isDefined

/-- The parameters that an id and a provider are asked for, one for each value parameter. -/
def requested (params : ParamDefConfig F) (level : Level) (visit : Bytes × Bytes) :
    List (ParamDef F) :=
  UniqueKeys.putAll ParamDef.valueparametername false []
    ((paramsFor params visit.1 visit.2).filter (isUsable level))

/-- The parameters that a provider is asked for have the same level. -/
def OneLevel (level : Level) (params : List (ParamDef F)) : Prop :=
  ∀ param ∈ params, ∀ other ∈ params, isUsable level param = true →
    isUsable level other = true → (Level.ofParam param).key = (Level.ofParam other).key

/-- The parameters that each provider is asked for have one level. -/
def OneLevelEach (params : ParamDefConfig F) (level : Level) (visits : List (Bytes × Bytes)) :
    Prop :=
  ∀ visit ∈ visits, OneLevel level (paramsFor params visit.1 visit.2)

/-- No provider is asked for the same value parameters under two ids. -/
def ApartByIds (params : ParamDefConfig F) (wciProtocol : ℤ) (level : Level)
    (visits : List (Bytes × Bytes)) : Prop :=
  ∀ visit ∈ visits, ∀ other ∈ visits, visit.2 = other.2 → visit ≠ other →
    requested params level visit ≠ [] → requested params level other ≠ [] →
      wciValueParameter wciProtocol (requested params level visit) ≠
        wciValueParameter wciProtocol (requested params level other)

/-! ## The query of an id and a provider -/

section Texts

variable (isotimeString : PTime → Bytes) (decimal : F → Bytes)

/-- The text that is made for a provider with a reference time. -/
def textFor (wciProtocol : ℤ) (request : ReadRequest F) (provider : Bytes) : Bytes :=
  match request.referenceTimes.providerReftimeDisabledAndDataversion provider with
  | none => []
  | some (reftime, _, dataversion) =>
      readQuery isotimeString decimal wciProtocol request provider reftime
        (if request.dataVersion ≠ INT_MAX then request.dataVersion else dataversion)

theorem addParam_eq (query : Query F) (param : ParamDef F) :
    query.addParam param =
      { query with
        params := UniqueKeys.put ParamDef.valueparametername false param query.params } := by
  rw [Query.addParam]
  by_cases known : param.valueparametername ∈ query.params.map ParamDef.valueparametername
  · have isKnown : (query.params.any fun other =>
        decide (other.valueparametername = param.valueparametername)) = true := by
      simpa using known
    rw [if_pos isKnown, UniqueKeys.put_of_mem known]
  · have isNew : ¬(query.params.any fun other =>
        decide (other.valueparametername = param.valueparametername)) = true := by
      simpa using known
    rw [if_neg isNew, UniqueKeys.put_of_notMem known]

/-- The text and the parameters that a group adds to a query. -/
theorem createQuery_query (wciProtocol : ℤ) (request : ReadRequest F)
    (params : List (ParamDef F)) (lvl : Level) (state : Query F × ParamDefList F) :
    (createQuery isotimeString decimal wciProtocol request params lvl state).1 =
      if isEnabled request.referenceTimes state.1.provider then
        { state.1 with
          params := UniqueKeys.putAll ParamDef.valueparametername false state.1.params
            (params.map (withLevel lvl))
          querys := state.1.querys ++
            [textFor isotimeString decimal wciProtocol request state.1.provider] }
      else state.1 := by
  have added (params : List (ParamDef F)) (state : Query F × ParamDefList F) :
      (params.foldl
        (fun state it =>
          (state.1.addParam (withLevel lvl it),
            (state.2.addParamDef (withLevel lvl it) state.1.provider).2))
        state).1 =
        { state.1 with
          params := UniqueKeys.putAll ParamDef.valueparametername false state.1.params
            (params.map (withLevel lvl)) } := by
    induction params generalizing state with
    | nil => rfl
    | cons param rest ih =>
        rw [List.foldl_cons, ih, addParam_eq]
        rfl
  rcases isTimes :
      request.referenceTimes.providerReftimeDisabledAndDataversion state.1.provider with
    _ | ⟨reftime, disabled, dataversion⟩
  · simp only [createQuery, isEnabled, isTimes]
    rfl
  · cases disabled with
    | true =>
        simp only [createQuery, isEnabled, isTimes]
        rfl
    | false =>
        simp only [createQuery, isEnabled, isTimes, textFor, added]
        rfl

/-- The number of groups that are asked for. -/
def usableGroups (levels : LevelParams F) (level : Level) : ℕ :=
  levels.entries.countP fun itLevel => itLevel.2.1.isDefined || level.isDefined

/-- The texts and the parameters that a provider adds to a query. -/
theorem createQuerys_query (wciProtocol : ℤ) (request : ReadRequest F) (level : Level)
    (levels : LevelParams F) (state : Query F × ParamDefList F) :
    (createQuerys isotimeString decimal wciProtocol request level levels state).1 =
      if isEnabled request.referenceTimes state.1.provider then
        { state.1 with
          params := UniqueKeys.putAll ParamDef.valueparametername false state.1.params
            (madeParams levels level)
          querys := state.1.querys ++ List.replicate (usableGroups levels level)
            (textFor isotimeString decimal wciProtocol request state.1.provider) }
      else state.1 := by
  have round (itLevel : LevelKey × Level × List (ParamDef F)) (state : Query F × ParamDefList F) :
      (if itLevel.2.1.isDefined then
        createQuery isotimeString decimal wciProtocol request itLevel.2.2 itLevel.2.1 state
      else if level.isDefined then
        createQuery isotimeString decimal wciProtocol request itLevel.2.2 level state
      else state).1 =
        if isEnabled request.referenceTimes state.1.provider then
          { state.1 with
            params := UniqueKeys.putAll ParamDef.valueparametername false state.1.params
              (if itLevel.2.1.isDefined then itLevel.2.2.map (withLevel itLevel.2.1)
              else if level.isDefined then itLevel.2.2.map (withLevel level)
              else [])
            querys := state.1.querys ++
              List.replicate (if itLevel.2.1.isDefined || level.isDefined then 1 else 0)
                (textFor isotimeString decimal wciProtocol request state.1.provider) }
        else state.1 := by
    cases itLevel.2.1.isDefined with
    | true => exact createQuery_query isotimeString decimal wciProtocol request _ _ state
    | false =>
        cases level.isDefined with
        | true => exact createQuery_query isotimeString decimal wciProtocol request _ _ state
        | false =>
            simp [UniqueKeys.putAll]
  simp only [createQuerys, madeParams, usableGroups]
  induction levels.entries generalizing state with
  | nil => simp [UniqueKeys.putAll]
  | cons itLevel rest ih =>
      rw [List.foldl_cons, ih, round, List.flatMap_cons, List.countP_cons, Nat.add_comm,
        List.replicate_add]
      split
      · simp [UniqueKeys.putAll]
      · rfl

variable (params : ParamDefConfig F) (wciProtocol : ℤ) (request : ReadRequest F) (level : Level)

/-- The query that is made for an id and a provider. -/
def queryFor (visit : Bytes × Bytes) : Query F :=
  if isEnabled request.referenceTimes visit.2 then
    { id := visit.1
      provider := visit.2
      params := UniqueKeys.putAll ParamDef.valueparametername false []
        (madeParams (LevelParams.group (paramsFor params visit.1 visit.2)) level)
      querys := List.replicate
        (usableGroups (LevelParams.group (paramsFor params visit.1 visit.2)) level)
        (textFor isotimeString decimal wciProtocol request visit.2) }
  else Query.new visit.1 visit.2

theorem key_queryFor (visit : Bytes × Bytes) :
    (queryFor isotimeString decimal params wciProtocol request level visit).key = visit := by
  rw [queryFor]
  split
  · rfl
  · rfl

theorem createQuerys_new (visit : Bytes × Bytes) (list : ParamDefList F) :
    (createQuerys isotimeString decimal wciProtocol request level
      (LevelParams.group (paramsFor params visit.1 visit.2))
      (Query.new visit.1 visit.2, list)).1 =
        queryFor isotimeString decimal params wciProtocol request level visit := by
  rw [createQuerys_query]
  rfl

end Texts

/-! ## The queries of a result -/

/-- The queries are those that are made for some ids and providers, each once. -/
structure Issues (made : Bytes × Bytes → Query F) (visits : List (Bytes × Bytes))
    (querys : List (Query F)) : Prop where
  unique : (querys.map Query.key).Nodup
  mem_iff : ∀ query, query ∈ querys ↔ ∃ visit ∈ visits, made visit = query

section Results

variable {made : Bytes × Bytes → Query F} {visited : List (Bytes × Bytes)}

theorem issues_nil : Issues made [] [] where
  unique := List.nodup_nil
  mem_iff query := by simp

theorem Issues.append {querys : List (Query F)} (issues : Issues made visited querys)
    (keys : ∀ visit, (made visit).key = visit) {visit : Bytes × Bytes}
    (absent : ∀ query ∈ querys, query.key ≠ visit) :
    Issues made (visited ++ [visit]) (querys ++ [made visit]) where
  unique := by
    rw [List.map_append, List.map_singleton, keys]
    apply issues.unique.append (List.nodup_singleton _)
    rw [List.disjoint_singleton, List.mem_map]
    intro known
    rcases known with ⟨query, member, same⟩
    exact absent query member same
  mem_iff := by
    intro query
    rw [List.mem_append, issues.mem_iff, List.mem_singleton]
    simp only [List.mem_append, List.mem_singleton, or_and_right, exists_or, exists_eq_left]
    rw [eq_comm]

/-- What is made for a known id and provider is there already. -/
theorem Issues.again {querys : List (Query F)} (issues : Issues made visited querys)
    (keys : ∀ visit, (made visit).key = visit) {visit : Bytes × Bytes}
    (known : ∃ query ∈ querys, query.key = visit) : Issues made (visited ++ [visit]) querys where
  unique := issues.unique
  mem_iff := by
    rcases known with ⟨old, member, sameKey⟩
    rcases (issues.mem_iff old).mp member with ⟨other, isOther, isMade⟩
    rw [← isMade, keys] at sameKey
    intro query
    rw [issues.mem_iff]
    simp only [List.mem_append, List.mem_singleton, or_and_right, exists_or, exists_eq_left]
    constructor
    · exact Or.inl
    · intro isEither
      rcases isEither with isOld | isLast
      · exact isOld
      · exact ⟨other, isOther, by rw [sameKey, isLast]⟩

/-- A query that is made again is merged with itself. -/
theorem Issues.addQuery {set : QuerysAndParamDefs F} (issues : Issues made visited set.querys)
    (keys : ∀ visit, (made visit).key = visit) (visit : Bytes × Bytes) :
    Issues made (visited ++ [visit]) (set.addQuery (made visit)).querys := by
  simp only [QuerysAndParamDefs.addQuery]
  cases found : set.querys.findIdx? fun query => query.isSame (made visit) with
  | none =>
      apply issues.append keys
      intro query member same
      have notSame := List.findIdx?_eq_none_iff.mp found query member
      rw [Query.isSame_iff.mpr (same.trans (keys visit).symm)] at notSame
      cases notSame
  | some index =>
      have unchanged : ∀ query ∈ set.querys,
          (if query.key = (made visit).key then query.merge (made visit) else query) = query := by
        intro query member
        rcases (issues.mem_iff query).mp member with ⟨other, _, isMade⟩
        split
        case isTrue same =>
          rw [← isMade, keys, keys] at same
          rw [← isMade, same, Query.merge_self]
        case isFalse => rfl
      have kept : (set.querys.modify index fun query => query.merge (made visit)) = set.querys := by
        rw [modify_eq_map issues.unique found, List.map_congr_left unchanged, List.map_id']
      rcases List.findIdx?_eq_some_iff_getElem.mp found with ⟨less, isSame, _⟩
      simp only [kept]
      exact issues.again keys
        ⟨_, List.getElem_mem less, (Query.isSame_iff.mp isSame).trans (keys visit)⟩

/-- Does the configuration have parameters for an id and a provider? -/
def hasParams (params : ParamDefConfig F) (visit : Bytes × Bytes) : Bool :=
  !(paramsFor params visit.1 visit.2).isEmpty

variable (isotimeString : PTime → Bytes) (decimal : F → Bytes)

/-- The queries for one id and its providers. -/
theorem issues_getWdbReadQuerysOf {params : ParamDefConfig F} {wciProtocol : ℤ} {id : Bytes}
    {providers : SortedMap Bytes (LevelParams F)}
    (isId : (create params wciProtocol).params.find? id = some providers)
    (request : ReadRequest F) (level : Level) (providerList : List Bytes)
    {res : QuerysAndParamDefs F}
    (issues : Issues (queryFor isotimeString decimal params wciProtocol request level) visited
      res.querys) :
    Issues (queryFor isotimeString decimal params wciProtocol request level)
      (visited ++ (providerList.map fun provider => (id, provider)).filter (hasParams params))
      (getWdbReadQuerysOf isotimeString decimal wciProtocol request id level providerList providers
        res).querys := by
  induction providerList generalizing visited res with
  | nil =>
      rw [List.map_nil, List.filter_nil, List.append_nil]
      exact issues
  | cons provider rest ih =>
      have found := findLevels_create isId provider
      rw [getWdbReadQuerysOf, List.foldl_cons, ← getWdbReadQuerysOf, List.map_cons]
      cases isEmpty : (paramsFor params id provider).isEmpty with
      | true =>
          rw [isEmpty, if_pos rfl] at found
          rw [List.filter_cons_of_neg (by simp [hasParams, isEmpty])]
          simp only [found]
          exact ih issues
      | false =>
          rw [isEmpty, if_neg Bool.false_ne_true] at found
          rw [List.filter_cons_of_pos (by simp [hasParams, isEmpty]), List.append_cons]
          simp only [found]
          apply ih
          have query := createQuerys_new isotimeString decimal params wciProtocol request level
            (id, provider) res.params
          rw [query]
          refine Issues.addQuery ?_
            (key_queryFor isotimeString decimal params wciProtocol request level) (id, provider)
          exact issues

/-- The queries that a call returns. -/
theorem issues_getWdbReadQuerys (params : ParamDefConfig F) (wciProtocol : ℤ) (id : Bytes)
    (providerList : ProviderList) (level : Level) (request : ReadRequest F) :
    Issues (queryFor isotimeString decimal params wciProtocol request level)
      ((visits (create params wciProtocol) id providerList).filter (hasParams params))
      (getWdbReadQuerys isotimeString decimal (create params wciProtocol) id providerList level
        request).querys := by
  have protocol : (create params wciProtocol).wciProtocol = wciProtocol := rfl
  have nothing : Issues (queryFor isotimeString decimal params wciProtocol request level) []
      ({ QuerysAndParamDefs.new wciProtocol with
          providerPriority := providerList
          referenceTimes := request.referenceTimes } : QuerysAndParamDefs F).querys := issues_nil
  cases isAll : (create params wciProtocol).params.find? (Bytes.str "all") with
  | none =>
      cases isId : (create params wciProtocol).params.find? id with
      | none =>
          simp only [getWdbReadQuerys, visits, isAll, isId]
          exact issues_nil
      | some providers =>
          simp only [getWdbReadQuerys, visits, isAll, isId, protocol, List.nil_append]
          exact issues_getWdbReadQuerysOf isotimeString decimal isId request level _ nothing
  | some all =>
      have before := issues_getWdbReadQuerysOf isotimeString decimal isAll request level
        (allProviders all providerList.providerWithoutPlacename) nothing
      cases isId : (create params wciProtocol).params.find? id with
      | none =>
          simp only [getWdbReadQuerys, visits, isAll, isId, protocol, List.append_nil]
          exact before
      | some providers =>
          simp only [getWdbReadQuerys, visits, isAll, isId, protocol, List.filter_append]
          exact issues_getWdbReadQuerysOf isotimeString decimal isId request level _ before

end Results

/-! ## The groups that are asked for -/

section Groups

variable {params : List (ParamDef F)} {level : Level}

/-- The group of a parameter. -/
theorem exists_entry {param : ParamDef F} (member : param ∈ params) :
    ∃ lvl, ((Level.ofParam param).key, lvl, LevelParams.withKey params (Level.ofParam param).key) ∈
        (LevelParams.group params).entries ∧ lvl.isDefined = param.hasLevelparameters := by
  have inKey : param ∈ LevelParams.withKey params (Level.ofParam param).key :=
    mem_withKey.mpr ⟨member, rfl⟩
  cases members : LevelParams.withKey params (Level.ofParam param).key with
  | nil =>
      rw [members] at inKey
      cases inKey
  | cons first rest =>
      have isFirst : first ∈ LevelParams.withKey params (Level.ofParam param).key := by
        rw [members]
        exact List.mem_cons_self
      refine ⟨Level.ofParam first, mem_entries_group.mpr ⟨members.symm, first, rest, rfl, rfl⟩, ?_⟩
      rw [isDefined_of_key_eq (mem_withKey.mp isFirst).2, isDefined_ofParam]

/-- A group has a parameter. -/
theorem exists_param_of_entry {itLevel : LevelKey × Level × List (ParamDef F)}
    (member : itLevel ∈ (LevelParams.group params).entries) :
    ∃ param ∈ params, (Level.ofParam param).key = itLevel.1 ∧
      itLevel.2.1.isDefined = param.hasLevelparameters := by
  rcases mem_entries_group.mp member with ⟨isMembers, first, rest, isCons, isLevel⟩
  have isFirst : first ∈ LevelParams.withKey params itLevel.1 := by
    rw [← isMembers, isCons]
    exact List.mem_cons_self
  rcases mem_withKey.mp isFirst with ⟨inParams, same⟩
  exact ⟨first, inParams, same, by rw [isLevel, isDefined_ofParam]⟩

/-- The groups that are asked for. -/
def usableEntries (levels : LevelParams F) (level : Level) :
    List (LevelKey × Level × List (ParamDef F)) :=
  levels.entries.filter fun itLevel => itLevel.2.1.isDefined || level.isDefined

theorem usableGroups_eq_length (levels : LevelParams F) :
    usableGroups levels level = (usableEntries levels level).length :=
  List.countP_eq_length_filter

/-- The groups that are asked for are those of the parameters that are. -/
theorem exists_usableEntry {param : ParamDef F} (member : param ∈ params)
    (usable : isUsable level param = true) :
    ∃ lvl, ((Level.ofParam param).key, lvl, LevelParams.withKey params (Level.ofParam param).key) ∈
      usableEntries (LevelParams.group params) level := by
  rcases exists_entry member with ⟨lvl, isEntry, isDefined⟩
  refine ⟨lvl, List.mem_filter.mpr ⟨isEntry, ?_⟩⟩
  rw [isDefined]
  exact usable

theorem exists_usable {itLevel : LevelKey × Level × List (ParamDef F)}
    (member : itLevel ∈ usableEntries (LevelParams.group params) level) :
    ∃ param ∈ params, (Level.ofParam param).key = itLevel.1 ∧ isUsable level param = true := by
  rcases List.mem_filter.mp member with ⟨isEntry, usable⟩
  rcases exists_param_of_entry isEntry with ⟨param, inParams, same, isDefined⟩
  rw [isDefined] at usable
  exact ⟨param, inParams, same, usable⟩

theorem nodup_usableEntries (levels : LevelParams F) :
    ((usableEntries levels level).map Prod.fst).Nodup := by
  have distinct : (levels.entries.map Prod.fst).Nodup :=
    List.pairwise_map.mpr (levels.sorted.imp ne_of_lt)
  exact distinct.sublist (List.filter_sublist.map Prod.fst)

/-- At most one group is asked for when the parameters have one level. -/
theorem usableGroups_le_one_iff :
    usableGroups (LevelParams.group params) level ≤ 1 ↔ OneLevel level params := by
  rw [usableGroups_eq_length, UniqueKeys.length_le_one_iff (nodup_usableEntries _)]
  constructor
  · intro sameKeys param member other otherMember usable otherUsable
    rcases exists_usableEntry member usable with ⟨lvl, isEntry⟩
    rcases exists_usableEntry otherMember otherUsable with ⟨otherLvl, isOther⟩
    exact sameKeys _ isEntry _ isOther
  · intro oneLevel itLevel member other otherMember
    rcases exists_usable member with ⟨param, inParams, same, usable⟩
    rcases exists_usable otherMember with ⟨otherParam, otherInParams, otherSame, otherUsable⟩
    rw [← same, ← otherSame]
    exact oneLevel param inParams otherParam otherInParams usable otherUsable

theorem usableGroups_eq_zero_iff :
    usableGroups (LevelParams.group params) level = 0 ↔ params.filter (isUsable level) = [] := by
  rw [usableGroups_eq_length, List.length_eq_zero_iff, List.filter_eq_nil_iff]
  constructor
  · intro noEntry param member usable
    rcases exists_usableEntry member usable with ⟨lvl, isEntry⟩
    rw [noEntry] at isEntry
    cases isEntry
  · intro noParam
    rw [List.eq_nil_iff_forall_not_mem]
    intro itLevel member
    rcases exists_usable member with ⟨param, inParams, _, usable⟩
    exact noParam param inParams usable

/-- The value parameters of the groups that are asked for. -/
theorem map_madeParams (levels : LevelParams F) :
    (madeParams levels level).map ParamDef.valueparametername =
      (usableEntries levels level).flatMap fun itLevel =>
        itLevel.2.2.map ParamDef.valueparametername := by
  rw [madeParams, usableEntries]
  induction levels.entries with
  | nil => rfl
  | cons itLevel rest ih =>
      rw [List.flatMap_cons, List.map_append, ih, List.filter_cons]
      cases itLevel.2.1.isDefined with
      | true => simp [withLevel, Function.comp_def]
      | false =>
          cases level.isDefined with
          | true => simp [withLevel, Function.comp_def]
          | false => simp

/-- With one level, the value parameters are those of the parameters that are asked for. -/
theorem OneLevel.map_madeParams (oneLevel : OneLevel level params) :
    (madeParams (LevelParams.group params) level).map ParamDef.valueparametername =
      (params.filter (isUsable level)).map ParamDef.valueparametername := by
  rw [QueryMaker.map_madeParams]
  cases kept : params.filter (isUsable level) with
  | nil =>
      rw [← usableGroups_eq_zero_iff, usableGroups_eq_length, List.length_eq_zero_iff] at kept
      rw [kept]
      rfl
  | cons param rest =>
      have isKept : param ∈ params.filter (isUsable level) := by
        rw [kept]
        exact List.mem_cons_self
      rcases List.mem_filter.mp isKept with ⟨member, usable⟩
      rcases exists_usableEntry member usable with ⟨lvl, isEntry⟩
      have sameFilter : LevelParams.withKey params (Level.ofParam param).key =
          params.filter (isUsable level) := by
        apply List.filter_congr
        intro other inParams
        rw [Bool.eq_iff_iff, decide_eq_true_eq]
        constructor
        · intro same
          rw [isUsable, ← isDefined_ofParam, isDefined_of_key_eq same, isDefined_ofParam]
          exact usable
        · intro otherUsable
          exact oneLevel other inParams param member otherUsable usable
      have atMostOne := usableGroups_le_one_iff.mpr oneLevel
      rw [usableGroups_eq_length] at atMostOne
      rw [← kept, ← sameFilter]
      match entries : usableEntries (LevelParams.group params) level with
      | [] =>
          rw [entries] at isEntry
          cases isEntry
      | [itLevel] =>
          rw [entries, List.mem_singleton] at isEntry
          rw [← isEntry, List.flatMap_singleton]
      | _ :: _ :: _ =>
          rw [entries] at atMostOne
          simp at atMostOne

end Groups

/-! ## The texts -/

theorem wciValueParameter_congr (wciProtocol : ℤ) {params others : List (ParamDef F)}
    (same : params.map ParamDef.valueparametername = others.map ParamDef.valueparametername) :
    wciValueParameter wciProtocol params = wciValueParameter wciProtocol others := by
  cases params with
  | nil =>
      cases others with
      | nil => rfl
      | cons other rest => cases same
  | cons param rest =>
      cases others with
      | nil => cases same
      | cons other otherRest =>
          rw [List.map_cons, List.map_cons, List.cons.injEq] at same
          have later (params : List (ParamDef F)) :
              (params.flatMap fun it => Bytes.str ",'" ++ it.valueparametername ++ Bytes.str "'") =
                (params.map ParamDef.valueparametername).flatMap fun name =>
                  Bytes.str ",'" ++ name ++ Bytes.str "'" := by
            rw [List.flatMap_map]
          rw [wciValueParameter, wciValueParameter, later, later, same.1, same.2]

theorem replaceStringCopy_injective {str_ what with_ other : Bytes} (someWhat : what ≠ [])
    (occurs : what <:+: str_)
    (same : miutil.replaceStringCopy str_ what with_ 0 =
      miutil.replaceStringCopy str_ what other 0) :
    with_ = other := by
  rw [miutil.replaceStringCopy, miutil.replaceStringCopy, miutil.replaceString_eq someWhat,
    miutil.replaceString_eq someWhat, Option.getD_some, Option.getD_some] at same
  exact Replacement.replaceFrom_injective someWhat occurs same

section Distinct

variable (isotimeString : PTime → Bytes) (decimal : F → Bytes) (params : ParamDefConfig F)
  (wciProtocol : ℤ) (request : ReadRequest F) (level : Level)

theorem params_infix_readQuery (provider : Bytes) (reftime : PTime) (dataversion : ℤ) :
    PARAMS <:+: readQuery isotimeString decimal wciProtocol request provider reftime
      dataversion := by
  unfold readQuery
  apply List.IsInfix.trans _ (List.prefix_append _ _).isInfix
  apply List.IsInfix.trans _ (List.prefix_append _ _).isInfix
  apply List.IsInfix.trans _ (List.prefix_append _ _).isInfix
  exact (List.suffix_append _ PARAMS).isInfix

/-- The text for an enabled provider has the place of the value parameters. -/
theorem params_infix_textFor {provider : Bytes}
    (enabled : isEnabled request.referenceTimes provider = true) :
    PARAMS <:+: textFor isotimeString decimal wciProtocol request provider := by
  rw [isEnabled] at enabled
  rw [textFor]
  split at enabled
  · cases enabled
  · next times isTimes =>
      rw [isTimes]
      exact params_infix_readQuery isotimeString decimal wciProtocol request provider _ _

variable {params request level}

/-- The one text of a query with one level, if it has any. -/
theorem mem_getQuerys_queryFor {visit : Bytes × Bytes} {protocol : ℤ} {text : Bytes}
    (oneLevel : isEnabled request.referenceTimes visit.2 = true →
      OneLevel level (paramsFor params visit.1 visit.2)) :
    text ∈ (queryFor isotimeString decimal params wciProtocol request level visit).getQuerys
        protocol ↔
      isEnabled request.referenceTimes visit.2 = true ∧ requested params level visit ≠ [] ∧
        text = miutil.replaceStringCopy
          (textFor isotimeString decimal wciProtocol request visit.2) PARAMS
          (wciValueParameter protocol (requested params level visit)) 0 := by
  cases enabled : isEnabled request.referenceTimes visit.2 with
  | false =>
      rw [queryFor, enabled, if_neg Bool.false_ne_true]
      simp [Query.getQuerys, Query.new]
  | true =>
      have names : (UniqueKeys.putAll ParamDef.valueparametername false []
          (madeParams (LevelParams.group (paramsFor params visit.1 visit.2)) level)).map
            ParamDef.valueparametername =
          (requested params level visit).map ParamDef.valueparametername :=
        UniqueKeys.map_putAll_congr rfl (oneLevel enabled).map_madeParams
      rw [queryFor, enabled, if_pos rfl, Query.getQuerys]
      dsimp only
      rw [wciValueParameter_congr protocol names, List.map_replicate, List.mem_replicate, ne_eq,
        usableGroups_eq_zero_iff, ne_eq, requested, UniqueKeys.putAll_nil_eq_nil_iff]
      simp

/-- The texts of a query are distinct when its parameters have one level. -/
theorem nodup_getQuerys_queryFor {visit : Bytes × Bytes} {protocol : ℤ} :
    ((queryFor isotimeString decimal params wciProtocol request level visit).getQuerys
        protocol).Nodup ↔
      (isEnabled request.referenceTimes visit.2 = true →
        OneLevel level (paramsFor params visit.1 visit.2)) := by
  cases enabled : isEnabled request.referenceTimes visit.2 with
  | false =>
      rw [queryFor, enabled, if_neg Bool.false_ne_true]
      simp [Query.getQuerys, Query.new]
  | true =>
      rw [queryFor, enabled, if_pos rfl, Query.getQuerys]
      dsimp only
      rw [List.map_replicate, List.nodup_replicate, usableGroups_le_one_iff]
      simp

/-- The queries of one provider under two ids share a text when both ask for the same value
parameters. -/
theorem disjoint_queryFor_iff {visit other : Bytes × Bytes} {protocol : ℤ}
    (sameProvider : visit.2 = other.2)
    (oneLevel : isEnabled request.referenceTimes visit.2 = true →
      OneLevel level (paramsFor params visit.1 visit.2))
    (otherLevel : isEnabled request.referenceTimes other.2 = true →
      OneLevel level (paramsFor params other.1 other.2)) :
    ((queryFor isotimeString decimal params wciProtocol request level visit).getQuerys
        protocol).Disjoint
      ((queryFor isotimeString decimal params wciProtocol request level other).getQuerys
        protocol) ↔
      (isEnabled request.referenceTimes visit.2 = true → requested params level visit ≠ [] →
        requested params level other ≠ [] →
          wciValueParameter protocol (requested params level visit) ≠
            wciValueParameter protocol (requested params level other)) := by
  constructor
  · intro disjoint enabled asked otherAsked sameText
    apply disjoint
    · rw [mem_getQuerys_queryFor isotimeString decimal wciProtocol oneLevel]
      exact ⟨enabled, asked, rfl⟩
    · rw [mem_getQuerys_queryFor isotimeString decimal wciProtocol otherLevel, ← sameProvider]
      exact ⟨enabled, otherAsked, by rw [sameText]⟩
  · intro apart text isText isOtherText
    rw [mem_getQuerys_queryFor isotimeString decimal wciProtocol oneLevel] at isText
    rw [mem_getQuerys_queryFor isotimeString decimal wciProtocol otherLevel, ← sameProvider]
      at isOtherText
    rcases isText with ⟨enabled, asked, isText⟩
    rcases isOtherText with ⟨-, otherAsked, isOtherText⟩
    exact apart enabled asked otherAsked (replaceStringCopy_injective (by decide)
      (params_infix_textFor isotimeString decimal wciProtocol request enabled)
      (isText.symm.trans isOtherText))

end Distinct

/-! ## All queries -/

section AllQuerys

variable {isotimeString : PTime → Bytes} {decimal : F → Bytes} {params : ParamDefConfig F}
  {wciProtocol protocol : ℤ} {request : ReadRequest F} {level : Level}
  {visited : List (Bytes × Bytes)} {res : QuerysAndParamDefs F}

/-- An id and a provider without parameters have one level. -/
theorem oneLevel_of_not_hasParams {visit : Bytes × Bytes}
    (hasNone : hasParams params visit = false) :
    OneLevel level (paramsFor params visit.1 visit.2) := by
  rw [hasParams, Bool.not_eq_false', List.isEmpty_iff] at hasNone
  intro param member
  rw [hasNone] at member
  cases member

theorem hasParams_of_requested {visit : Bytes × Bytes} (asked : requested params level visit ≠ []) :
    hasParams params visit = true := by
  rw [hasParams, Bool.not_eq_true', List.isEmpty_eq_false_iff]
  intro hasNone
  apply asked
  rw [requested, hasNone]
  rfl

/-- The texts of each query are distinct when the parameters of its provider have one level. -/
theorem nodup_getQuerys_iff
    (issues : Issues (queryFor isotimeString decimal params wciProtocol request level)
      (visited.filter (hasParams params)) res.querys) :
    (∀ query ∈ res.querys, (query.getQuerys protocol).Nodup) ↔
      OneLevelEach params level
        (visited.filter fun visit => isEnabled request.referenceTimes visit.2) := by
  constructor
  · intro distinct visit member
    rcases List.mem_filter.mp member with ⟨isVisited, enabled⟩
    cases some : hasParams params visit with
    | false => exact oneLevel_of_not_hasParams some
    | true =>
        have isQuery := (issues.mem_iff _).mpr ⟨visit, List.mem_filter.mpr ⟨isVisited, some⟩, rfl⟩
        exact (nodup_getQuerys_queryFor isotimeString decimal wciProtocol).mp
          (distinct _ isQuery) enabled
  · intro oneLevel query member
    rcases (issues.mem_iff query).mp member with ⟨visit, isVisited, isQuery⟩
    rw [← isQuery, nodup_getQuerys_queryFor]
    intro enabled
    exact oneLevel visit (List.mem_filter.mpr ⟨(List.mem_filter.mp isVisited).1, enabled⟩)

theorem filter_id_provider (id provider : Bytes) :
    (res.querys.filter fun query => decide (query.id = id ∧ query.provider = provider)) =
      res.querys.filter fun query => decide (query.key = (id, provider)) := by
  apply List.filter_congr
  intro query _
  simp only [Query.key, Prod.mk.injEq]

/-- There is one query for an id and a provider. -/
theorem distinctForId_iff (unique : (res.querys.map Query.key).Nodup) :
    DistinctForId protocol res ↔ ∀ query ∈ res.querys, (query.getQuerys protocol).Nodup := by
  constructor
  · intro distinct query member
    have texts := distinct query.id query.provider
    rw [filter_id_provider, ← Query.key, filter_key_eq unique member,
      List.flatMap_singleton] at texts
    exact texts
  · intro distinct id provider
    rw [filter_id_provider]
    by_cases known : ∃ query ∈ res.querys, query.key = (id, provider)
    · rcases known with ⟨query, member, same⟩
      rw [← same, filter_key_eq unique member, List.flatMap_singleton]
      exact distinct query member
    · have absent : ∀ part ∈ res.querys, part.key ≠ (id, provider) := by
        intro part member same
        exact known ⟨part, member, same⟩
      rw [filter_key_eq_nil absent]
      exact List.nodup_nil

/-- A property of every two queries of one provider, for the ids and providers they are made
for. -/
theorem Issues.forall_ne {visits : List (Bytes × Bytes)} {related : Query F → Query F → Prop}
    (issues : Issues (queryFor isotimeString decimal params wciProtocol request level) visits
      res.querys) :
    (∀ query ∈ res.querys, ∀ other ∈ res.querys, query ≠ other → query.provider = other.provider →
        related query other) ↔
      ∀ visit ∈ visits, ∀ other ∈ visits, visit.2 = other.2 → visit ≠ other →
        related (queryFor isotimeString decimal params wciProtocol request level visit)
          (queryFor isotimeString decimal params wciProtocol request level other) := by
  have keys := key_queryFor isotimeString decimal params wciProtocol request level
  have providers (visit : Bytes × Bytes) :
      (queryFor isotimeString decimal params wciProtocol request level visit).provider =
        visit.2 := congrArg Prod.snd (keys visit)
  constructor
  · intro forQuerys visit member other otherMember sameProvider different
    apply forQuerys _ ((issues.mem_iff _).mpr ⟨visit, member, rfl⟩) _
      ((issues.mem_iff _).mpr ⟨other, otherMember, rfl⟩)
    · intro same
      apply different
      rw [← keys visit, same, keys]
    · rw [providers, providers, sameProvider]
  · intro forVisits query member other otherMember different sameProvider
    rcases (issues.mem_iff query).mp member with ⟨visit, isVisited, rfl⟩
    rcases (issues.mem_iff other).mp otherMember with ⟨otherVisit, otherVisited, rfl⟩
    rw [providers, providers] at sameProvider
    apply forVisits visit isVisited otherVisit otherVisited sameProvider
    intro same
    exact different (by rw [same])

/-- The queries of a provider share no text when they are for other value parameters. -/
theorem disjoint_getQuerys_iff
    (issues : Issues (queryFor isotimeString decimal params wciProtocol request level)
      (visited.filter (hasParams params)) res.querys)
    (oneLevel : OneLevelEach params level
      (visited.filter fun visit => isEnabled request.referenceTimes visit.2)) :
    (∀ query ∈ res.querys, ∀ other ∈ res.querys, query ≠ other → query.provider = other.provider →
      (query.getQuerys protocol).Disjoint (other.getQuerys protocol)) ↔
        ApartByIds params protocol level
          (visited.filter fun visit => isEnabled request.referenceTimes visit.2) := by
  have levels {visit : Bytes × Bytes} (isVisited : visit ∈ visited)
      (enabled : isEnabled request.referenceTimes visit.2 = true) :
      OneLevel level (paramsFor params visit.1 visit.2) :=
    oneLevel visit (List.mem_filter.mpr ⟨isVisited, enabled⟩)
  rw [issues.forall_ne]
  constructor
  · intro disjoint visit member other otherMember sameProvider different asked otherAsked
    rcases List.mem_filter.mp member with ⟨isVisited, enabled⟩
    rcases List.mem_filter.mp otherMember with ⟨otherVisited, otherEnabled⟩
    have apart := disjoint visit
      (List.mem_filter.mpr ⟨isVisited, hasParams_of_requested asked⟩) other
      (List.mem_filter.mpr ⟨otherVisited, hasParams_of_requested otherAsked⟩) sameProvider different
    rw [disjoint_queryFor_iff isotimeString decimal wciProtocol sameProvider (levels isVisited)
      (levels otherVisited)] at apart
    exact apart enabled asked otherAsked
  · intro apart visit member other otherMember sameProvider different
    have isVisited := (List.mem_filter.mp member).1
    have otherVisited := (List.mem_filter.mp otherMember).1
    rw [disjoint_queryFor_iff isotimeString decimal wciProtocol sameProvider (levels isVisited)
      (levels otherVisited)]
    intro enabled
    exact apart visit (List.mem_filter.mpr ⟨isVisited, enabled⟩) other
      (List.mem_filter.mpr ⟨otherVisited, sameProvider ▸ enabled⟩) sameProvider different

/-- All texts for a provider are distinct when those of each query are, and no two queries share
one. -/
theorem distinctForCall_iff (unique : (res.querys.map Query.key).Nodup) :
    DistinctForCall protocol res ↔
      (∀ query ∈ res.querys, (query.getQuerys protocol).Nodup) ∧
        ∀ query ∈ res.querys, ∀ other ∈ res.querys, query ≠ other →
          query.provider = other.provider →
            (query.getQuerys protocol).Disjoint (other.getQuerys protocol) := by
  have nodup : res.querys.Nodup := List.Nodup.of_map _ unique
  constructor
  · intro distinct
    constructor
    · intro query member
      have texts := (List.nodup_flatMap.mp (distinct query.provider)).1
      exact texts query (List.mem_filter.mpr ⟨member, decide_eq_true rfl⟩)
    · intro query member other otherMember different sameProvider
      have apart := (List.nodup_flatMap.mp (distinct query.provider)).2
      have symmetric : Std.Symm
          (Function.onFun List.Disjoint (Query.getQuerys (F := F) protocol)) :=
        ⟨fun _ _ disjoint => disjoint.symm⟩
      exact apart.forall (List.mem_filter.mpr ⟨member, decide_eq_true rfl⟩)
        (List.mem_filter.mpr ⟨otherMember, decide_eq_true sameProvider.symm⟩) different
  · intro both provider
    rw [List.nodup_flatMap]
    constructor
    · intro query member
      exact both.1 query (List.mem_filter.mp member).1
    · apply (nodup.filter _).pairwise_of_forall_ne
      intro query member other otherMember different
      rcases List.mem_filter.mp member with ⟨isQuery, isProvider⟩
      rcases List.mem_filter.mp otherMember with ⟨isOther, otherProvider⟩
      exact both.2 query isQuery other isOther different
        ((of_decide_eq_true isProvider).trans (of_decide_eq_true otherProvider).symm)

end AllQuerys

/-- The texts for one id are distinct for each provider exactly when the parameters that each
enabled provider is asked for have one level.  Those for all ids of a call are so exactly when,
besides, no provider is asked for the same value parameters under two ids. -/
theorem getWdbReadQuerys_distinct_iff (isotimeString : PTime → Bytes) (decimal : F → Bytes)
    (params : ParamDefConfig F) (wciProtocol protocol : ℤ) (id : Bytes)
    (providerList : ProviderList) (level : Level) (request : ReadRequest F) :
    (DistinctForId protocol (getWdbReadQuerys isotimeString decimal (create params wciProtocol) id
        providerList level request) ↔
      OneLevelEach params level
        (served params wciProtocol id providerList request.referenceTimes)) ∧
    (DistinctForCall protocol (getWdbReadQuerys isotimeString decimal (create params wciProtocol) id
        providerList level request) ↔
      OneLevelEach params level
          (served params wciProtocol id providerList request.referenceTimes) ∧
        ApartByIds params protocol level
          (served params wciProtocol id providerList request.referenceTimes)) := by
  have issues := issues_getWdbReadQuerys isotimeString decimal params wciProtocol id providerList
    level request
  constructor
  · rw [distinctForId_iff issues.unique]
    exact nodup_getQuerys_iff issues
  · rw [distinctForCall_iff issues.unique, nodup_getQuerys_iff issues]
    exact and_congr_right fun oneLevel => disjoint_getQuerys_iff issues oneLevel

/-- The temperature of a provider at two heights is read by the same query, twice. -/
theorem not_distinctForId_twoHeights :
    ¬DistinctForId 5
      (getWdbReadQuerys (fun _ => Bytes.str "2013-03-01T00:00:00") (fun value =>
          Bytes.str (if value = 60 then "60" else "10"))
        (create (twoParams (temperature "T2M" "m")
          { temperature "T10M" "m" with levelfrom := 10, levelto := 10 }) 5)
        (Bytes.str "forecast") [⟨Bytes.str "arome", []⟩] .undefined aromeRequest) := by
  intro distinct
  have texts := distinct (Bytes.str "forecast") (Bytes.str "arome")
  revert texts
  decide +kernel

end QueryMaker

end Wdb2ts
