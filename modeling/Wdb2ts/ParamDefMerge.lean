import Wdb2ts.Config
import Wdb2ts.Lib.UniqueKeys

/-!
# One definition per alias

`addParamDef` appends a definition, or replaces the first one with its alias when it is told to.
`merge` copies the list of a provider that has none, and else adds the definitions one by one.
-/

namespace Wdb2ts

variable {F : Type}

namespace ParamDefList

/-! ## What it is for -/

/-- The lists that `addParamDef` and `merge` build from the empty list. -/
inductive Built : ParamDefList F → Prop where
  | empty : Built ∅
  | addParamDef {list : ParamDefList F} (built : Built list) (pd : ParamDef F) (provider : Bytes)
      (replace : Bool) : Built (list.addParamDefWith pd provider replace).2
  | merge {list other : ParamDefList F} (built : Built list) (otherBuilt : Built other)
      (replace : Bool) : Built (list.mergeWith other replace)

/-- Each provider has at most one definition for an alias. -/
def OnePerAlias (list : ParamDefList F) : Prop :=
  ∀ entry ∈ list.defs.entries, (entry.2.map ParamDef.alias_).Nodup

/-- An addition succeeds when nothing defines its alias for the provider or replacement is
requested.  Then it is the definition of the alias, and else nothing changes. -/
structure AddsDefinition (list : ParamDefList F) (pd : ParamDef F) (provider : Bytes)
    (replace : Bool) : Prop where
  returns : (list.addParamDefWith pd provider replace).1 =
    (!list.hasParam pd.alias_ provider || replace)
  kept : (list.addParamDefWith pd provider replace).1 = false →
    (list.addParamDefWith pd provider replace).2 = list
  definition_eq : (list.addParamDefWith pd provider replace).1 = true → ∀ other alias_,
    (list.addParamDefWith pd provider replace).2.definition other alias_ =
      if providerKey other = providerKey provider ∧ alias_ = pd.alias_ then some pd
      else list.definition other alias_

/-- A merge defines the aliases of both lists, the flag decides which definition of an alias that
both have stays, and a second merge changes nothing. -/
structure MergesDefinitions (list other : ParamDefList F) (replace : Bool) : Prop where
  definition_eq : ∀ provider alias_,
    (list.mergeWith other replace).definition provider alias_ =
      if replace then (other.definition provider alias_).or (list.definition provider alias_)
      else (list.definition provider alias_).or (other.definition provider alias_)
  hasParam_eq : ∀ alias_ provider,
    (list.mergeWith other replace).hasParam alias_ provider =
      (list.hasParam alias_ provider || other.hasParam alias_ provider)
  again : (list.mergeWith other replace).mergeWith other replace = list.mergeWith other replace

/-! ## Additions -/

section Additions

variable (list : ParamDefList F) (pd : ParamDef F) (provider : Bytes) (replace : Bool)

theorem definition_eq_first? (alias_ : Bytes) :
    list.definition provider alias_ =
      UniqueKeys.first? ParamDef.alias_ (list.paramsOf provider) alias_ := rfl

theorem hasParam_iff_mem {list : ParamDefList F} {alias_ provider : Bytes} :
    list.hasParam alias_ provider = true ↔
      alias_ ∈ (list.paramsOf provider).map ParamDef.alias_ := by
  rw [hasParam_iff, List.mem_map]

theorem replaceParamDef_eq {params : List (ParamDef F)} {pd : ParamDef F}
    (known : pd.alias_ ∈ params.map ParamDef.alias_) :
    replaceParamDef pd params = UniqueKeys.put ParamDef.alias_ true pd params := by
  induction params with
  | nil => cases known
  | cons param rest ih =>
      by_cases same : param.alias_ = pd.alias_
      · rw [replaceParamDef, if_pos same, UniqueKeys.put, if_pos same, if_pos rfl]
      · have later : pd.alias_ ∈ rest.map ParamDef.alias_ := by simpa [Ne.symm same] using known
        rw [replaceParamDef, if_neg same, UniqueKeys.put, if_neg same, ih later]

theorem addParamDefWith_fst :
    (list.addParamDefWith pd provider replace).1 =
      (!list.hasParam pd.alias_ provider || replace) := by
  cases known : list.hasParam pd.alias_ provider with
  | true => cases replace <;> simp [addParamDefWith, addParamDef, known]
  | false => simp [addParamDefWith, addParamDef, known]

/-- An addition puts the definition into the list of its provider. -/
theorem find?_addParamDefWith (key : Bytes) :
    (list.addParamDefWith pd provider replace).2.defs.find? key =
      if key = providerKey provider then
        some (UniqueKeys.put ParamDef.alias_ replace pd (list.paramsOf provider))
      else list.defs.find? key := by
  cases known : list.hasParam pd.alias_ provider with
  | true =>
      have member := hasParam_iff_mem.mp known
      cases replace with
      | true =>
          rw [addParamDefWith, known, Bool.true_and, if_pos rfl, SortedMap.find?_upsert,
            ← paramsOf, replaceParamDef_eq member]
          by_cases isKey : key = providerKey provider
          · rw [if_pos isKey, if_pos isKey]
          · rw [if_neg isKey, if_neg isKey]
      | false =>
          rw [addParamDefWith_false, addParamDef, known, if_pos rfl, UniqueKeys.put_of_mem member]
          split
          case isTrue isKey =>
            cases held : list.defs.find? key with
            | none => simp [hasParam, paramsOf, ← isKey, held] at known
            | some params => rw [paramsOf, ← isKey, held, Option.getD_some]
          case isFalse => rfl
  | false =>
      have fresh : pd.alias_ ∉ (list.paramsOf provider).map ParamDef.alias_ := by
        rw [← hasParam_iff_mem, known]
        exact Bool.false_ne_true
      rw [addParamDefWith, known, Bool.false_and, if_neg Bool.false_ne_true, addParamDef, known,
        if_neg Bool.false_ne_true, SortedMap.find?_upsert, ← paramsOf,
        UniqueKeys.put_of_notMem fresh]
      by_cases isKey : key = providerKey provider
      · rw [if_pos isKey, if_pos isKey]
      · rw [if_neg isKey, if_neg isKey]

theorem providerGroups_addParamDefWith :
    (list.addParamDefWith pd provider replace).2.providerGroups = list.providerGroups := by
  rw [addParamDefWith, addParamDef]
  split
  · rfl
  · split <;> rfl

theorem paramsOf_addParamDefWith (other : Bytes) :
    (list.addParamDefWith pd provider replace).2.paramsOf other =
      if providerKey other = providerKey provider then
        UniqueKeys.put ParamDef.alias_ replace pd (list.paramsOf provider)
      else list.paramsOf other := by
  rw [paramsOf, find?_addParamDefWith]
  split
  · rfl
  · rfl

theorem addsDefinition : AddsDefinition list pd provider replace where
  returns := list.addParamDefWith_fst pd provider replace
  kept := by
    rw [addParamDefWith_fst]
    intro fails
    rw [Bool.or_eq_false_iff, Bool.not_eq_false'] at fails
    rw [fails.2, addParamDefWith_false, addParamDef, fails.1, if_pos rfl]
  definition_eq := by
    rw [addParamDefWith_fst]
    intro succeeds other alias_
    rw [definition_eq_first?, paramsOf_addParamDefWith]
    by_cases sameKey : providerKey other = providerKey provider
    · rw [if_pos sameKey]
      have sameParams := list.paramsOf_congr sameKey
      by_cases same : alias_ = pd.alias_
      · rw [if_pos ⟨sameKey, same⟩, same, UniqueKeys.first?_put_self]
        cases replace with
        | true => rfl
        | false =>
            rw [Bool.or_false, Bool.not_eq_true', hasParam_eq, Option.isSome_eq_false_iff,
              Option.isNone_iff_eq_none] at succeeds
            rw [← definition_eq_first?, succeeds, if_neg Bool.false_ne_true, Option.getD_none]
      · rw [if_neg fun both => same both.2, UniqueKeys.first?_put_of_ne same, ← sameParams,
          ← definition_eq_first?]
    · rw [if_neg sameKey, if_neg fun both => sameKey both.1, definition_eq_first?]

end Additions

/-! ## Merges -/

section Merges

variable (replace : Bool)

/-- The additions of `merge` for a provider that has definitions. -/
def addAll (provider : Bytes) (params : List (ParamDef F)) (list : ParamDefList F) :
    ParamDefList F :=
  params.foldl (fun list param => (list.addParamDefWith param provider replace).2) list

variable {replace}

theorem find?_addAll {provider key : Bytes} (params : List (ParamDef F)) (list : ParamDefList F)
    {own : List (ParamDef F)} (held : list.defs.find? (providerKey provider) = some own) :
    (addAll replace provider params list).defs.find? key =
      if key = providerKey provider then
        some (UniqueKeys.putAll ParamDef.alias_ replace own params)
      else list.defs.find? key := by
  induction params generalizing list own with
  | nil =>
      split
      case isTrue isKey =>
        rw [isKey, addAll, List.foldl_nil, held, UniqueKeys.putAll, List.foldl_nil]
      case isFalse => rfl
  | cons param rest ih =>
      have paramsOf_eq : list.paramsOf provider = own := by
        rw [paramsOf, held, Option.getD_some]
      have added : (list.addParamDefWith param provider replace).2.defs.find?
          (providerKey provider) = some (UniqueKeys.put ParamDef.alias_ replace param own) := by
        rw [find?_addParamDefWith, if_pos rfl, paramsOf_eq]
      rw [addAll, List.foldl_cons, ← addAll, ih _ added]
      split
      case isTrue => rfl
      case isFalse other => rw [find?_addParamDefWith, if_neg other]

theorem providerGroups_addAll (provider : Bytes) (params : List (ParamDef F))
    (list : ParamDefList F) :
    (addAll replace provider params list).providerGroups = list.providerGroups := by
  induction params generalizing list with
  | nil => rfl
  | cons param rest ih =>
      rw [addAll, List.foldl_cons, ← addAll, ih, providerGroups_addParamDefWith]

variable (replace) in
/-- The step of `mergeWith` for the parameters of one provider. -/
def mergeProviderWith (merged : ParamDefList F) (entry : Bytes × List (ParamDef F)) :
    ParamDefList F :=
  match merged.defs.find? entry.1 with
  | none => { merged with defs := merged.defs.insert entry.1 entry.2 }
  | some _ => addAll replace entry.1 entry.2 merged

theorem mergeWith_eq_foldl (list other : ParamDefList F) :
    list.mergeWith other replace = other.defs.entries.foldl (mergeProviderWith replace) list := rfl

theorem find?_mergeProviderWith {entry : Bytes × List (ParamDef F)} (named : entry.1 ≠ [])
    (merged : ParamDefList F) (key : Bytes) :
    (mergeProviderWith replace merged entry).defs.find? key =
      if key = entry.1 then
        some ((merged.defs.find? entry.1).elim entry.2 fun own =>
          UniqueKeys.putAll ParamDef.alias_ replace own entry.2)
      else merged.defs.find? key := by
  cases held : merged.defs.find? entry.1 with
  | none =>
      simp only [mergeProviderWith, held, SortedMap.find?_insert, Option.elim_none]
      split
      · rfl
      · rfl
  | some own =>
      rw [← providerKey_of_ne_nil named] at held
      have added := @find?_addAll F replace entry.1 key entry.2 merged own held
      rw [providerKey_of_ne_nil named] at added held
      simp only [mergeProviderWith, held, Option.elim_some]
      exact added

theorem providerGroups_mergeWith (list other : ParamDefList F) :
    (list.mergeWith other replace).providerGroups = list.providerGroups := by
  rw [mergeWith_eq_foldl]
  induction other.defs.entries generalizing list with
  | nil => rfl
  | cons entry rest ih =>
      rw [List.foldl_cons, ih, mergeProviderWith]
      split
      · rfl
      · rw [providerGroups_addAll]

/-- A merge puts the definitions of each provider into those of the first list. -/
theorem find?_mergeWith (list : ParamDefList F) {other : ParamDefList F} (filed : other.Filed)
    (key : Bytes) :
    (list.mergeWith other replace).defs.find? key =
      (other.defs.find? key).elim (list.defs.find? key) fun params =>
        some ((list.defs.find? key).elim params fun own =>
          UniqueKeys.putAll ParamDef.alias_ replace own params) := by
  let step (merged : ParamDefList F) (entry : Bytes × List (ParamDef F)) : ParamDefList F :=
    if entry.1 = [] then merged else mergeProviderWith replace merged entry
  have steps : other.defs.entries.foldl (mergeProviderWith replace) list =
      other.defs.entries.foldl step list := by
    apply List.foldl_ext
    intro merged entry member
    have named := SortedMap.find?_eq_none_iff.mp filed entry member
    rw [show step merged entry = _ from if_neg named]
  have frame : ∀ (merged : ParamDefList F) (entry : Bytes × List (ParamDef F)), key ≠ entry.1 →
      (step merged entry).defs.find? key = merged.defs.find? key := by
    intro merged entry different
    by_cases empty : entry.1 = []
    · rw [show step merged entry = merged from if_pos empty]
    · rw [show step merged entry = _ from if_neg empty, find?_mergeProviderWith empty,
        if_neg different]
  have effect : ∀ (merged : ParamDefList F) (params : List (ParamDef F)),
      (step merged (key, params)).defs.find? key =
        if key = [] then merged.defs.find? key
        else some ((merged.defs.find? key).elim params fun own =>
          UniqueKeys.putAll ParamDef.alias_ replace own params) := by
    intro merged params
    by_cases empty : key = []
    · rw [show step merged (key, params) = merged from if_pos empty, if_pos empty]
    · rw [show step merged (key, params) = _ from if_neg empty, if_neg empty,
        find?_mergeProviderWith empty, if_pos rfl]
  have folded := SortedMap.foldl_entries (fun merged : ParamDefList F => merged.defs.find? key)
    (fun held params => if key = [] then held
      else some (held.elim params fun own =>
        UniqueKeys.putAll ParamDef.alias_ replace own params)) frame effect other.defs list
  rw [mergeWith_eq_foldl, steps, folded]
  cases found : other.defs.find? key with
  | none => rfl
  | some params =>
      have named : key ≠ [] := by
        intro isNil
        rw [isNil, show other.defs.find? [] = none from filed] at found
        cases found
      rw [Option.elim_some, Option.elim_some, if_neg named]

end Merges

/-! ## Built lists -/

section BuiltLists

variable {list other : ParamDefList F} {replace : Bool}

theorem eq_of_defs {left right : ParamDefList F} (defs : left.defs = right.defs)
    (groups : left.providerGroups = right.providerGroups) : left = right := by
  cases left
  cases right
  cases defs
  cases groups
  rfl

theorem OnePerAlias.of_find? (once : list.OnePerAlias) {key : Bytes} {params : List (ParamDef F)}
    (held : list.defs.find? key = some params) : (params.map ParamDef.alias_).Nodup :=
  once (key, params) (SortedMap.mem_entries_iff.mpr held)

theorem onePerAlias_of_find?
    (each : ∀ key params, list.defs.find? key = some params →
      (params.map ParamDef.alias_).Nodup) : list.OnePerAlias := by
  intro entry member
  exact each entry.1 entry.2 (SortedMap.mem_entries_iff.mp member)

theorem OnePerAlias.paramsOf (once : list.OnePerAlias) (provider : Bytes) :
    ((list.paramsOf provider).map ParamDef.alias_).Nodup := by
  rw [ParamDefList.paramsOf]
  cases held : list.defs.find? (providerKey provider) with
  | none => exact List.nodup_nil
  | some params => exact once.of_find? held

theorem OnePerAlias.addParamDefWith (once : list.OnePerAlias) (pd : ParamDef F)
    (provider : Bytes) : (list.addParamDefWith pd provider replace).2.OnePerAlias := by
  apply onePerAlias_of_find?
  intro key params held
  rw [find?_addParamDefWith] at held
  split at held
  · cases held
    exact UniqueKeys.nodup_put (once.paramsOf provider)
  · exact once.of_find? held

theorem Filed.addParamDefWith (filed : list.Filed) (pd : ParamDef F) (provider : Bytes) :
    (list.addParamDefWith pd provider replace).2.Filed := by
  rw [Filed, find?_addParamDefWith, if_neg (providerKey_ne_nil provider).symm]
  exact filed

theorem OnePerAlias.mergeWith (once : list.OnePerAlias) (otherOnce : other.OnePerAlias)
    (otherFiled : other.Filed) : (list.mergeWith other replace).OnePerAlias := by
  apply onePerAlias_of_find?
  intro key params held
  rw [find?_mergeWith list otherFiled] at held
  cases found : other.defs.find? key with
  | none =>
      rw [found, Option.elim_none] at held
      exact once.of_find? held
  | some added =>
      rw [found, Option.elim_some] at held
      cases ownFound : list.defs.find? key with
      | none =>
          rw [ownFound, Option.elim_none] at held
          cases held
          exact otherOnce.of_find? found
      | some own =>
          rw [ownFound, Option.elim_some] at held
          cases held
          exact UniqueKeys.nodup_putAll (once.of_find? ownFound)

theorem Filed.mergeWith (filed : list.Filed) (otherFiled : other.Filed) :
    (list.mergeWith other replace).Filed := by
  rw [Filed, find?_mergeWith list otherFiled, show other.defs.find? [] = none from otherFiled,
    Option.elim_none]
  exact filed

theorem Built.invariant (built : Built list) : list.OnePerAlias ∧ list.Filed := by
  induction built with
  | empty =>
      constructor
      · intro entry member
        cases member
      · rfl
  | addParamDef _ pd provider replace ih =>
      exact ⟨ih.1.addParamDefWith pd provider, ih.2.addParamDefWith pd provider⟩
  | merge _ _ replace ih otherIh =>
      exact ⟨ih.1.mergeWith otherIh.1 otherIh.2, ih.2.mergeWith otherIh.2⟩

theorem definition_mergeWith (otherOnce : other.OnePerAlias) (otherFiled : other.Filed)
    (provider alias_ : Bytes) :
    (list.mergeWith other replace).definition provider alias_ =
      if replace then (other.definition provider alias_).or (list.definition provider alias_)
      else (list.definition provider alias_).or (other.definition provider alias_) := by
  simp only [definition_eq_first?, paramsOf, find?_mergeWith list otherFiled]
  cases found : other.defs.find? (providerKey provider) with
  | none => simp [UniqueKeys.first?]
  | some params =>
      cases list.defs.find? (providerKey provider) with
      | none => simp [UniqueKeys.first?]
      | some own => exact UniqueKeys.first?_putAll (otherOnce.of_find? found) alias_

theorem mergeWith_mergeWith (otherOnce : other.OnePerAlias) (otherFiled : other.Filed) :
    (list.mergeWith other replace).mergeWith other replace = list.mergeWith other replace := by
  have groups : ((list.mergeWith other replace).mergeWith other replace).providerGroups =
      (list.mergeWith other replace).providerGroups := providerGroups_mergeWith _ other
  have defs : ((list.mergeWith other replace).mergeWith other replace).defs =
      (list.mergeWith other replace).defs := by
    apply SortedMap.ext_find?
    intro key
    rw [find?_mergeWith _ otherFiled, find?_mergeWith list otherFiled]
    cases found : other.defs.find? key with
    | none => rfl
    | some params =>
        have distinct := otherOnce.of_find? found
        cases list.defs.find? key with
        | none =>
            simp only [Option.elim_some, Option.elim_none]
            rw [UniqueKeys.putAll_self distinct]
        | some own =>
            simp only [Option.elim_some]
            rw [UniqueKeys.putAll_putAll distinct]
  exact eq_of_defs defs groups

theorem mergesDefinitions (otherOnce : other.OnePerAlias) (otherFiled : other.Filed) :
    MergesDefinitions list other replace where
  definition_eq := definition_mergeWith otherOnce otherFiled
  hasParam_eq alias_ provider := by
    rw [hasParam_eq, definition_mergeWith otherOnce otherFiled, hasParam_eq, hasParam_eq]
    cases replace with
    | true => rw [if_pos rfl, Option.isSome_or, Bool.or_comm]
    | false => rw [if_neg Bool.false_ne_true, Option.isSome_or]
  again := mergeWith_mergeWith otherOnce otherFiled

/-- What `addParamDef` and `merge` build has one definition per alias, and both go on so. -/
theorem Built.keepsDefinitions (built : Built list) :
    list.OnePerAlias ∧ (∀ pd provider replace, AddsDefinition list pd provider replace) ∧
      ∀ other, Built other → ∀ replace, MergesDefinitions list other replace := by
  refine ⟨built.invariant.1, list.addsDefinition, ?_⟩
  intro other otherBuilt replace
  exact mergesDefinitions otherBuilt.invariant.1 otherBuilt.invariant.2

end BuiltLists

/-- The relative humidity in a unit. -/
def humidity (unit : String) : ParamDef ℚ where
  alias_ := Bytes.str "RH2M"
  valueparametername := Bytes.str "relative humidity"
  valueparameterunit := Bytes.str unit
  levelparametername := Bytes.str "height above ground"
  levelfrom := 2
  levelto := 2
  levelunitname := Bytes.str "m"
  scale := 1
  offset := 0
  dataversion := 0
  compare := .undef
  compareValue := 0
  interpolation := Bytes.str "nearest"

/-- A list with the humidity of the default provider. -/
def humidityList (unit : String) : ParamDefList ℚ :=
  ((∅ : ParamDefList ℚ).addParamDefWith (humidity unit) [] false).2

theorem humidityList_built (unit : String) : Built (humidityList unit) :=
  Built.empty.addParamDef (humidity unit) [] false

/-- Two files define the humidity in different units. -/
theorem keepsDefinitions_humidity :
    (humidityList "%").OnePerAlias ∧ AddsDefinition (humidityList "%") (humidity "1") [] false ∧
      MergesDefinitions (humidityList "%") (humidityList "1") true := by
  have kept := (humidityList_built "%").keepsDefinitions
  exact ⟨kept.1, kept.2.1 _ _ _, kept.2.2 _ (humidityList_built "1") true⟩

end ParamDefList

end Wdb2ts
