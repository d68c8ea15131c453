import Wdb2ts.Floats
import Wdb2ts.ProviderList

/-!
# Parameter definitions

A `ParamDef` names a parameter of the database by an alias.  A `ParamDefList` has the
definitions of each provider, and a `ParamDefConfig` one such list for each id.
-/

namespace Wdb2ts

/-- `ParamDef::Compare`. -/
inductive Compare where
  | undef
  | greater
  | lesser
  | equal
  deriving DecidableEq, Repr

/-- `ParamDef`. -/
structure ParamDef (F : Type) where
  alias_ : Bytes
  valueparametername : Bytes
  valueparameterunit : Bytes
  levelparametername : Bytes
  levelfrom : ℤ
  levelto : ℤ
  levelunitname : Bytes
  scale : F
  offset : F
  dataversion : ℤ
  compare : Compare
  compareValue : ℤ
  interpolation : Bytes
  deriving DecidableEq, Repr

variable {F : Type}

/-- `ParamDef::hasLevelparameters`. -/
def ParamDef.hasLevelparameters (param : ParamDef F) : Bool :=
  !param.levelparametername.isEmpty && decide (param.levelfrom ≠ INT_MIN) &&
    decide (param.levelto ≠ INT_MIN)

/-- The key of the parameters that belong to no provider. -/
def defaultProvider : Bytes := Bytes.str "__DEFAULT__"

/-- `ParamDefList`: the parameters of each provider, and the lookup table of the provider
groups. -/
structure ParamDefList (F : Type) where
  defs : SortedMap Bytes (List (ParamDef F))
  providerGroups : SortedMap Bytes Bytes

/-- `ParamDefConfig`. -/
abbrev ParamDefConfig (F : Type) := SortedMap Bytes (ParamDefList F)

namespace ParamDefList

instance : EmptyCollection (ParamDefList F) := ⟨⟨∅, ∅⟩⟩

/-- The key of a provider. -/
def providerKey (provider : Bytes) : Bytes :=
  if provider.isEmpty then defaultProvider else provider

/-- The parameters of a provider, by its key. -/
def paramsOf (list : ParamDefList F) (provider : Bytes) : List (ParamDef F) :=
  (list.defs.find? (providerKey provider)).getD []

/-- `ParamDefList::hasParam`. -/
def hasParam (list : ParamDefList F) (alias_ provider : Bytes) : Bool :=
  (list.paramsOf provider).any fun param => param.alias_ = alias_

/-- `ParamDefList::addParamDef` without replacement.  Returns whether the parameter is added. -/
def addParamDef (list : ParamDefList F) (pd : ParamDef F) (provider : Bytes) :
    Bool × ParamDefList F :=
  if list.hasParam pd.alias_ provider then (false, list)
  else
    (true,
      { list with
        defs := list.defs.upsert (providerKey provider) fun params => params.getD [] ++ [pd] })

/-- `ParamDefList::merge` without replacement. -/
def merge (list other : ParamDefList F) : ParamDefList F :=
  other.defs.entries.foldl
    (fun merged entry =>
      match merged.defs.find? entry.1 with
      | none => { merged with defs := merged.defs.insert entry.1 entry.2 }
      | some _ => entry.2.foldl (fun list param => (list.addParamDef param entry.1).2) merged)
    list

theorem hasParam_iff {list : ParamDefList F} {alias_ provider : Bytes} :
    list.hasParam alias_ provider = true ↔
      ∃ param ∈ list.paramsOf provider, param.alias_ = alias_ := by
  simp [hasParam]

theorem paramsOf_congr (list : ParamDefList F) {provider other : Bytes}
    (same : providerKey provider = providerKey other) :
    list.paramsOf provider = list.paramsOf other := by
  rw [paramsOf, paramsOf, same]

/-- The parameters of a provider behind an addition. -/
theorem paramsOf_addParamDef (list : ParamDefList F) (pd : ParamDef F)
    (provider other : Bytes) :
    (list.addParamDef pd provider).2.paramsOf other =
      if providerKey other = providerKey provider ∧ list.hasParam pd.alias_ provider = false then
        list.paramsOf other ++ [pd]
      else list.paramsOf other := by
  simp only [addParamDef]
  cases defined : list.hasParam pd.alias_ provider with
  | true => simp
  | false =>
      simp only [paramsOf, Bool.false_eq_true, if_false, SortedMap.find?_upsert, and_true]
      by_cases same : providerKey other = providerKey provider
      · simp [same]
      · simp [same]

/-! ## Merged definitions -/

/-- The definition of a parameter for a provider. -/
def definition (list : ParamDefList F) (provider alias_ : Bytes) : Option (ParamDef F) :=
  (list.paramsOf provider).find? fun param => param.alias_ = alias_

/-- No parameters are kept under the empty provider, which `addParamDef` never files under. -/
def Filed (list : ParamDefList F) : Prop := list.defs.find? [] = none

theorem hasParam_eq (list : ParamDefList F) (alias_ provider : Bytes) :
    list.hasParam alias_ provider = (list.definition provider alias_).isSome := by
  rw [definition, List.isSome_find?, hasParam]

theorem providerKey_ne_nil (provider : Bytes) : providerKey provider ≠ [] := by
  rw [providerKey]
  split
  · decide
  · next named => simpa using named

theorem providerKey_of_ne_nil {provider : Bytes} (named : provider ≠ []) :
    providerKey provider = provider := by
  rw [providerKey, if_neg (by simpa using named)]

theorem Filed.addParamDef {list : ParamDefList F} (filed : list.Filed) (pd : ParamDef F)
    (provider : Bytes) : (list.addParamDef pd provider).2.Filed := by
  rw [ParamDefList.addParamDef]
  split
  · exact filed
  · rw [Filed, SortedMap.find?_upsert, if_neg (providerKey_ne_nil provider).symm]
    exact filed

/-- An added parameter defines its alias when nothing did. -/
theorem definition_addParamDef (list : ParamDefList F) (pd : ParamDef F) (provider alias_ : Bytes) :
    (list.addParamDef pd provider).2.definition provider alias_ =
      (list.definition provider alias_).or (if pd.alias_ = alias_ then some pd else none) := by
  rw [definition, paramsOf_addParamDef, hasParam_eq]
  cases defined : list.definition provider pd.alias_ with
  | some param =>
      rw [if_neg (by simp)]
      by_cases same : pd.alias_ = alias_
      · rw [← definition, ← same, defined, Option.some_or]
      · rw [if_neg same, Option.or_none, definition]
  | none =>
      rw [if_pos ⟨rfl, rfl⟩, List.find?_append, ← definition]
      congr 1
      by_cases same : pd.alias_ = alias_ <;> simp [same]

/-- Parameters added one after the other define the aliases that had no definition. -/
theorem definition_addParamDefs (params : List (ParamDef F)) (list : ParamDefList F)
    (provider alias_ : Bytes) :
    (params.foldl (fun list param => (list.addParamDef param provider).2) list).definition provider
        alias_ =
      (list.definition provider alias_).or (params.find? fun param => param.alias_ = alias_) := by
  induction params generalizing list with
  | nil => simp
  | cons param rest ih =>
      rw [List.foldl_cons, ih, definition_addParamDef, Option.or_assoc, List.find?_cons]
      congr 1
      by_cases same : param.alias_ = alias_ <;> simp [same]

/-- The step of `merge` for the parameters of one provider. -/
def mergeProvider (merged : ParamDefList F) (entry : Bytes × List (ParamDef F)) : ParamDefList F :=
  match merged.defs.find? entry.1 with
  | none => { merged with defs := merged.defs.insert entry.1 entry.2 }
  | some _ => entry.2.foldl (fun list param => (list.addParamDef param entry.1).2) merged

theorem merge_eq_foldl (list other : ParamDefList F) :
    list.merge other = other.defs.entries.foldl mergeProvider list := rfl

/-- Parameters of another provider are left alone. -/
theorem definition_mergeProvider_of_ne {merged : ParamDefList F}
    {entry : Bytes × List (ParamDef F)} {provider : Bytes} (named : entry.1 ≠ [])
    (different : providerKey provider ≠ entry.1) (alias_ : Bytes) :
    (mergeProvider merged entry).definition provider alias_ = merged.definition provider alias_ := by
  have frame : ∀ (params : List (ParamDef F)) (list : ParamDefList F),
      (params.foldl (fun list param => (list.addParamDef param entry.1).2) list).paramsOf provider =
        list.paramsOf provider := by
    intro params
    induction params with
    | nil => exact fun _ => rfl
    | cons param rest ih =>
        intro list
        rw [List.foldl_cons, ih, paramsOf_addParamDef, providerKey_of_ne_nil named,
          if_neg fun both => different both.1]
  rw [mergeProvider, definition, definition]
  split
  · rw [paramsOf, SortedMap.find?_insert_of_ne _ different, paramsOf]
  · rw [frame]

/-- The parameters of a provider are added to those that are there. -/
theorem definition_mergeProvider_self (merged : ParamDefList F) (provider : Bytes)
    (params : List (ParamDef F)) (alias_ : Bytes) :
    (mergeProvider merged (providerKey provider, params)).definition provider alias_ =
      (merged.definition provider alias_).or
        (params.find? fun param => param.alias_ = alias_) := by
  have sameKey : ∀ list : ParamDefList F,
      list.definition (providerKey provider) alias_ = list.definition provider alias_ := by
    intro list
    rw [definition, paramsOf, providerKey_of_ne_nil (providerKey_ne_nil provider), ← paramsOf,
      definition]
  rw [mergeProvider]
  split
  · next absent =>
      simp [definition, paramsOf, absent]
  · rw [← sameKey, definition_addParamDefs, sameKey]

/-- Merged lists have the definitions of the first, and those of the second that it lacks. -/
theorem definition_merge (list : ParamDefList F) {other : ParamDefList F} (filed : other.Filed)
    (provider alias_ : Bytes) :
    (list.merge other).definition provider alias_ =
      (list.definition provider alias_).or (other.definition provider alias_) := by
  let step (merged : ParamDefList F) (entry : Bytes × List (ParamDef F)) : ParamDefList F :=
    if entry.1 = [] then merged else mergeProvider merged entry
  have steps : other.defs.entries.foldl mergeProvider list = other.defs.entries.foldl step list := by
    apply List.foldl_ext
    intro merged entry member
    have named := SortedMap.find?_eq_none_iff.mp filed entry member
    rw [show step merged entry = _ from if_neg named]
  have frame : ∀ (merged : ParamDefList F) (entry : Bytes × List (ParamDef F)),
      providerKey provider ≠ entry.1 →
        (step merged entry).definition provider alias_ = merged.definition provider alias_ := by
    intro merged entry different
    by_cases empty : entry.1 = []
    · rw [show step merged entry = merged from if_pos empty]
    · rw [show step merged entry = _ from if_neg empty,
        definition_mergeProvider_of_ne empty different]
  have effect : ∀ (merged : ParamDefList F) (params : List (ParamDef F)),
      (step merged (providerKey provider, params)).definition provider alias_ =
        (merged.definition provider alias_).or
          (params.find? fun param => param.alias_ = alias_) := by
    intro merged params
    rw [show step merged (providerKey provider, params) = _ from
      if_neg (providerKey_ne_nil provider), definition_mergeProvider_self]
  have folded := SortedMap.foldl_entries
    (fun merged : ParamDefList F => merged.definition provider alias_)
    (fun own params => own.or (params.find? fun param => param.alias_ = alias_)) frame effect
    other.defs list
  rw [merge_eq_foldl, steps, folded, definition.eq_def other, paramsOf]
  cases other.defs.find? (providerKey provider) with
  | none => simp
  | some params => rfl

end ParamDefList

/-- `ParamDefConfig::merge` without replacement. -/
def ParamDefConfig.merge (config other : ParamDefConfig F) : ParamDefConfig F :=
  other.entries.foldl
    (fun merged entry =>
      match merged.find? entry.1 with
      | none => merged.insert entry.1 entry.2
      | some own => merged.insert entry.1 (own.merge entry.2))
    config

/-- The definition of a parameter for an id and a provider. -/
def ParamDefConfig.definition (config : ParamDefConfig F) (id provider alias_ : Bytes) :
    Option (ParamDef F) :=
  (config.find? id).bind fun list => list.definition provider alias_

/-- The lists of each id, behind a merge. -/
theorem ParamDefConfig.find?_merge (config other : ParamDefConfig F) (id : Bytes) :
    (ParamDefConfig.merge config other).find? id =
      (other.find? id).elim (config.find? id) fun list =>
        some ((config.find? id).elim list fun own => own.merge list) := by
  refine SortedMap.foldl_entries (fun merged : ParamDefConfig F => SortedMap.find? merged id)
    (fun own list => some (own.elim list fun own => own.merge list)) ?_ ?_ other config
  · intro merged entry different
    split
    · exact SortedMap.find?_insert_of_ne merged different _
    · exact SortedMap.find?_insert_of_ne merged different _
  · intro merged list
    cases found : SortedMap.find? merged id with
    | none => simp
    | some own => simp

/-- Merged definitions are those of the first configuration, and those of the second that it
lacks. -/
theorem ParamDefConfig.definition_merge (config : ParamDefConfig F) {other : ParamDefConfig F}
    (filed : ∀ id list, other.find? id = some list → list.Filed) (id provider alias_ : Bytes) :
    (ParamDefConfig.merge config other).definition id provider alias_ =
      (ParamDefConfig.definition config id provider alias_).or
        (other.definition id provider alias_) := by
  rw [ParamDefConfig.definition, ParamDefConfig.find?_merge, ParamDefConfig.definition,
    ParamDefConfig.definition]
  cases found : other.find? id with
  | none => simp
  | some list =>
      cases config.find? id with
      | none => rfl
      | some own => exact own.definition_merge (filed id list found) provider alias_

end Wdb2ts
