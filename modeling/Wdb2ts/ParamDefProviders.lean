import Wdb2ts.ParamDefMerge

/-!
# Definitions for several providers

`ParamDefConfig::addParamDef` adds a definition provider by provider.  It returns at the first
provider that has the alias, and leaves the definitions that it has added before.
-/

namespace Wdb2ts

variable {F : Type}

namespace ParamDefConfig

open ParamDefList

/-- The definitions that a configuration has for an id and a provider. -/
def paramsOf (config : ParamDefConfig F) (paramdefId provider : Bytes) : List (ParamDef F) :=
  (ParamDefConfig.paramDefs config paramdefId).paramsOf provider

/-- Each list is built by `addParamDef` and `merge`. -/
def BuiltLists (config : ParamDefConfig F) : Prop :=
  ∀ id list, config.find? id = some list → list.Built

/-- The providers that a call names.  Without any it is the default provider. -/
def named (provider : List Bytes) : List Bytes := if provider.isEmpty then [[]] else provider

/-- The provider has the definition, and no other one with its alias. -/
def DefinesOnce (config : ParamDefConfig F) (paramdefId provider : Bytes) (pd : ParamDef F) :
    Prop :=
  ((ParamDefConfig.paramsOf config paramdefId provider).filter fun param =>
    param.alias_ = pd.alias_) = [pd]

/-- Does the provider have a definition with the alias? -/
def Defines (config : ParamDefConfig F) (paramdefId provider alias_ : Bytes) : Prop :=
  ∃ param ∈ ParamDefConfig.paramsOf config paramdefId provider, param.alias_ = alias_

/-- Each named provider has the definition once, or no list is changed. -/
def AllOrNothing (config : ParamDefConfig F) (paramdefId : Bytes) (pd : ParamDef F)
    (provider : List Bytes) (replace : Bool) : Prop :=
  let added := ParamDefConfig.addParamDef config paramdefId pd provider replace
  (added.1 = none ∧ ∀ name ∈ named provider, DefinesOnce added.2 paramdefId name pd) ∨
    (added.1.isSome ∧ ∀ id other,
      ParamDefConfig.paramsOf added.2 id other = ParamDefConfig.paramsOf config id other)

/-- The call stops at a provider of the list that has the alias when its turn comes.  Those before
it, which have no definition with the alias, get one, and all else is as before. -/
structure StopsAt (config after : ParamDefConfig F) (paramdefId : Bytes) (pd : ParamDef F)
    (front : List Bytes) (name : Bytes) : Prop where
  fresh : ∀ earlier ∈ front, ¬Defines config paramdefId earlier pd.alias_
  distinct : (front.map providerKey).Nodup
  taken : Defines config paramdefId name pd.alias_ ∨ providerKey name ∈ front.map providerKey
  paramsOf_eq : ∀ id other, ParamDefConfig.paramsOf after id other =
    if id = paramdefId ∧ providerKey other ∈ front.map providerKey then
      ParamDefConfig.paramsOf config id other ++ [pd]
    else ParamDefConfig.paramsOf config id other

/-- A call that succeeds has defined the parameter once for all named providers.  One that fails is
without replacement, and has stopped at the first provider with the alias. -/
def AllOrStopped (config : ParamDefConfig F) (paramdefId : Bytes) (pd : ParamDef F)
    (provider : List Bytes) (replace : Bool) : Prop :=
  let added := ParamDefConfig.addParamDef config paramdefId pd provider replace
  (added.1 = none ∧ ∀ name ∈ named provider, DefinesOnce added.2 paramdefId name pd) ∨
    (added.1.isSome ∧ replace = false ∧ ∃ front name rest,
      named provider = front ++ name :: rest ∧ StopsAt config added.2 paramdefId pd front name)

/-! ## One provider -/

section OneProvider

theorem paramsOf_congr (config : ParamDefConfig F) (paramdefId : Bytes) {provider other : Bytes}
    (sameKey : providerKey provider = providerKey other) :
    ParamDefConfig.paramsOf config paramdefId provider =
      ParamDefConfig.paramsOf config paramdefId other :=
  (ParamDefConfig.paramDefs config paramdefId).paramsOf_congr sameKey

variable (paramdefId : Bytes) (pd : ParamDef F) (replace : Bool) (provider shown : Bytes)
  (config : ParamDefConfig F)

theorem addToProvider_isSome_iff :
    (addToProvider paramdefId pd replace provider shown config).1.isSome = true ↔
      Defines config paramdefId provider pd.alias_ ∧ replace = false := by
  have defines : Defines config paramdefId provider pd.alias_ ↔
      (ParamDefConfig.paramDefs config paramdefId).hasParam pd.alias_ provider = true :=
    hasParam_iff.symm
  rw [defines, addToProvider]
  simp only [addParamDefWith_fst]
  cases (ParamDefConfig.paramDefs config paramdefId).hasParam pd.alias_ provider with
  | true => cases replace <;> simp
  | false => simp

/-- The definition is put into the list of the provider. -/
theorem paramsOf_addToProvider (id other : Bytes) :
    ParamDefConfig.paramsOf (addToProvider paramdefId pd replace provider shown config).2 id other =
      if id = paramdefId ∧ providerKey other = providerKey provider then
        UniqueKeys.put ParamDef.alias_ replace pd
          (ParamDefConfig.paramsOf config paramdefId provider)
      else ParamDefConfig.paramsOf config id other := by
  by_cases sameId : id = paramdefId
  · subst sameId
    rw [ParamDefConfig.paramsOf, ParamDefConfig.paramDefs, addToProvider,
      SortedMap.find?_insert_self, Option.getD_some, paramsOf_addParamDefWith]
    by_cases sameKey : providerKey other = providerKey provider
    · rw [if_pos sameKey, if_pos ⟨rfl, sameKey⟩, ParamDefConfig.paramsOf]
    · rw [if_neg sameKey, if_neg fun both => sameKey both.2, ParamDefConfig.paramsOf]
  · rw [if_neg fun both => sameId both.1, ParamDefConfig.paramsOf, ParamDefConfig.paramDefs,
      addToProvider, SortedMap.find?_insert_of_ne _ sameId, ParamDefConfig.paramsOf,
      ParamDefConfig.paramDefs]

variable {paramdefId pd replace provider shown config}

theorem BuiltLists.paramDefs (built : BuiltLists config) (id : Bytes) :
    (ParamDefConfig.paramDefs config id).Built := by
  rw [ParamDefConfig.paramDefs]
  cases found : SortedMap.find? config id with
  | none => exact Built.empty
  | some list => exact built id list found

theorem BuiltLists.addToProvider (built : BuiltLists config) :
    BuiltLists (addToProvider paramdefId pd replace provider shown config).2 := by
  intro id list found
  rw [ParamDefConfig.addToProvider] at found
  by_cases sameId : id = paramdefId
  · subst sameId
    rw [SortedMap.find?_insert_self] at found
    cases found
    exact (built.paramDefs id).addParamDef pd provider replace
  · rw [SortedMap.find?_insert_of_ne _ sameId] at found
    exact built id list found

/-- What the provider has after an addition. -/
theorem first?_addToProvider {other : Bytes} (sameKey : providerKey other = providerKey provider)
    (succeeds : (addToProvider paramdefId pd replace provider shown config).1 = none) :
    UniqueKeys.first? ParamDef.alias_
      (ParamDefConfig.paramsOf (addToProvider paramdefId pd replace provider shown config).2
        paramdefId other) pd.alias_ = some pd := by
  rw [paramsOf_addToProvider, if_pos ⟨rfl, sameKey⟩, UniqueKeys.first?_put_self]
  cases replace with
  | true => rfl
  | false =>
      have fresh : ¬Defines config paramdefId provider pd.alias_ := by
        intro defines
        have fails := (addToProvider_isSome_iff paramdefId pd false provider shown config).mpr
          ⟨defines, rfl⟩
        rw [succeeds] at fails
        cases fails
      have absent : UniqueKeys.first? ParamDef.alias_
          (ParamDefConfig.paramsOf config paramdefId provider) pd.alias_ = none := by
        rw [UniqueKeys.first?_eq_none_iff, List.mem_map]
        exact fresh
      rw [if_neg Bool.false_ne_true, absent, Option.getD_none]

/-- A definition is appended for a provider without the alias. -/
theorem paramsOf_addToProvider_fresh
    (fresh : ¬Defines config paramdefId provider pd.alias_) (id other : Bytes) :
    ParamDefConfig.paramsOf (addToProvider paramdefId pd replace provider shown config).2 id other =
      if id = paramdefId ∧ providerKey other = providerKey provider then
        ParamDefConfig.paramsOf config id other ++ [pd]
      else ParamDefConfig.paramsOf config id other := by
  have absent : pd.alias_ ∉
      (ParamDefConfig.paramsOf config paramdefId provider).map ParamDef.alias_ := by
    rw [List.mem_map]
    exact fresh
  rw [paramsOf_addToProvider, UniqueKeys.put_of_notMem absent]
  split
  case isTrue same => rw [same.1, ParamDefConfig.paramsOf_congr config paramdefId same.2]
  case isFalse => rfl

/-- A provider that has the alias keeps its definitions. -/
theorem paramsOf_addToProvider_taken
    (taken : Defines config paramdefId provider pd.alias_) (id other : Bytes) :
    ParamDefConfig.paramsOf (addToProvider paramdefId pd false provider shown config).2 id other =
      ParamDefConfig.paramsOf config id other := by
  have held : pd.alias_ ∈
      (ParamDefConfig.paramsOf config paramdefId provider).map ParamDef.alias_ := by
    rw [List.mem_map]
    exact taken
  rw [paramsOf_addToProvider, UniqueKeys.put_of_mem held]
  split
  case isTrue same => rw [same.1, ParamDefConfig.paramsOf_congr config paramdefId same.2]
  case isFalse => rfl

theorem defines_addToProvider_iff
    (fresh : ¬Defines config paramdefId provider pd.alias_) {other : Bytes} :
    Defines (addToProvider paramdefId pd replace provider shown config).2 paramdefId other
        pd.alias_ ↔
      Defines config paramdefId other pd.alias_ ∨ providerKey other = providerKey provider := by
  rw [Defines, paramsOf_addToProvider_fresh fresh]
  by_cases same : providerKey other = providerKey provider
  · rw [if_pos ⟨rfl, same⟩]
    constructor
    · exact fun _ => Or.inr same
    · exact fun _ => ⟨pd, List.mem_append_right _ (List.mem_singleton_self pd), rfl⟩
  · rw [if_neg fun both => same both.2, Defines, or_iff_left same]

/-- A definition stays when it is added to another provider. -/
theorem first?_addToProvider_kept {other : Bytes}
    (held : UniqueKeys.first? ParamDef.alias_
      (ParamDefConfig.paramsOf config paramdefId other) pd.alias_ = some pd) :
    UniqueKeys.first? ParamDef.alias_
      (ParamDefConfig.paramsOf (addToProvider paramdefId pd replace provider shown config).2
        paramdefId other) pd.alias_ = some pd := by
  rw [paramsOf_addToProvider]
  split
  case isTrue same =>
    rw [UniqueKeys.first?_put_self, ← ParamDefConfig.paramsOf_congr config paramdefId same.2, held,
      Option.getD_some, ite_self]
  case isFalse => exact held

end OneProvider

/-! ## All providers -/

section AllProviders

variable {paramdefId : Bytes} {pd : ParamDef F} {replace : Bool} {config : ParamDefConfig F}
  {names : List Bytes}

theorem addToProviders_cons_of_fails {it : Bytes} {rest : List Bytes}
    (fails : (addToProvider paramdefId pd replace it it config).1.isSome = true) :
    addToProviders paramdefId pd replace (it :: rest) config =
      addToProvider paramdefId pd replace it it config := if_pos fails

theorem addToProviders_cons_of_succeeds {it : Bytes} {rest : List Bytes}
    (succeeds : (addToProvider paramdefId pd replace it it config).1 = none) :
    addToProviders paramdefId pd replace (it :: rest) config =
      addToProviders paramdefId pd replace rest
        (addToProvider paramdefId pd replace it it config).2 := by
  rw [addToProviders, succeeds, Option.isSome_none, if_neg Bool.false_ne_true]

/-- What every addition to one provider keeps, the loop keeps. -/
theorem addToProviders_keeps {kept : ParamDefConfig F → Prop}
    (step : ∀ it config, kept config → kept (addToProvider paramdefId pd replace it it config).2)
    (start : kept config) : kept (addToProviders paramdefId pd replace names config).2 := by
  induction names generalizing config with
  | nil => exact start
  | cons it rest ih =>
      cases first : (addToProvider paramdefId pd replace it it config).1 with
      | some msg =>
          rw [addToProviders_cons_of_fails (Option.isSome_of_eq_some first)]
          exact step it config start
      | none =>
          rw [addToProviders_cons_of_succeeds first]
          exact ih (step it config start)

theorem BuiltLists.addToProviders (built : BuiltLists config) :
    BuiltLists (addToProviders paramdefId pd replace names config).2 :=
  addToProviders_keeps (fun _ _ before => before.addToProvider) built

theorem first?_addToProviders_kept {other : Bytes}
    (held : UniqueKeys.first? ParamDef.alias_
      (ParamDefConfig.paramsOf config paramdefId other) pd.alias_ = some pd) :
    UniqueKeys.first? ParamDef.alias_
      (ParamDefConfig.paramsOf (addToProviders paramdefId pd replace names config).2
        paramdefId other) pd.alias_ = some pd := by
  have step : ∀ it (config : ParamDefConfig F),
      UniqueKeys.first? ParamDef.alias_
        (ParamDefConfig.paramsOf config paramdefId other) pd.alias_ = some pd →
      UniqueKeys.first? ParamDef.alias_
        (ParamDefConfig.paramsOf (addToProvider paramdefId pd replace it it config).2
          paramdefId other) pd.alias_ = some pd :=
    fun _ _ before => first?_addToProvider_kept before
  exact addToProviders_keeps step held

/-- When all additions succeed, each of the providers has the definition. -/
theorem first?_addToProviders
    (succeeds : (addToProviders paramdefId pd replace names config).1 = none) {name : Bytes}
    (member : name ∈ names) :
    UniqueKeys.first? ParamDef.alias_
      (ParamDefConfig.paramsOf (addToProviders paramdefId pd replace names config).2
        paramdefId name) pd.alias_ = some pd := by
  induction names generalizing config with
  | nil => cases member
  | cons it rest ih =>
      cases first : (addToProvider paramdefId pd replace it it config).1 with
      | some msg =>
          rw [addToProviders_cons_of_fails (Option.isSome_of_eq_some first), first] at succeeds
          cases succeeds
      | none =>
          rw [addToProviders_cons_of_succeeds first] at succeeds ⊢
          rcases List.mem_cons.mp member with isFirst | isLater
          · rw [isFirst]
            exact first?_addToProviders_kept (first?_addToProvider rfl first)
          · exact ih succeeds isLater

/-- One more provider in front of those that have got the definition. -/
theorem StopsAt.cons {after : ParamDefConfig F} {it name : Bytes} {front : List Bytes}
    (fresh : ¬Defines config paramdefId it pd.alias_)
    (stops : StopsAt (addToProvider paramdefId pd replace it it config).2 after paramdefId pd front
      name) : StopsAt config after paramdefId pd (it :: front) name where
  fresh := by
    intro earlier member
    rcases List.mem_cons.mp member with isFirst | isLater
    · rw [isFirst]
      exact fresh
    · intro defines
      exact stops.fresh earlier isLater ((defines_addToProvider_iff fresh).mpr (Or.inl defines))
  distinct := by
    rw [List.map_cons, List.nodup_cons]
    refine ⟨?_, stops.distinct⟩
    intro member
    rcases List.mem_map.mp member with ⟨earlier, isLater, same⟩
    exact stops.fresh earlier isLater ((defines_addToProvider_iff fresh).mpr (Or.inr same))
  taken := by
    rw [List.map_cons, List.mem_cons, ← or_assoc, ← defines_addToProvider_iff fresh]
    exact stops.taken
  paramsOf_eq := by
    intro id other
    rw [stops.paramsOf_eq, paramsOf_addToProvider_fresh fresh, List.map_cons]
    by_cases isFront : id = paramdefId ∧ providerKey other ∈ front.map providerKey
    · have notFirst : providerKey other ≠ providerKey it := by
        intro same
        rcases List.mem_map.mp isFront.2 with ⟨earlier, isLater, sameKey⟩
        exact stops.fresh earlier isLater
          ((defines_addToProvider_iff fresh).mpr (Or.inr (sameKey.trans same)))
      rw [if_pos isFront, if_neg fun both => notFirst both.2,
        if_pos ⟨isFront.1, List.mem_cons_of_mem _ isFront.2⟩]
    · rw [if_neg isFront]
      have sameCases : (id = paramdefId ∧ providerKey other ∈ providerKey it ::
          front.map providerKey) ↔ id = paramdefId ∧ providerKey other = providerKey it := by
        rw [List.mem_cons, and_or_left, or_iff_left isFront]
      simp only [sameCases]

/-- A loop that fails leaves the definitions that it has added. -/
theorem exists_stopsAt
    (fails : (addToProviders paramdefId pd replace names config).1.isSome = true) :
    replace = false ∧ ∃ front name rest, names = front ++ name :: rest ∧
      StopsAt config (addToProviders paramdefId pd replace names config).2 paramdefId pd front
        name := by
  induction names generalizing config with
  | nil => cases fails
  | cons it rest ih =>
      cases first : (addToProvider paramdefId pd replace it it config).1 with
      | some msg =>
          have stopped := Option.isSome_of_eq_some first
          rcases (addToProvider_isSome_iff _ _ _ _ _ _).mp stopped with ⟨taken, isFalse⟩
          subst isFalse
          rw [addToProviders_cons_of_fails stopped]
          refine ⟨rfl, [], it, rest, rfl, ?_⟩
          exact
            { fresh := fun _ member => by cases member
              distinct := List.nodup_nil
              taken := Or.inl taken
              paramsOf_eq := by
                intro id other
                rw [paramsOf_addToProvider_taken taken, if_neg fun both => by cases both.2] }
      | none =>
          rw [addToProviders_cons_of_succeeds first] at fails ⊢
          rcases ih fails with ⟨isFalse, front, name, behind, split, stops⟩
          have fresh : ¬Defines config paramdefId it pd.alias_ := by
            intro defines
            have stopped := (addToProvider_isSome_iff paramdefId pd replace it it config).mpr
              ⟨defines, isFalse⟩
            rw [first] at stopped
            cases stopped
          exact ⟨isFalse, it :: front, name, behind, by rw [split, List.cons_append],
            stops.cons fresh⟩

end AllProviders

/-! ## Calls -/

section Calls

variable (paramdefId : Bytes) (pd : ParamDef F) (provider : List Bytes) (replace : Bool)
  (config : ParamDefConfig F)

/-- A call without providers is one for the default provider, with another message. -/
theorem addParamDef_eq :
    (ParamDefConfig.addParamDef config paramdefId pd provider replace).1.isSome =
        (addToProviders paramdefId pd replace (named provider) config).1.isSome ∧
      (ParamDefConfig.addParamDef config paramdefId pd provider replace).2 =
        (addToProviders paramdefId pd replace (named provider) config).2 := by
  cases provider with
  | cons it rest => exact ⟨rfl, rfl⟩
  | nil =>
      have isSome : (addToProvider paramdefId pd replace [] (Bytes.str "default") config).1.isSome =
          (addToProvider paramdefId pd replace [] [] config).1.isSome := by
        rw [Bool.eq_iff_iff, addToProvider_isSome_iff, addToProvider_isSome_iff]
      change (addToProvider paramdefId pd replace [] (Bytes.str "default") config).1.isSome =
          (addToProviders paramdefId pd replace [[]] config).1.isSome ∧
        (addToProvider paramdefId pd replace [] (Bytes.str "default") config).2 =
          (addToProviders paramdefId pd replace [[]] config).2
      rw [isSome]
      cases first : (addToProvider paramdefId pd replace [] [] config).1 with
      | some msg =>
          rw [addToProviders_cons_of_fails (Option.isSome_of_eq_some first), first]
          exact ⟨rfl, rfl⟩
      | none =>
          rw [addToProviders_cons_of_succeeds first]
          exact ⟨rfl, rfl⟩

variable {config}

/-- The definition is the only one with its alias when it is the first one. -/
theorem BuiltLists.definesOnce (built : BuiltLists config) {name : Bytes}
    (found : UniqueKeys.first? ParamDef.alias_
      (ParamDefConfig.paramsOf config paramdefId name) pd.alias_ = some pd) :
    DefinesOnce config paramdefId name pd := by
  have distinct : ((ParamDefConfig.paramsOf config paramdefId name).map ParamDef.alias_).Nodup :=
    (built.paramDefs paramdefId).invariant.1.paramsOf name
  rw [DefinesOnce, UniqueKeys.filter_key distinct, found, Option.toList_some]

/-- Additions to configurations whose lists are built define all, or stop. -/
theorem allOrStopped (built : BuiltLists config) :
    AllOrStopped config paramdefId pd provider replace := by
  rcases addParamDef_eq paramdefId pd provider replace config with ⟨sameResult, sameConfig⟩
  rw [AllOrStopped, sameConfig, ← Option.not_isSome_iff_eq_none, sameResult]
  cases fails : (addToProviders paramdefId pd replace (named provider) config).1.isSome with
  | true => exact Or.inr ⟨rfl, exists_stopsAt fails⟩
  | false =>
      refine Or.inl ⟨Bool.false_ne_true, ?_⟩
      intro name member
      have succeeds : (addToProviders paramdefId pd replace (named provider) config).1 = none := by
        rw [← Option.not_isSome_iff_eq_none, fails]
        exact Bool.false_ne_true
      exact built.addToProviders.definesOnce _ _ (first?_addToProviders succeeds member)

end Calls

/-- A configuration in which one provider has the humidity. -/
def humidityOf (provider : String) : ParamDefConfig ℚ :=
  (∅ : ParamDefConfig ℚ).insert []
    ((∅ : ParamDefList ℚ).addParamDefWith (humidity "%") (Bytes.str provider) false).2

theorem humidityOf_built (provider : String) : BuiltLists (humidityOf provider) := by
  intro id list found
  rw [humidityOf, SortedMap.find?_insert] at found
  split at found
  · cases found
    exact Built.empty.addParamDef _ _ _
  · cases found

theorem allOrStopped_humidityOf :
    AllOrStopped (humidityOf "ecmwf") [] (humidity "%") [Bytes.str "met.no", Bytes.str "ecmwf"]
      false :=
  allOrStopped _ _ _ _ (humidityOf_built "ecmwf")

/-- The second provider has the alias, and the first one keeps the definition. -/
theorem not_allOrNothing_humidityOf :
    ¬AllOrNothing (humidityOf "ecmwf") [] (humidity "%")
      [Bytes.str "met.no", Bytes.str "ecmwf"] false := by
  intro allOrNothing
  rcases allOrNothing with ⟨succeeds, _⟩ | ⟨_, unchanged⟩
  · have fails : (ParamDefConfig.addParamDef (humidityOf "ecmwf") [] (humidity "%")
        [Bytes.str "met.no", Bytes.str "ecmwf"] false).1 ≠ none := by decide +kernel
    exact fails succeeds
  · have changed : ParamDefConfig.paramsOf (ParamDefConfig.addParamDef (humidityOf "ecmwf") []
        (humidity "%") [Bytes.str "met.no", Bytes.str "ecmwf"] false).2 [] (Bytes.str "met.no") ≠
          ParamDefConfig.paramsOf (humidityOf "ecmwf") [] (Bytes.str "met.no") := by
      decide +kernel
    exact changed (unchanged [] (Bytes.str "met.no"))

end ParamDefConfig

end Wdb2ts
