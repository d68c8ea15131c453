import Wdb2ts.Floats
import Wdb2ts.Lib.Answers
import Wdb2ts.ProviderList

/-!
# Settings of providers

The symbols and the precipitation of a provider are configured for the provider, for its name
without the placename, or by default.  A lookup writes its answer into the table that it searches,
under the provider that was asked for.
-/

namespace Wdb2ts

namespace ProviderItem

/-- The name of a provider without its placename. -/
def nameWithoutPlacename (provider : Bytes) : Bytes := (decode provider).provider

theorem nameWithoutPlacename_of_noBracket {provider : Bytes} (absent : Bytes.chr '[' ∉ provider) :
    nameWithoutPlacename provider = provider := by
  rw [nameWithoutPlacename, decode, findByte_eq_none absent]

/-- The name in front of a placename is trimmed. -/
theorem nameWithoutPlacename_append {front : Bytes} (absent : Bytes.chr '[' ∉ front)
    (rest : Bytes) : nameWithoutPlacename (front ++ Bytes.chr '[' :: rest) = trim front := by
  rw [nameWithoutPlacename, decode, findByte_append absent]
  dsimp only
  rw [List.take_left]
  split
  · rfl
  · rfl

/-- A name without a placename has none to leave out. -/
theorem nameWithoutPlacename_idempotent (provider : Bytes) :
    nameWithoutPlacename (nameWithoutPlacename provider) = nameWithoutPlacename provider := by
  by_cases member : Bytes.chr '[' ∈ provider
  · obtain ⟨front, rest, rfl, absent⟩ := List.eq_append_cons_of_mem member
    rw [nameWithoutPlacename_append absent]
    apply nameWithoutPlacename_of_noBracket
    intro inTrimmed
    exact absent (Bytes.mem_of_mem_trimBy inTrimmed)
  · rw [nameWithoutPlacename_of_noBracket member, nameWithoutPlacename_of_noBracket member]

end ProviderItem

/-! ## Symbols -/

/-- A `SymbolConf`. -/
structure SymbolConf where
  min_ : ℤ
  max_ : ℤ
  precipHours_ : ℤ
  deriving DecidableEq, Repr

abbrev SymbolConfList := List SymbolConf

/-- A `SymbolConfProvider`, with the map that it is. -/
structure SymbolConfProvider where
  conf : SortedMap Bytes SymbolConfList
  defaultConf : SymbolConfList
  maxHours_ : ℤ

namespace SymbolConfProvider

/-- `SymbolConfProvider()`. -/
def create : SymbolConfProvider := ⟨∅, [], 0⟩

/-- `setDefaultConf`. -/
def setDefaultConf (conf : SymbolConfProvider) (default_ : SymbolConfList) : SymbolConfProvider :=
  { conf with defaultConf := default_ }

/-- The number of hours of a symbol, `h`. -/
def hoursOf (conf : SymbolConf) : ℤ :=
  if conf.min_ ≠ INT_MAX ∧ conf.max_ ≠ INT_MAX then
    if conf.min_ + conf.max_ = 0 then 1 else conf.min_ + conf.max_
  else if conf.precipHours_ ≠ INT_MAX then conf.precipHours_
  else 0

/-- `SymbolConfProvider::add`. -/
def add (conf : SymbolConfProvider) (provider : Bytes) (symbols : SymbolConfList) :
    SymbolConfProvider :=
  { conf with
    conf := conf.conf.insert provider symbols
    maxHours_ := symbols.foldl
      (fun maxHours symbol => if hoursOf symbol > maxHours then hoursOf symbol else maxHours)
      conf.maxHours_ }

/-- `SymbolConfProvider::get`, with the map that it leaves. -/
def get (conf : SymbolConfProvider) (provider : Bytes) : SymbolConfList × SymbolConfProvider :=
  match conf.conf.find? provider with
  | some found => (found, conf)
  | none =>
      let item := ProviderItem.decode provider
      match conf.conf.find? item.provider with
      | some found => (found, { conf with conf := conf.conf.insert provider found })
      | none =>
          let stored := { conf with conf := conf.conf.insert provider conf.defaultConf }
          ((stored.conf.find? provider).getD [], stored)

/-- The configuration after calls of `add`. -/
def afterAdds (conf : SymbolConfProvider) (adds : List (Bytes × SymbolConfList)) :
    SymbolConfProvider :=
  adds.foldl (fun conf added => conf.add added.1 added.2) conf

/-- The configuration after calls of `get`. -/
def afterGets (conf : SymbolConfProvider) (providers : List Bytes) : SymbolConfProvider :=
  providers.foldl (fun conf provider => (conf.get provider).2) conf

/-- What the table of a configuration answers for a provider. -/
def answer (conf : SymbolConfProvider) (provider : Bytes) : SymbolConfList :=
  conf.conf.answer ProviderItem.nameWithoutPlacename conf.defaultConf provider

/-- A lookup answers from the table, and stores the answer unless the provider is there. -/
theorem get_eq (conf : SymbolConfProvider) (provider : Bytes) :
    conf.get provider =
      (conf.answer provider,
        if (conf.conf.find? provider).isSome then conf
        else { conf with conf := conf.conf.insert provider (conf.answer provider) }) := by
  cases found : conf.conf.find? provider with
  | some symbols =>
      rw [get, found, answer, SortedMap.answer_of_find? found, Option.isSome_some, if_pos rfl]
  | none =>
      rw [Option.isSome_none, if_neg Bool.false_ne_true]
      cases foundName : conf.conf.find? (ProviderItem.decode provider).provider with
      | some symbols =>
          have isAnswer : conf.answer provider = symbols :=
            SortedMap.answer_of_standIn found foundName
          simp only [get, found, foundName, isAnswer]
      | none =>
          have isAnswer : conf.answer provider = conf.defaultConf :=
            SortedMap.answer_of_absent found foundName
          simp only [get, found, foundName, isAnswer, SortedMap.find?_insert_self,
            Option.getD_some]

/-- A lookup changes no answer. -/
theorem answer_get (conf : SymbolConfProvider) (provider other : Bytes) :
    (conf.get provider).2.answer other = conf.answer other := by
  rw [get_eq]
  dsimp only
  split
  · rfl
  · exact SortedMap.answer_insert_answer ProviderItem.nameWithoutPlacename_idempotent conf.conf
      provider other

theorem answer_afterGets (conf : SymbolConfProvider) (providers : List Bytes) (other : Bytes) :
    (conf.afterGets providers).answer other = conf.answer other := by
  induction providers generalizing conf with
  | nil => rfl
  | cons provider rest ih =>
      rw [afterGets, List.foldl_cons, ← afterGets, ih, answer_get]

/-- The table after calls of `add`, and the default configuration. -/
theorem find?_afterAdds (conf : SymbolConfProvider) (adds : List (Bytes × SymbolConfList))
    (provider : Bytes) :
    (conf.afterAdds adds).conf.find? provider =
      (adds.reverse.lookup provider).or (conf.conf.find? provider) := by
  have table : (conf.afterAdds adds).conf =
      adds.foldl (fun map pair => map.insert pair.1 pair.2) conf.conf := by
    induction adds generalizing conf with
    | nil => rfl
    | cons added rest ih => exact ih (conf.add added.1 added.2)
  rw [table, SortedMap.find?_foldl_insert]

theorem defaultConf_afterAdds (conf : SymbolConfProvider) (adds : List (Bytes × SymbolConfList)) :
    (conf.afterAdds adds).defaultConf = conf.defaultConf := by
  induction adds generalizing conf with
  | nil => rfl
  | cons added rest ih => exact ih (conf.add added.1 added.2)

end SymbolConfProvider

/-! ## Precipitation -/

/-- `PrecipConfigType`. -/
inductive PrecipConfigType where
  | PrecipMulti
  | PrecipSequence
  deriving DecidableEq, Repr

/-- A `PrecipConfigElement`. -/
structure PrecipConfigElement where
  precipType : PrecipConfigType
  precipHours : List ℤ
  deriving DecidableEq, Repr

/-- A `ProviderPrecipitationConfig`. -/
structure ProviderPrecipitationConfig where
  defaultConfig : PrecipConfigElement
  providerPrecipitationList : SortedMap Bytes PrecipConfigElement

namespace ProviderPrecipitationConfig

/-- What the pointer that `get` returns points to. -/
inductive ElementPointer where
  | element (provider : Bytes)
  | defaultConfig
  deriving DecidableEq, Repr

/-- Follow a pointer. -/
def deref (conf : ProviderPrecipitationConfig) : ElementPointer → Option PrecipConfigElement
  | .element provider => conf.providerPrecipitationList.find? provider
  | .defaultConfig => some conf.defaultConfig

/-- `ProviderPrecipitationConfig::get`, with the configuration that it leaves. -/
def get (conf : ProviderPrecipitationConfig) (provider : Bytes) :
    ElementPointer × ProviderPrecipitationConfig :=
  match conf.providerPrecipitationList.find? provider with
  | some _ => (.element provider, conf)
  | none =>
      let item := ProviderItem.decode provider
      match conf.providerPrecipitationList.find? item.provider with
      | some found =>
          (.element item.provider,
            { conf with
              providerPrecipitationList := conf.providerPrecipitationList.insert provider found })
      | none =>
          (.defaultConfig,
            { conf with
              providerPrecipitationList :=
                conf.providerPrecipitationList.insert provider conf.defaultConfig })

/-- What `configure` does with the elements that it decodes: the default one, and those of the
providers. -/
def ofElements (defaultConfig : PrecipConfigElement)
    (elements : List (Bytes × PrecipConfigElement)) : ProviderPrecipitationConfig where
  defaultConfig := defaultConfig
  providerPrecipitationList :=
    elements.foldl (fun list element => list.insert element.1 element.2) ∅

/-- The configuration after calls of `get`. -/
def afterGets (conf : ProviderPrecipitationConfig) (providers : List Bytes) :
    ProviderPrecipitationConfig :=
  providers.foldl (fun conf provider => (conf.get provider).2) conf

/-- What the table of a configuration answers for a provider. -/
def answer (conf : ProviderPrecipitationConfig) (provider : Bytes) : PrecipConfigElement :=
  conf.providerPrecipitationList.answer ProviderItem.nameWithoutPlacename conf.defaultConfig
    provider

/-- The elements of a configuration are those of another one, which may have more. -/
structure Extends (later conf : ProviderPrecipitationConfig) : Prop where
  element : ∀ provider element, conf.providerPrecipitationList.find? provider = some element →
    later.providerPrecipitationList.find? provider = some element
  defaultConfig : later.defaultConfig = conf.defaultConfig

theorem Extends.deref {later conf : ProviderPrecipitationConfig} (extends_ : later.Extends conf)
    {pointer : ElementPointer} {element : PrecipConfigElement}
    (points : conf.deref pointer = some element) : later.deref pointer = some element := by
  cases pointer with
  | element provider => exact extends_.element provider element points
  | defaultConfig =>
      rw [ProviderPrecipitationConfig.deref, extends_.defaultConfig]
      exact points

/-- What a lookup does to a configuration that lacks the provider. -/
theorem extends_insert {conf : ProviderPrecipitationConfig} {provider : Bytes}
    (absent : conf.providerPrecipitationList.find? provider = none)
    (element : PrecipConfigElement) :
    Extends
      { conf with
        providerPrecipitationList := conf.providerPrecipitationList.insert provider element }
      conf where
  element other old found := by
    have different : other ≠ provider := by
      rintro rfl
      rw [absent] at found
      cases found
    rw [SortedMap.find?_insert_of_ne _ different]
    exact found
  defaultConfig := rfl

/-- A lookup points to the answer of the table. -/
theorem deref_get (conf : ProviderPrecipitationConfig) (provider : Bytes) :
    conf.deref (conf.get provider).1 = some (conf.answer provider) := by
  cases found : conf.providerPrecipitationList.find? provider with
  | some element =>
      have isAnswer : conf.answer provider = element := SortedMap.answer_of_find? found
      simp only [get, found, deref, isAnswer]
  | none =>
      cases foundName :
          conf.providerPrecipitationList.find? (ProviderItem.decode provider).provider with
      | some element =>
          have isAnswer : conf.answer provider = element :=
            SortedMap.answer_of_standIn found foundName
          simp only [get, found, foundName, deref, isAnswer]
      | none =>
          have isAnswer : conf.answer provider = conf.defaultConfig :=
            SortedMap.answer_of_absent found foundName
          simp only [get, found, foundName, deref, isAnswer]

/-- A lookup stores the answer of the table, unless the provider is there. -/
theorem snd_get (conf : ProviderPrecipitationConfig) (provider : Bytes) :
    (conf.get provider).2 =
      if (conf.providerPrecipitationList.find? provider).isSome then conf
      else
        { conf with
          providerPrecipitationList :=
            conf.providerPrecipitationList.insert provider (conf.answer provider) } := by
  cases found : conf.providerPrecipitationList.find? provider with
  | some element => rw [get, found, Option.isSome_some, if_pos rfl]
  | none =>
      rw [Option.isSome_none, if_neg Bool.false_ne_true]
      cases foundName :
          conf.providerPrecipitationList.find? (ProviderItem.decode provider).provider with
      | some element =>
          have isAnswer : conf.answer provider = element :=
            SortedMap.answer_of_standIn found foundName
          simp only [get, found, foundName, isAnswer]
      | none =>
          have isAnswer : conf.answer provider = conf.defaultConfig :=
            SortedMap.answer_of_absent found foundName
          simp only [get, found, foundName, isAnswer]

/-- A lookup leaves the elements of a configuration. -/
theorem extends_get (conf : ProviderPrecipitationConfig) (provider : Bytes) :
    (conf.get provider).2.Extends conf := by
  rw [snd_get]
  split
  next => exact ⟨fun _ _ same => same, rfl⟩
  next absent => exact extends_insert (Option.not_isSome_iff_eq_none.mp absent) _

/-- A lookup changes no answer. -/
theorem answer_get (conf : ProviderPrecipitationConfig) (provider other : Bytes) :
    (conf.get provider).2.answer other = conf.answer other := by
  rw [snd_get]
  split
  next => rfl
  next =>
    exact SortedMap.answer_insert_answer ProviderItem.nameWithoutPlacename_idempotent
      conf.providerPrecipitationList provider other

/-- Lookups leave the elements of a configuration, and change no answer. -/
theorem extends_afterGets (conf : ProviderPrecipitationConfig) (providers : List Bytes) :
    (conf.afterGets providers).Extends conf ∧
      ∀ other, (conf.afterGets providers).answer other = conf.answer other := by
  induction providers generalizing conf with
  | nil => exact ⟨⟨fun _ _ same => same, rfl⟩, fun _ => rfl⟩
  | cons provider rest ih =>
      have keeps := conf.extends_get provider
      have goesOn := ih (conf.get provider).2
      constructor
      · constructor
        · intro other element found
          exact goesOn.1.element other element (keeps.element other element found)
        · exact goesOn.1.defaultConfig.trans keeps.defaultConfig
      · intro other
        exact (goesOn.2 other).trans (conf.answer_get provider other)

end ProviderPrecipitationConfig

/-! ## Lookups after lookups -/

/-- What is configured for a provider: what was added for it last, what was added last for its name
without the placename, or the default. -/
def configuredFor {α : Type} (added : List (Bytes × α)) (default_ : α) (provider : Bytes) : α :=
  ((added.reverse.lookup provider).or
    (added.reverse.lookup (ProviderItem.nameWithoutPlacename provider))).getD default_

/-- Whatever lookups come before, a lookup returns what is configured for its provider, and the
pointer to a precipitation configuration still points to it after further lookups. -/
theorem get_configuredFor :
    (∀ (default_ : SymbolConfList) (adds : List (Bytes × SymbolConfList)) (gets : List Bytes)
        (provider : Bytes),
      ((((SymbolConfProvider.create.setDefaultConf default_).afterAdds adds).afterGets gets).get
        provider).1 = configuredFor adds default_ provider) ∧
      ∀ (defaultConfig : PrecipConfigElement) (elements : List (Bytes × PrecipConfigElement))
          (gets later : List Bytes) (provider : Bytes),
        let got := ((ProviderPrecipitationConfig.ofElements defaultConfig elements).afterGets
          gets).get provider
        (got.2.afterGets later).deref got.1 =
          some (configuredFor elements defaultConfig provider) := by
  constructor
  · intro default_ adds gets provider
    rw [SymbolConfProvider.get_eq, SymbolConfProvider.answer_afterGets, SymbolConfProvider.answer,
      SortedMap.answer, SymbolConfProvider.find?_afterAdds, SymbolConfProvider.find?_afterAdds,
      SymbolConfProvider.defaultConf_afterAdds, SymbolConfProvider.setDefaultConf]
    simp only [SymbolConfProvider.create, SortedMap.find?_empty, Option.or_none]
    rfl
  · intro defaultConfig elements gets later provider got
    have before := (ProviderPrecipitationConfig.ofElements defaultConfig elements).extends_afterGets
      gets
    have behind := (got.2.extends_afterGets later).1
    rw [behind.deref ((ProviderPrecipitationConfig.extends_get _ provider).deref
      (ProviderPrecipitationConfig.deref_get _ provider)), before.2]
    simp only [ProviderPrecipitationConfig.answer, SortedMap.answer,
      ProviderPrecipitationConfig.ofElements, SortedMap.find?_foldl_insert, SortedMap.find?_empty,
      Option.or_none]
    rfl

end Wdb2ts
