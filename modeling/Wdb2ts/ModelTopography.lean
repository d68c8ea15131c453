import Wdb2ts.DecodePData
import Wdb2ts.LocationData

/-!
# The topography of the model

A provider's model topography is looked up under the provider whose topography stands in
for it.  When there is none under that name, the placename of the provider that was asked
for is tried.  The lookup reads a cell of the series unless both names are without a
placename.
-/

namespace Wdb2ts

namespace LocationElem

/-- The provider that the map lists first for a provider, or the provider itself. -/
def firstAlias (topoProviders : TopoProviderMap) (provider_ : Bytes) : Bytes :=
  ((topoProviders.find? provider_).bind List.head?).getD provider_

/-- `topoPostfix`. -/
def topoPostfix : Bytes := Bytes.str "__MODEL_TOPO__"

/-- A provider without a placename stands for its first alias, and no alias is added. -/
theorem topoProvider_of_noPlacename {provider_ : Bytes} (topoProviders : TopoProviderMap)
    (noPlacename : (ProviderList.decodeItem provider_).placename = []) :
    topoProvider provider_ topoProviders =
      (firstAlias topoProviders provider_, topoProviders) := by
  cases listed : topoProviders.find? provider_ with
  | none => simp [topoProvider, firstAlias, listed, noPlacename]
  | some aliases => simp [topoProvider, firstAlias, listed]

section Lookups

variable {F : Type} [Floats F] [DecidableEq F]

/-- The value is the missing value or the topography that a provider has in the series. -/
def IsTopography (elem : LocationElem F) (value : ℤ) : Prop :=
  value = INT_MIN ∨
    ∃ cells provider data, elem.constantField elem.topoTime = some cells ∧
      cells.find? (provider ++ topoPostfix) = some data ∧
      data.get .modeltopography ≠ FLT_MAX ∧
      value = Floats.toInt (data.get .modeltopography)

/-- The lookup reads no end iterator, and returns a topography or the missing value. -/
def Resolves (elem : LocationElem F) (provider_ : Bytes) : Prop :=
  ∃ value, ((modeltopography provider_).run elem).1 = some value ∧ elem.IsTopography value

/-- The value of a cell is a topography or the missing value. -/
theorem isTopography_topographyValue {elem : LocationElem F}
    {cells : ProviderPDataList F} {provider : Bytes} {data : PData F}
    (loaded : elem.constantField elem.topoTime = some cells)
    (stored : cells.find? (provider ++ topoPostfix) = some data) :
    elem.IsTopography (topographyValue .modeltopography data) := by
  by_cases missing : data.get .modeltopography = FLT_MAX
  · left
    exact if_pos missing
  · right
    exact ⟨cells, provider, data, loaded, stored, missing, if_neg missing⟩

/-- The name under which the resolved provider is looked up again, with the placename of the
provider that was asked for. -/
def secondName (resolved provider_ : Bytes) : Bytes :=
  { ProviderList.decodeItem resolved with
    placename := (ProviderList.decodeItem provider_).placename }.providerWithPlacename

/-- The value of the lookup when a topography field is loaded. -/
theorem value_modeltopography {elem : LocationElem F} {cells : ProviderPDataList F}
    {provider_ resolved : Bytes} (loaded : elem.constantField elem.topoTime = some cells)
    (resolves : (topoProvider provider_ elem.modelTopoProviders).1 = resolved) :
    ((modeltopography provider_).run elem).1 =
      match cells.find? (resolved ++ topoPostfix) with
      | some data => some (topographyValue .modeltopography data)
      | none =>
          if (ProviderList.decodeItem resolved).placename.isEmpty then
            if (ProviderList.decodeItem provider_).placename.isEmpty then none
            else
              some (((cells.find? (secondName resolved provider_ ++ topoPostfix)).map
                (topographyValue .modeltopography)).getD INT_MIN)
          else some INT_MIN := by
  rw [topoPostfix, secondName]
  simp only [modeltopography, StateT.run_bind, StateT.run_get, StateT.run_modify, pure_bind,
    loaded, resolves]
  cases cells.find? (resolved ++ Bytes.str "__MODEL_TOPO__") with
  | some data => rfl
  | none =>
      cases (ProviderList.decodeItem resolved).placename.isEmpty with
      | false => rfl
      | true =>
          cases (ProviderList.decodeItem provider_).placename.isEmpty with
          | true => rfl
          | false =>
              simp only [Bool.not_true, Bool.false_eq_true, if_false, if_true]
              cases cells.find? ({ ProviderList.decodeItem resolved with
                  placename := (ProviderList.decodeItem provider_).placename }.providerWithPlacename
                    ++ Bytes.str "__MODEL_TOPO__") with
              | none => rfl
              | some data => rfl

/-- Without a topography field the value is missing. -/
theorem resolves_of_notLoaded {elem : LocationElem F} {provider_ : Bytes}
    (notLoaded : elem.constantField elem.topoTime = none) : elem.Resolves provider_ := by
  refine ⟨INT_MIN, ?_, Or.inl rfl⟩
  simp only [modeltopography, StateT.run_bind, StateT.run_get, StateT.run_modify, pure_bind,
    notLoaded]
  rfl

/-- When a topography field is loaded, the end iterator is read when the resolved provider has no
cell and neither it nor the provider that was asked for has a placename. -/
theorem resolves_iff_of_loaded {elem : LocationElem F} {cells : ProviderPDataList F}
    {provider_ resolved : Bytes} (loaded : elem.constantField elem.topoTime = some cells)
    (resolves : (topoProvider provider_ elem.modelTopoProviders).1 = resolved) :
    elem.Resolves provider_ ↔
      (ProviderList.decodeItem provider_).placename ≠ [] ∨
        (ProviderList.decodeItem resolved).placename ≠ [] ∨
        (cells.find? (resolved ++ topoPostfix)).isSome := by
  rw [Resolves, value_modeltopography loaded resolves]
  cases stored : cells.find? (resolved ++ topoPostfix) with
  | some data =>
      simp only [Option.isSome_some, or_true, iff_true]
      exact ⟨_, rfl, isTopography_topographyValue loaded stored⟩
  | none =>
      cases first : (ProviderList.decodeItem resolved).placename with
      | cons byte rest =>
          simp only [ne_eq, reduceCtorEq, not_false_eq_true, true_or, or_true, iff_true]
          exact ⟨INT_MIN, rfl, Or.inl rfl⟩
      | nil =>
          cases second : (ProviderList.decodeItem provider_).placename with
          | nil => simp
          | cons byte rest =>
              simp only [ne_eq, reduceCtorEq, not_false_eq_true, true_or, iff_true]
              refine ⟨_, rfl, ?_⟩
              cases again : cells.find? (secondName resolved provider_ ++ topoPostfix) with
              | none => exact Or.inl rfl
              | some data => exact isTopography_topographyValue loaded again

/-- The lookup of a provider's topography stays inside the series exactly when no
topography is loaded, or the provider has a placename, or the provider that stands in for
it has a placename or a cell. -/
theorem modeltopography_resolves_iff (elem : LocationElem F) (provider_ : Bytes) :
    elem.Resolves provider_ ↔
      ∀ cells, elem.constantField elem.topoTime = some cells →
        (ProviderList.decodeItem provider_).placename ≠ [] ∨
          (ProviderList.decodeItem
            (firstAlias elem.modelTopoProviders provider_)).placename ≠ [] ∨
          (cells.find?
            (firstAlias elem.modelTopoProviders provider_ ++ topoPostfix)).isSome := by
  cases loaded : elem.constantField elem.topoTime with
  | none =>
      simp only [reduceCtorEq, false_implies, implies_true, iff_true]
      exact resolves_of_notLoaded loaded
  | some cells =>
      simp only [Option.some.injEq, forall_eq']
      by_cases placename : (ProviderList.decodeItem provider_).placename = []
      · have standIn := topoProvider_of_noPlacename elem.modelTopoProviders placename
        exact resolves_iff_of_loaded loaded (congrArg Prod.fst standIn)
      · rw [resolves_iff_of_loaded loaded rfl]
        simp only [ne_eq, placename, not_false_eq_true, true_or]

end Lookups

section OtherProvider

/-- The topography of one provider. -/
def topographyOfArome : LocationElem ℚ :=
  (LocationData.create
    (DecodePData.storeRows
      [⟨"MODEL.TOPOGRAPHY", Bytes.str "arome", PTime.epoch, PTime.epoch, some 120⟩])
    10 60 INT_MIN [⟨Bytes.str "arome", []⟩, ⟨Bytes.str "hirlam", []⟩] ∅ [] ∅ true).locationElem

/-- The topography of a provider that has none is read through the end iterator. -/
theorem not_resolves_hirlam : ¬topographyOfArome.Resolves (Bytes.str "hirlam") := by
  have endRead : ((modeltopography (Bytes.str "hirlam")).run topographyOfArome).1 = none := by
    decide
  rintro ⟨value, returned, _⟩
  rw [endRead] at returned
  exact absurd returned nofun

end OtherProvider

end LocationElem

end Wdb2ts
