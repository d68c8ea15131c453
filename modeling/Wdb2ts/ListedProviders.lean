import Wdb2ts.WdbQueryHelper

/-!
# The listed providers of a query

A configured query may list its providers.  `hasNext` goes on with the listed providers that
are not disabled, where the first entry that a provider asks for tells whether it is.
-/

namespace Wdb2ts

namespace ProviderRefTimeList

/-- Has a provider an entry that is not disabled? -/
def HasEnabled (reftimes : ProviderRefTimeList) (provider : Bytes) : Prop :=
  ∃ entry ∈ reftimes.requested provider, entry.2.disabled = false

/-- Has a provider entries, which all are disabled? -/
def AllDisabled (reftimes : ProviderRefTimeList) (provider : Bytes) : Prop :=
  reftimes.requested provider ≠ [] ∧
    ∀ entry ∈ reftimes.requested provider, entry.2.disabled = true

/-- When the first entry of a provider is disabled, all of its entries are. -/
def FirstDecides (reftimes : ProviderRefTimeList) (provider : Bytes) : Prop :=
  ∀ entry, (reftimes.requested provider).head? = some entry → entry.2.disabled = true →
    ∀ other ∈ reftimes.requested provider, other.2.disabled = true

/-- `disabled` looks at the first entry that a provider asks for. -/
theorem disabled_eq_head? (reftimes : ProviderRefTimeList) (provider : Bytes) :
    reftimes.disabled provider =
      (reftimes.requested provider).head?.map fun entry => entry.2.disabled := by
  simp only [disabled, requested, List.head?_filter]

theorem disabled_of_allDisabled {reftimes : ProviderRefTimeList} {provider : Bytes}
    (allDisabled : reftimes.AllDisabled provider) : reftimes.disabled provider = some true := by
  rw [disabled_eq_head?]
  cases isRequested : reftimes.requested provider with
  | nil => exact absurd isRequested allDisabled.1
  | cons entry rest =>
      have isDisabled := allDisabled.2 entry (isRequested ▸ List.mem_cons_self)
      simp [isDisabled]

/-- A provider with an enabled entry is kept, exactly when the first entry decides for all. -/
theorem firstDecides_iff {reftimes : ProviderRefTimeList} {provider : Bytes} :
    reftimes.FirstDecides provider ↔
      (reftimes.HasEnabled provider → reftimes.disabled provider ≠ some true) := by
  rw [disabled_eq_head?]
  constructor
  · intro decides enabled isDisabled
    obtain ⟨other, isRequested, isEnabled⟩ := enabled
    obtain ⟨entry, isFirst, entryDisabled⟩ := Option.map_eq_some_iff.mp isDisabled
    have otherDisabled := decides entry isFirst entryDisabled other isRequested
    rw [isEnabled] at otherDisabled
    cases otherDisabled
  · intro kept entry isFirst entryDisabled other isRequested
    by_contra notDisabled
    refine kept ⟨other, isRequested, Bool.eq_false_iff.mpr notDisabled⟩ ?_
    rw [isFirst, Option.map_some, entryDisabled]

end ProviderRefTimeList

theorem mem_unique {names : List Bytes} {name : Bytes} : name ∈ unique names ↔ name ∈ names := by
  induction names using unique.induct with
  | case1 => rw [unique]
  | case2 other => rw [unique]
  | case3 first rest ih => simp only [unique, if_true, ih, List.mem_cons, or_self_left]
  | case4 first second rest different ih =>
      rw [unique, if_neg different, List.mem_cons, ih]
      exact List.mem_cons.symm

namespace WdbQueryHelper

variable {F : Type} [TextFunctions F] (isotimeString : PTime → Bytes)

/-- The providers that a query goes on with. -/
def providers (helper : WdbQueryHelper F) : List Bytes :=
  if helper.asksReftime then helper.curProviderPriority.map ProviderItem.provider
  else helper.webQuery.dataprovider.valueList

/-- The providers that the filter of disabled providers leaves of a decoded query. -/
def keptProviders (helper : WdbQueryHelper F) : List Bytes :=
  match helper.selectProviders with
  | .ok (some selected) => selected.providers
  | _ => []

/-- The decoded queries that the loop of `hasNext` comes to, each with the helper there. -/
def comesTo : List QueryElement → WdbQueryHelper F → List (WdbQueryHelper F)
  | [], _ => []
  | query :: rest, helper =>
      match (helper.at_ (query :: rest)).startQuery query with
      | (.error _, _) => []
      | (.ok _, decoded) =>
          match (helper.at_ (query :: rest)).tryQuery isotimeString query with
          | (.skipped, next) => decoded :: comesTo rest next
          | _ => [decoded]

/-- The decoded queries that a call of `hasNext` comes to. -/
def decodedQuerys (helper : WdbQueryHelper F) : List (WdbQueryHelper F) :=
  match helper.nextProvider with
  | (some _, _) => []
  | (none, helper) => comesTo isotimeString helper.nextQuerys helper

theorem mem_comesTo {query : QueryElement} {rest : List QueryElement}
    {helper : WdbQueryHelper F}
    (isStarted : ((helper.at_ (query :: rest)).startQuery query).1.isOk = true) :
    ((helper.at_ (query :: rest)).startQuery query).2 ∈
      comesTo isotimeString (query :: rest) helper := by
  simp only [comesTo]
  split
  · rename_i failed
    rw [failed] at isStarted
    cases isStarted
  · rename_i decoded started
    rw [started]
    split
    · exact List.mem_cons_self
    · exact List.mem_cons_self

theorem decodedQuerys_of_none {helper : WdbQueryHelper F}
    (noProvider : helper.nextProvider.1 = none) :
    helper.decodedQuerys isotimeString =
      comesTo isotimeString helper.nextProvider.2.nextQuerys helper.nextProvider.2 := by
  simp only [decodedQuerys]
  split
  · rename_i isNext
    rw [isNext] at noProvider
    cases noProvider
  · rename_i isNext
    rw [isNext]

theorem tryQuerys_found {querys : List QueryElement} {helper : WdbQueryHelper F}
    (isTrue : (tryQuerys isotimeString querys helper).1 = .ok true) :
    ∃ decoded ∈ comesTo isotimeString querys helper, ∃ selected,
      decoded.selectProviders = .ok (some selected) ∧
        selected.chooseReftime isotimeString =
          (.found, (tryQuerys isotimeString querys helper).2) := by
  induction querys generalizing helper with
  | nil => cases isTrue
  | cons query rest ih =>
      simp only [tryQuerys] at isTrue ⊢
      simp only [comesTo]
      cases isStarted : (helper.at_ (query :: rest)).startQuery query with
      | mk result decoded =>
          cases result with
          | error what =>
              simp only [tryQuery, isStarted] at isTrue
              cases isTrue
          | ok text =>
              simp only [tryQuery, isStarted] at isTrue ⊢
              cases isSelected : decoded.selectProviders with
              | error what =>
                  simp only [isSelected] at isTrue
                  cases isTrue
              | ok selected =>
                  cases selected with
                  | none =>
                      simp only [isSelected] at isTrue ⊢
                      obtain ⟨later, comes, goesOn⟩ := ih isTrue
                      exact ⟨later, List.mem_cons_of_mem _ comes, goesOn⟩
                  | some selected =>
                      simp only [isSelected] at isTrue ⊢
                      cases chosen : selected.chooseReftime isotimeString with
                      | mk result next =>
                          simp only [chosen] at isTrue ⊢
                          cases result with
                          | threw what => cases isTrue
                          | found =>
                              exact ⟨decoded, List.mem_cons_self, selected, isSelected, chosen⟩
                          | skipped =>
                              obtain ⟨later, comes, goesOn⟩ := ih isTrue
                              exact ⟨later, List.mem_cons_of_mem _ comes, goesOn⟩

/-- A call of `hasNext` finds its data with the selected providers of a decoded query, unless it
asks the next provider of the query before. -/
theorem hasNext_found {helper : WdbQueryHelper F} (noProvider : helper.nextProvider.1 = none)
    (isTrue : (helper.hasNext isotimeString).1 = .ok true) :
    ∃ decoded ∈ helper.decodedQuerys isotimeString, ∃ selected,
      decoded.selectProviders = .ok (some selected) ∧
        selected.chooseReftime isotimeString = (.found, (helper.hasNext isotimeString).2) := by
  rw [decodedQuerys_of_none isotimeString noProvider]
  cases isNext : helper.nextProvider with
  | mk provider next =>
      rw [isNext] at noProvider
      simp only at noProvider
      subst noProvider
      simp only [hasNext, isNext] at isTrue ⊢
      exact tryQuerys_found isotimeString isTrue

/-- Of the listed providers, the filter of disabled providers leaves those with an entry that is not
disabled, and it leaves out those with entries that all are disabled.  The query may still be
skipped, when no reference time is found. -/
def KeepsUsable (decoded : WdbQueryHelper F) : Prop :=
  ∀ provider ∈ decoded.webQuery.dataprovider.valueList,
    (decoded.reftimes.HasEnabled provider → provider ∈ decoded.keptProviders) ∧
      (decoded.reftimes.AllDisabled provider → provider ∉ decoded.keptProviders)

theorem mem_enabledProviders {reftimes : ProviderRefTimeList} {valueList : List Bytes}
    {provider : Bytes} :
    provider ∈ (reftimes.enabledProviders valueList).map ProviderItem.provider ↔
      provider ∈ valueList ∧ reftimes.disabled provider ≠ some true := by
  simp [ProviderRefTimeList.enabledProviders]

omit [TextFunctions F] in
/-- Of the listed providers, those are kept that `disabled` does not tell of. -/
theorem mem_keptProviders {decoded : WdbQueryHelper F} {provider : Bytes}
    (lists : decoded.webQuery.dataprovider.valueList ≠ []) :
    provider ∈ decoded.keptProviders ↔ provider ∈ decoded.webQuery.dataprovider.valueList ∧
      decoded.reftimes.disabled provider ≠ some true := by
  have explicit : decoded.webQuery.dataprovider.valueList.isEmpty = false :=
    List.isEmpty_eq_false_iff.mpr lists
  rw [← mem_enabledProviders]
  cases asks : decoded.asksReftime with
  | true =>
      have isSelected : decoded.selectProviders =
          .ok (some { decoded with
            curProviderPriority :=
              decoded.reftimes.enabledProviders decoded.webQuery.dataprovider.valueList }) := by
        simp only [selectProviders, asks, explicit, if_true, Bool.false_eq_true, if_false]
      have asksSelected (list : ProviderList) :
          asksReftime { decoded with curProviderPriority := list } = true := asks
      simp only [keptProviders, isSelected, providers, asksSelected, if_true]
  | false =>
      by_cases none : decoded.reftimes.enabledProviders decoded.webQuery.dataprovider.valueList = []
      · have isSkipped : decoded.selectProviders = .ok Option.none := by
          simp only [selectProviders, asks, explicit, none, List.isEmpty_nil, if_true,
            Bool.false_eq_true, if_false]
        simp only [keptProviders, isSkipped, none, List.map_nil]
      · have isSelected : decoded.selectProviders =
            .ok (some (selectProviders.setProviders
              (decoded.reftimes.enabledProviders decoded.webQuery.dataprovider.valueList)
              decoded)) := by
          simp only [selectProviders, asks, explicit, List.isEmpty_iff, none,
            Bool.false_eq_true, if_false]
        have asksSelected (list : ProviderList) :
            (selectProviders.setProviders list decoded).asksReftime = false := asks
        simp only [keptProviders, isSelected, providers, asksSelected, Bool.false_eq_true, if_false]
        exact mem_unique

/-! ## The reference times stay -/

omit [TextFunctions F] in
theorem reftimes_andThen {decoded : Option Bytes × WciWebQuery F} {helper : WdbQueryHelper F}
    {next : WdbQueryHelper F → RoundResult × WdbQueryHelper F}
    (stays : ∀ helper, (next helper).2.reftimes = helper.reftimes) :
    (andThen decoded helper next).2.reftimes = helper.reftimes := by
  simp only [andThen]
  cases decoded.1 with
  | some what => rfl
  | none => exact stays _

theorem reftimes_finish (helper : WdbQueryHelper F) :
    helper.finish.2.reftimes = helper.reftimes := by
  refine reftimes_andThen fun helper => ?_
  split
  · exact reftimes_andThen fun _ => rfl
  · rfl

theorem reftimes_finishWith (helper : WdbQueryHelper F) (times : PTime × PTime) :
    (helper.finishWith isotimeString times).2.reftimes = helper.reftimes :=
  reftimes_andThen reftimes_finish

theorem reftimes_chooseReftime (helper : WdbQueryHelper F) :
    (helper.chooseReftime isotimeString).2.reftimes = helper.reftimes := by
  simp only [chooseReftime]
  split
  · split
    · rfl
    · exact reftimes_andThen fun helper => reftimes_finishWith isotimeString helper _
  · split
    · split
      · rfl
      · exact reftimes_finishWith isotimeString _ _
    · split
      · split
        · rfl
        · exact reftimes_finishWith isotimeString _ _
      · exact reftimes_finish _

omit [TextFunctions F] in
theorem reftimes_selectProviders {helper selected : WdbQueryHelper F}
    (isSelected : helper.selectProviders = .ok (some selected)) :
    selected.reftimes = helper.reftimes := by
  simp only [selectProviders] at isSelected
  repeat' split at isSelected
  all_goals cases isSelected
  all_goals rfl

theorem reftimes_startQuery (helper : WdbQueryHelper F) (query : QueryElement) :
    (helper.startQuery query).2.reftimes = helper.reftimes := by
  simp only [startQuery]
  split
  · rfl
  · rfl

theorem reftimes_tryQuery (helper : WdbQueryHelper F) (query : QueryElement) :
    (helper.tryQuery isotimeString query).2.reftimes = helper.reftimes := by
  have started := reftimes_startQuery helper query
  simp only [tryQuery]
  split
  · rename_i isStarted
    rw [isStarted] at started
    exact started
  · rename_i decoded isStarted
    rw [isStarted] at started
    split
    · exact started
    · exact started
    · rename_i selected isSelected
      rw [reftimes_chooseReftime, reftimes_selectProviders isSelected, started]

theorem reftimes_comesTo {querys : List QueryElement} {helper decoded : WdbQueryHelper F}
    (comes : decoded ∈ comesTo isotimeString querys helper) :
    decoded.reftimes = helper.reftimes := by
  induction querys generalizing helper with
  | nil => cases comes
  | cons query rest ih =>
      have started := reftimes_startQuery (helper.at_ (query :: rest)) query
      have tried := reftimes_tryQuery isotimeString (helper.at_ (query :: rest)) query
      simp only [comesTo] at comes
      split at comes
      · cases comes
      · rename_i here isStarted
        rw [isStarted] at started
        split at comes
        · rename_i next isTried
          rw [isTried] at tried
          rcases List.mem_cons.mp comes with isHere | later
          · rw [isHere]
            exact started
          · exact (ih later).trans tried
        · rw [List.mem_singleton.mp comes]
          exact started

omit [TextFunctions F] in
theorem reftimes_nextProvider (helper : WdbQueryHelper F) :
    helper.nextProvider.2.reftimes = helper.reftimes := by
  simp only [nextProvider]
  split
  · rfl
  · rfl

/-- The decoded queries have the reference times of the call. -/
theorem reftimes_decodedQuerys {helper decoded : WdbQueryHelper F}
    (comes : decoded ∈ helper.decodedQuerys isotimeString) :
    decoded.reftimes = helper.reftimes := by
  have same := reftimes_nextProvider helper
  simp only [decodedQuerys] at comes
  split at comes
  · cases comes
  · rename_i next isNext
    rw [isNext] at same
    exact (reftimes_comesTo isotimeString comes).trans same

/-! ## The usable providers -/

/-- A call of `hasNext` keeps the usable providers of its queries, exactly when for every listed
provider whose first entry is disabled all entries are. -/
theorem keepsUsable_iff (helper : WdbQueryHelper F) :
    (∀ decoded ∈ helper.decodedQuerys isotimeString, decoded.KeepsUsable) ↔
      ∀ decoded ∈ helper.decodedQuerys isotimeString,
        ∀ provider ∈ decoded.webQuery.dataprovider.valueList,
          helper.reftimes.FirstDecides provider := by
  have eachQuery : ∀ decoded ∈ helper.decodedQuerys isotimeString, (decoded.KeepsUsable ↔
      ∀ provider ∈ decoded.webQuery.dataprovider.valueList,
        helper.reftimes.FirstDecides provider) := by
    intro decoded comes
    rw [← reftimes_decodedQuerys isotimeString comes]
    refine forall₂_congr fun provider isListed => ?_
    rw [mem_keptProviders (List.ne_nil_of_mem isListed), and_iff_right isListed,
      ProviderRefTimeList.firstDecides_iff]
    refine and_iff_left fun allDisabled => not_not.mpr ?_
    exact ProviderRefTimeList.disabled_of_allDisabled allDisabled
  exact forall₂_congr eachQuery

/-- A provider at two places, of which the first is disabled. -/
def twoPlaces : WdbQueryHelper ℚ :=
  { urlQuerys := [query]
    itNext := []
    position := Bytes.str "lat=60;lon=10;"
    reftimes :=
      .ofList
        [(Bytes.str "met.no [a]", { ProviderTimes.create PTime.epoch default with disabled := true }),
          (Bytes.str "met.no [b]", ProviderTimes.create PTime.epoch default)]
    providerPriority := []
    itCurProviderPriority := []
    curProviderPriority := []
    first := true
    reftimeProvider := []
    webQuery := WciWebQuery.new 5 (Bytes.str "value")
    queryMustHaveData := false
    stopIfQueryHasData := false
    prognosisLengthSeconds := 0
    refTimeFrom_IsEqualTo_ReftTimeTo := false
    validTime := []
    wdbid_ := [] }
where
  /-- A query with a list of one provider. -/
  query : QueryElement :=
    { query := Bytes.str "dataprovider=met.no"
      probe := false
      stopIfData := false
      wdbdb := []
      prognosisLengthSeconds := 0 }

/-- The decoded query of the provider at two places. -/
def decodedTwoPlaces : WdbQueryHelper ℚ :=
  ((twoPlaces.nextProvider.2.at_ [twoPlaces.query]).startQuery twoPlaces.query).2

/-- The provider is dropped, although its second place is enabled. -/
theorem not_keepsUsable_twoPlaces :
    ¬ ∀ decoded ∈ twoPlaces.decodedQuerys fun _ => Bytes.str "1970-01-01T00:00:00Z",
      decoded.KeepsUsable := by
  intro keeps
  rw [decodedQuerys_of_none _ rfl] at keeps
  have comes := mem_comesTo (fun _ => Bytes.str "1970-01-01T00:00:00Z")
    (show ((twoPlaces.nextProvider.2.at_ [twoPlaces.query]).startQuery
      twoPlaces.query).1.isOk = true by decide +kernel)
  have isListed : Bytes.str "met.no" ∈ decodedTwoPlaces.webQuery.dataprovider.valueList := by
    decide +kernel
  have isEnabled : ∃ entry ∈ decodedTwoPlaces.reftimes.requested (Bytes.str "met.no"),
      entry.2.disabled = false := by
    decide +kernel
  have isDropped : Bytes.str "met.no" ∉ decodedTwoPlaces.keptProviders := by
    decide +kernel
  exact isDropped ((keeps decodedTwoPlaces comes _ isListed).1 isEnabled)

end WdbQueryHelper

end Wdb2ts
