import Wdb2ts.Lib.FirstOccurrences
import Wdb2ts.QueryMaker

/-!
# Provider names without places

`providerWithoutPlacename` lists the providers of the items, and `list::unique` removes the ones
that are repeated next to each other.
-/

namespace Wdb2ts

open FirstOccurrences (EachOnce StandTogether)

theorem unique_cons (name : Bytes) (names : List Bytes) :
    unique (name :: names) = names.destutter' (· ≠ ·) name := by
  induction names generalizing name with
  | nil => rw [unique, List.destutter'_nil]
  | cons other rest ih =>
      rw [unique, List.destutter'_cons]
      by_cases same : name = other
      · rw [if_pos same, if_neg (not_not_intro same), ih]
      · rw [if_neg same, if_pos same, ih]

theorem unique_eq_destutter (names : List Bytes) : unique names = names.destutter (· ≠ ·) := by
  cases names with
  | nil => rw [unique, List.destutter_nil]
  | cons name rest => rw [unique_cons, List.destutter_cons']

namespace ProviderList

/-- The provider names of the items. -/
def providerNames (list : ProviderList) : List Bytes := list.map ProviderItem.provider

/-- Each provider of a list is named once, in the order of the first occurrences, exactly when no
provider occurs again behind another one. -/
theorem providerWithoutPlacename_iff (list : ProviderList) :
    EachOnce list.providerNames list.providerWithoutPlacename ↔
      StandTogether list.providerNames := by
  rw [providerWithoutPlacename, unique_eq_destutter]
  exact FirstOccurrences.eachOnce_destutter_iff list.providerNames

/-- A place of another provider between two places of one. -/
theorem not_eachOnce_interleaved :
    let list : ProviderList :=
      [⟨Bytes.str "met.no", Bytes.str "a"⟩, ⟨Bytes.str "ecmwf", []⟩,
        ⟨Bytes.str "met.no", Bytes.str "b"⟩]
    list.providerWithoutPlacename =
        [Bytes.str "met.no", Bytes.str "ecmwf", Bytes.str "met.no"] ∧
      ¬EachOnce list.providerNames list.providerWithoutPlacename := by
  intro list
  have names : list.providerWithoutPlacename =
      [Bytes.str "met.no", Bytes.str "ecmwf", Bytes.str "met.no"] := by
    rw [providerWithoutPlacename, unique_eq_destutter]
    decide +kernel
  refine ⟨names, fun once => ?_⟩
  have nodup := once.nodup
  rw [names] at nodup
  exact absurd nodup (by decide +kernel)

end ProviderList

end Wdb2ts
