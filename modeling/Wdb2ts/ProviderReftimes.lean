import Wdb2ts.Lib.SortedMap
import Wdb2ts.PTime
import Wdb2ts.ProviderList

/-!
# Reference times of providers

A reference time list keeps, for every provider with its place name, the reference time
and the data version that are served, and whether the provider is disabled.  An update
request is a list of the same type, whose flags say what is asked for.
-/

namespace Wdb2ts

/-- `ProviderTimes`. -/
structure ProviderTimes where
  refTime : PTime
  updatedTime : PTime
  disableEnableRequest : Bool
  dataversionRequest : Bool
  reftimeUpdateRequest : Bool
  disabled : Bool
  dataversion : ℤ
  deriving DecidableEq

namespace ProviderTimes

/-- The constructor with its default arguments. -/
def create (refTime updatedTime : PTime) : ProviderTimes :=
  { refTime := refTime, updatedTime := updatedTime, disableEnableRequest := false,
    dataversionRequest := false, reftimeUpdateRequest := false, disabled := false,
    dataversion := -1 }

/-- `ProviderTimes()`. -/
instance : Inhabited ProviderTimes := ⟨create default default⟩

end ProviderTimes

/-- `ProviderRefTimeList`. -/
abbrev ProviderRefTimeList := SortedMap Bytes ProviderTimes

namespace ProviderRefTimeList

/-- The test of the loops of `ProviderRefTimeList`: an item without a place name stands for
all the places of its provider. -/
def isRequested (pvItemIn pvItem : ProviderItem) : Bool :=
  !pvItemIn.placename.isEmpty && decide (pvItemIn = pvItem) ||
    pvItemIn.placename.isEmpty && decide (pvItemIn.provider = pvItem.provider)

/-- Is an entry updated with a new value of one member? -/
def isUpdated {α : Type} [DecidableEq α] (provider : Bytes) (member : ProviderTimes → α)
    (value : α) (name : Bytes) (times : ProviderTimes) : Bool :=
  isRequested (ProviderList.decodeItem provider) (ProviderList.decodeItem name) &&
    decide (member times ≠ value)

/-- The loop of `updateDisableStatus` and `updateDataversion`.  Returns the number of
entries that are updated. -/
def updateMember {α : Type} [DecidableEq α] (list : ProviderRefTimeList) (provider : Bytes)
    (member : ProviderTimes → α) (set : ProviderTimes → α → ProviderTimes) (value : α) :
    ℕ × ProviderRefTimeList :=
  (list.entries.countP fun entry => isUpdated provider member value entry.1 entry.2,
    list.mapEntries fun name times =>
      if isUpdated provider member value name times then set times value else times)

/-- `ProviderRefTimeList::updateDisableStatus`. -/
def updateDisableStatus (list : ProviderRefTimeList) (provider : Bytes) (disable : Bool) :
    ℕ × ProviderRefTimeList :=
  updateMember list provider ProviderTimes.disabled
    (fun times disabled => { times with disabled := disabled }) disable

/-- `ProviderRefTimeList::updateDataversion`. -/
def updateDataversion (list : ProviderRefTimeList) (provider : Bytes) (dataversion : ℤ) :
    ℕ × ProviderRefTimeList :=
  updateMember list provider ProviderTimes.dataversion
    (fun times dataversion => { times with dataversion := dataversion }) dataversion

/-- `ProviderRefTimeList::disabled`. -/
def disabled (list : ProviderRefTimeList) (provider : Bytes) : Option Bool :=
  (list.entries.find? fun entry =>
    isRequested (ProviderList.decodeItem provider)
      (ProviderList.decodeItem entry.1)).map fun entry => entry.2.disabled

/-- The entries of another provider or place keep their values. -/
theorem find?_updateMember {α : Type} [DecidableEq α] (list : ProviderRefTimeList)
    (provider : Bytes) (member : ProviderTimes → α) (set : ProviderTimes → α → ProviderTimes)
    (value : α) {name : Bytes}
    (other : isRequested (ProviderList.decodeItem provider) (ProviderList.decodeItem name) =
      false) :
    (updateMember list provider member set value).2.find? name = list.find? name := by
  simp only [updateMember]
  rw [SortedMap.find?_mapEntries]
  simp [isUpdated, other]

theorem find?_updateDisableStatus (list : ProviderRefTimeList) (provider : Bytes)
    (disable : Bool) {name : Bytes}
    (other : isRequested (ProviderList.decodeItem provider) (ProviderList.decodeItem name) =
      false) : (list.updateDisableStatus provider disable).2.find? name = list.find? name :=
  find?_updateMember list provider _ _ disable other

theorem find?_updateDataversion (list : ProviderRefTimeList) (provider : Bytes)
    (dataversion : ℤ) {name : Bytes}
    (other : isRequested (ProviderList.decodeItem provider) (ProviderList.decodeItem name) =
      false) : (list.updateDataversion provider dataversion).2.find? name = list.find? name :=
  find?_updateMember list provider _ _ dataversion other

end ProviderRefTimeList

end Wdb2ts
