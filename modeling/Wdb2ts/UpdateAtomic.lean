import Wdb2ts.Lib.Fallible
import Wdb2ts.UpdateFrame

/-!
# Updates as a whole

`updateProviderRefTimes` works on a copy of the list and assigns it at the end.  An exception
or a call without a change leaves the list as it was, and a changed list keeps what the requests
do not ask to change.
-/

namespace Wdb2ts

namespace UpdateProviderReftimes

open ProviderRefTimeList

variable (wci : Wci) (isotimeString : PTime → Bytes) (wciProtocol : ℤ)

/-! ## The variables of the program -/

/-- The list of the caller, the copy and the flag of `updateProviderRefTimes`. -/
structure Variables where
  refTimes : ProviderRefTimeList
  tmpRefTimes : ProviderRefTimeList
  changed : Bool

/-- The body of the loop over the requests, on the variables. -/
def updateRequest (request : Bytes × ProviderTimes) (state : Variables) :
    Except Bytes Unit × Variables :=
  let prepared := prepare request (state.tmpRefTimes, state.changed)
  let state := { state with tmpRefTimes := prepared.1, changed := prepared.2.1 }
  match ask wci isotimeString wciProtocol prepared.2.2 request with
  | .error what => (.error what, state)
  | .ok resRefTimes =>
      let updated :=
        resRefTimes.entries.foldl (updateRow request) (state.tmpRefTimes, state.changed)
      (.ok (), { state with tmpRefTimes := updated.1, changed := updated.2 })

/-- The loop over the requests, on the variables. -/
def updateRequests : List (Bytes × ProviderTimes) → Variables → Except Bytes Unit × Variables
  | [], state => (.ok (), state)
  | request :: rest, state =>
      match updateRequest wci isotimeString wciProtocol request state with
      | (.error what, state) => (.error what, state)
      | (.ok _, state) => updateRequests rest state

/-- `updateProviderRefTimes` with the list of the caller: what it returns or throws, and the
list behind the call. -/
def updateList (requestedUpdates refTimes : ProviderRefTimeList) :
    Except Bytes Bool × ProviderRefTimeList :=
  match updateRequests wci isotimeString wciProtocol requestedUpdates.entries
      ⟨refTimes, refTimes, false⟩ with
  | (.error what, state) => (.error what, state.refTimes)
  | (.ok _, state) => (.ok state.changed, state.tmpRefTimes)

/-- The loop leaves the list of the caller alone, and does to the copy what the loop over the
values does. -/
theorem updateRequests_eq (requests : List (Bytes × ProviderTimes)) (state : Variables) :
    (updateRequests wci isotimeString wciProtocol requests state).2.refTimes = state.refTimes ∧
      match updateLoop wci isotimeString wciProtocol requests
          (state.tmpRefTimes, state.changed) with
      | .error what => (updateRequests wci isotimeString wciProtocol requests state).1 = .error what
      | .ok final =>
          (updateRequests wci isotimeString wciProtocol requests state).1 = .ok () ∧
            (updateRequests wci isotimeString wciProtocol requests state).2.tmpRefTimes = final.1 ∧
            (updateRequests wci isotimeString wciProtocol requests state).2.changed = final.2 := by
  induction requests generalizing state with
  | nil => exact ⟨rfl, rfl, rfl, rfl⟩
  | cons request rest ih =>
      cases asked : ask wci isotimeString wciProtocol
          (prepare request (state.tmpRefTimes, state.changed)).2.2 request with
      | error what =>
          simp only [updateRequests, updateRequest, updateLoop, updateOne, asked]
          exact ⟨trivial, rfl⟩
      | ok resRefTimes =>
          simp only [updateRequests, updateRequest, updateLoop, updateOne, asked]
          exact ih _

/-- The call does what the loop over the values does. -/
theorem updateList_eq (requestedUpdates refTimes : ProviderRefTimeList) :
    updateList wci isotimeString wciProtocol requestedUpdates refTimes =
      ((updateProviderRefTimes wci isotimeString wciProtocol requestedUpdates refTimes).map
          Prod.snd,
        refTimesAfter wci isotimeString wciProtocol requestedUpdates refTimes) := by
  have spec := updateRequests_eq wci isotimeString wciProtocol requestedUpdates.entries
    ⟨refTimes, refTimes, false⟩
  simp only [updateList, refTimesAfter, updateProviderRefTimes]
  cases isLoop : updateLoop wci isotimeString wciProtocol requestedUpdates.entries
      (refTimes, false) with
  | error what =>
      simp only [isLoop] at spec
      split
      · rename_i state isError
        rw [isError] at spec
        have same : state.refTimes = refTimes := spec.1
        cases spec.2
        rw [same]
        rfl
      · rename_i isOk
        rw [isOk] at spec
        cases spec.2
  | ok final =>
      simp only [isLoop] at spec
      split
      · rename_i isError
        rw [isError] at spec
        cases spec.2.1
      · rename_i state isOk
        rw [isOk] at spec
        have isList : state.tmpRefTimes = final.1 := spec.2.2.1
        have isChanged : state.changed = final.2 := spec.2.2.2
        rw [isList, isChanged]
        rfl

/-! ## Without a change -/

section Unchanged

variable {request : Bytes × ProviderTimes}

theorem updateMember_of_zero {α : Type} [DecidableEq α] {list : ProviderRefTimeList}
    {provider : Bytes} {member : ProviderTimes → α} {set : ProviderTimes → α → ProviderTimes}
    {value : α} (noUpdate : (updateMember list provider member set value).1 = 0) :
    (updateMember list provider member set value).2 = list := by
  have notUpdated := List.countP_eq_zero.mp noUpdate
  apply SortedMap.ext_find?
  intro name
  simp only [updateMember, SortedMap.find?_mapEntries]
  cases found : list.find? name with
  | none => rfl
  | some times =>
      have unmatched := notUpdated (name, times) (SortedMap.mem_entries_iff.mpr found)
      simp only [Option.map_some, if_neg unmatched]

theorem asked_of_zero {asks : Bool} {list : ProviderRefTimeList}
    {updated : ℕ × ProviderRefTimeList} (same : updated.1 = 0 → updated.2 = list)
    (noUpdate : (if asks then updated else (0, list)).1 = 0) :
    (if asks then updated else (0, list)).2 = list := by
  cases asks with
  | false => rfl
  | true => exact same noUpdate

theorem updateFlags_of_unchanged {list : ProviderRefTimeList}
    (unchanged : (updateFlags request list).1 = false) : (updateFlags request list).2 = list := by
  simp only [updateFlags, Bool.or_eq_false_iff, decide_eq_false_iff_not, not_lt,
    Nat.le_zero] at unchanged ⊢
  obtain ⟨noDisable, noDataversion⟩ := unchanged
  have sameDisable := asked_of_zero updateMember_of_zero noDisable
  have sameDataversion := asked_of_zero updateMember_of_zero noDataversion
  exact sameDataversion.trans sameDisable

theorem prepare_of_unchanged {state : ProviderRefTimeList × Bool}
    (unchanged : (prepare request state).2.1 = false) :
    ((prepare request state).1, (prepare request state).2.1) = state := by
  simp only [prepare] at unchanged ⊢
  split at unchanged
  · rename_i asksReftime
    rw [if_pos asksReftime]
  · rename_i asksReftime
    simp only [Bool.or_eq_false_iff] at unchanged
    simp only [if_neg asksReftime, updateFlags_of_unchanged unchanged.2, unchanged.2,
      Bool.or_false]

theorem updateRow_of_unchanged {state : ProviderRefTimeList × Bool}
    {row : Bytes × ProviderTimes} (unchanged : (updateRow request state row).2 = false) :
    updateRow request state row = state := by
  simp only [updateRow, Bool.or_eq_false_iff] at unchanged ⊢
  obtain ⟨notBefore, notUpdated⟩ := unchanged
  have isEntry : state.1.find? row.1 =
      some (updateEntry request row (state.1.find? row.1)).1 := by
    cases found : state.1.find? row.1 with
    | none =>
        rw [found] at notUpdated
        cases notUpdated
    | some old =>
        rw [found] at notUpdated
        simp only [updateEntry] at notUpdated ⊢
        split at notUpdated
        · rename_i named
          split at notUpdated
          · rename_i sameReftime
            rw [decide_eq_false_iff_not, not_not] at notUpdated
            rw [if_pos named, if_pos sameReftime, notUpdated]
          · cases notUpdated
        · cases notUpdated
  refine Prod.ext (SortedMap.ext_find? fun name => ?_) ?_
  · by_cases same : name = row.1
    · rw [same, SortedMap.find?_insert_self]
      exact isEntry.symm
    · exact SortedMap.find?_insert_of_ne _ same _
  · simp only [notBefore, notUpdated, Bool.or_false]

theorem updateRows_of_unchanged {rows : List (Bytes × ProviderTimes)}
    {state : ProviderRefTimeList × Bool}
    (unchanged : (rows.foldl (updateRow request) state).2 = false) :
    rows.foldl (updateRow request) state = state := by
  induction rows generalizing state with
  | nil => rfl
  | cons row rest ih =>
      have laterSame := ih unchanged
      rw [List.foldl_cons, laterSame] at unchanged ⊢
      exact updateRow_of_unchanged unchanged

end Unchanged

theorem updateLoop_of_unchanged {requests : List (Bytes × ProviderTimes)}
    {state final : ProviderRefTimeList × Bool}
    (isFinal : updateLoop wci isotimeString wciProtocol requests state = .ok final)
    (unchanged : final.2 = false) : final = state := by
  induction requests generalizing state with
  | nil => exact (Except.ok.inj isFinal).symm
  | cons request rest ih =>
      cases asked : ask wci isotimeString wciProtocol (prepare request state).2.2 request with
      | error what =>
          simp only [updateLoop, updateOne, asked] at isFinal
          cases isFinal
      | ok resRefTimes =>
          simp only [updateLoop, updateOne, asked] at isFinal
          have isNext := ih isFinal
          rw [isNext] at unchanged ⊢
          have rowsSame := updateRows_of_unchanged unchanged
          rw [rowsSame] at unchanged ⊢
          exact prepare_of_unchanged unchanged

/-! ## What a request keeps -/

section Kept

variable {request : Bytes × ProviderTimes} {name : Bytes} {old entry : ProviderTimes}

/-- A request is for the provider of an entry, as the program finds the entries of a request:
by the decoded names, or by the name of a row of the answer. -/
def IsFor (request name : Bytes) : Prop :=
  isRequested (ProviderList.decodeItem request) (ProviderList.decodeItem name) = true ∨
    ∃ placename, name =
      ProviderItem.providerWithPlacename ⟨(ProviderList.decodeItem request).provider, placename⟩

/-- An entry keeps the time of its update, when the answers have its reference time, and its
disabled flag, when no request asks to set it. -/
structure EntryKept (sameReftime noDisable : Prop) (old entry : ProviderTimes) : Prop where
  refTime : sameReftime → entry.refTime = old.refTime
  updatedTime : sameReftime → entry.updatedTime = old.updatedTime
  disabled : noDisable → entry.disabled = old.disabled

variable {sameReftime noDisable : Prop}

theorem refTime_withFlags (request old : ProviderTimes) :
    (withFlags request old).refTime = old.refTime := by
  simp only [withFlags]
  split <;> split <;> rfl

theorem updatedTime_withFlags (request old : ProviderTimes) :
    (withFlags request old).updatedTime = old.updatedTime := by
  simp only [withFlags]
  split <;> split <;> rfl

theorem disabled_withFlags {request : ProviderTimes}
    (noRequest : request.disableEnableRequest = false) (old : ProviderTimes) :
    (withFlags request old).disabled = old.disabled := by
  simp only [withFlags, noRequest, Bool.false_eq_true, if_false]
  split <;> rfl

/-- Setting the flags of a request changes the disabled flag only when it is asked for. -/
theorem EntryKept.withFlags (kept : EntryKept sameReftime noDisable old entry)
    (noRequest : noDisable → request.2.disableEnableRequest = false) :
    EntryKept sameReftime noDisable old (withFlags request.2 entry) :=
  { refTime := fun same => (refTime_withFlags _ _).trans (kept.refTime same)
    updatedTime := fun same => (updatedTime_withFlags _ _).trans (kept.updatedTime same)
    disabled := fun none => (disabled_withFlags (noRequest none) _).trans (kept.disabled none) }

theorem find?_updateMember_eq {α : Type} [DecidableEq α] {provider : Bytes}
    {member : ProviderTimes → α} {set : ProviderTimes → α → ProviderTimes}
    (lawful : ∀ times, set times (member times) = times) (value : α)
    (list : ProviderRefTimeList) :
    (updateMember list provider member set value).2.find? name =
      (list.find? name).map fun times =>
        if isRequested (ProviderList.decodeItem provider) (ProviderList.decodeItem name) then
          set times value
        else times := by
  simp only [updateMember, SortedMap.find?_mapEntries]
  refine congrArg (Option.map · _) (funext fun times => ?_)
  by_cases same : member times = value
  · have unchanged := lawful times
    rw [same] at unchanged
    simp only [isUpdated, same, unchanged, ite_self]
  · simp only [isUpdated, same, ne_eq, not_false_eq_true, decide_true, Bool.and_true]

theorem find?_updateDisableStatus_eq (list : ProviderRefTimeList) (provider : Bytes)
    (disable : Bool) :
    (list.updateDisableStatus provider disable).2.find? name =
      (list.find? name).map fun times =>
        if isRequested (ProviderList.decodeItem provider) (ProviderList.decodeItem name) then
          { times with disabled := disable }
        else times :=
  find?_updateMember_eq (fun _ => rfl) disable list

theorem find?_updateDataversion_eq (list : ProviderRefTimeList) (provider : Bytes)
    (dataversion : ℤ) :
    (list.updateDataversion provider dataversion).2.find? name =
      (list.find? name).map fun times =>
        if isRequested (ProviderList.decodeItem provider) (ProviderList.decodeItem name) then
          { times with dataversion := dataversion }
        else times :=
  find?_updateMember_eq (fun _ => rfl) dataversion list

/-- The flags of a request are set in the entries that it is for. -/
theorem find?_updateFlags_eq (list : ProviderRefTimeList) :
    (updateFlags request list).2.find? name =
      (list.find? name).map fun entry =>
        if isRequested (ProviderList.decodeItem request.1) (ProviderList.decodeItem name) then
          withFlags request.2 entry
        else entry := by
  simp only [updateFlags, withFlags]
  cases request.2.disableEnableRequest <;> cases request.2.dataversionRequest
  · simp
  · simp [find?_updateDataversion_eq]
  · simp [find?_updateDisableStatus_eq]
  · simp only [if_true, find?_updateDataversion_eq, find?_updateDisableStatus_eq, Option.map_map]
    refine congrArg (Option.map · _) (funext fun entry => ?_)
    simp only [Function.comp_apply]
    split
    · rfl
    · rfl

/-- The flags of a request are set, before the database is asked. -/
theorem prepare_kept {state : ProviderRefTimeList × Bool}
    (found : state.1.find? name = some entry) (kept : EntryKept sameReftime noDisable old entry)
    (noRequest : IsFor request.1 name → noDisable → request.2.disableEnableRequest = false) :
    ∃ prepared, (prepare request state).1.find? name = some prepared ∧
      EntryKept sameReftime noDisable old prepared := by
  simp only [prepare]
  split
  · exact ⟨entry, found, kept⟩
  · simp only [find?_updateFlags_eq, found, Option.map_some]
    refine ⟨_, rfl, ?_⟩
    split
    · rename_i asked
      exact kept.withFlags (noRequest (Or.inl asked))
    · exact kept

/-- A row of the answer updates the entry of its name. -/
theorem updateEntry_kept {row : ProviderTimes} (kept : EntryKept sameReftime noDisable old entry)
    (noPlacename : ¬HasPlacename request.1) (isSame : sameReftime → row.refTime = old.refTime)
    (noRequest : noDisable → request.2.disableEnableRequest = false) :
    EntryKept sameReftime noDisable old (updateEntry request (name, row) (some entry)).1 := by
  rw [HasPlacename, Bool.not_eq_false] at noPlacename
  simp only [updateEntry, noPlacename, true_or, if_true]
  split
  · exact kept.withFlags noRequest
  · rename_i different
    apply EntryKept.withFlags _ noRequest
    constructor
    · exact isSame
    · intro same
      exact absurd ((kept.refTime same).trans (isSame same).symm) different
    · exact kept.disabled

/-- The rows of the answer update the entries of the provider. -/
theorem updateRows_kept {resRefTimes : ProviderRefTimeList} {state : ProviderRefTimeList × Bool}
    (found : state.1.find? name = some entry) (kept : EntryKept sameReftime noDisable old entry)
    (ofProvider : ∀ row, resRefTimes.find? name = some row → IsFor request.1 name)
    (noPlacename : IsFor request.1 name → ¬HasPlacename request.1)
    (isSame : sameReftime → ∀ row, resRefTimes.find? name = some row → row.refTime = old.refTime)
    (noRequest : IsFor request.1 name → noDisable → request.2.disableEnableRequest = false) :
    ∃ updated, (resRefTimes.entries.foldl (updateRow request) state).1.find? name =
        some updated ∧
      EntryKept sameReftime noDisable old updated := by
  have atName : (resRefTimes.entries.foldl (updateRow request) state).1.find? name =
      (resRefTimes.find? name).elim (state.1.find? name)
        fun row => some (updateEntry request (name, row) (state.1.find? name)).1 := by
    apply SortedMap.foldl_entries (fun state : ProviderRefTimeList × Bool => state.1.find? name)
      (fun entry row => some (updateEntry request (name, row) entry).1)
    · intro state row different
      exact SortedMap.find?_insert_of_ne state.1 different _
    · intro state row
      simp [updateRow]
  rw [atName, found]
  cases isRow : resRefTimes.find? name with
  | none => exact ⟨entry, rfl, kept⟩
  | some row =>
      have isFor := ofProvider row isRow
      refine ⟨_, rfl, ?_⟩
      exact updateEntry_kept kept (noPlacename isFor) (fun same => isSame same row isRow)
        (noRequest isFor)

end Kept

/-! ## The answers -/

/-- The rows of an answer have the provider that is asked for. -/
theorem exists_placename_of_result {provider : Bytes} {rows : List BrowseRow} {name : Bytes}
    {row : ProviderTimes} (found : (ProviderRefTime.result provider rows).find? name = some row) :
    ∃ placename, name = ProviderItem.providerWithPlacename ⟨provider, placename⟩ := by
  induction rows using List.reverseRecOn with
  | nil => cases found
  | append_singleton rows last ih =>
      simp only [ProviderRefTime.result, List.foldl_append, List.foldl_cons,
        List.foldl_nil] at found ih
      cases isTime : last.referencetimeto with
      | none =>
          rw [isTime] at found
          exact ih found
      | some refTime =>
          rw [isTime] at found
          by_cases same : name = ProviderItem.providerWithPlacename ⟨provider, last.placename⟩
          · exact ⟨last.placename, same⟩
          · rw [SortedMap.find?_insert_of_ne _ same] at found
            exact ih found

theorem isFor_of_ask {isAsked : Bool} {request : Bytes × ProviderTimes}
    {resRefTimes : ProviderRefTimeList}
    (asked : ask wci isotimeString wciProtocol isAsked request = .ok resRefTimes)
    {name : Bytes} {row : ProviderTimes} (found : resRefTimes.find? name = some row) :
    IsFor request.1 name := by
  cases isAsked with
  | false =>
      cases asked
      cases found
  | true =>
      simp only [ask, getProviderReftimes, Bool.not_true, Bool.false_eq_true, if_false] at asked
      obtain ⟨answered, isAnswer, asked⟩ := Fallible.exists_of_bind_eq_ok asked
      obtain ⟨rows, -, isResult⟩ := Fallible.exists_of_bind_eq_ok isAnswer
      cases isResult
      split at asked
      · cases asked
      · cases asked
        exact Or.inr (exists_placename_of_result found)

/-- Every answer has the reference time of an entry, if it has a row for the entry. -/
def SameReftime (requests : List (Bytes × ProviderTimes)) (state : ProviderRefTimeList × Bool)
    (name : Bytes) (old : ProviderTimes) : Prop :=
  ∃ log, answers wci isotimeString wciProtocol requests state = .ok log ∧
    ∀ answer ∈ log, ∀ row, answer.2.find? name = some row → row.refTime = old.refTime

/-- The whole loop keeps what the requests do not ask to change. -/
theorem updateLoop_kept {requests : List (Bytes × ProviderTimes)}
    {state final : ProviderRefTimeList × Bool} {name : Bytes} {old entry : ProviderTimes}
    {sameReftime noDisable : Prop}
    (isFinal : updateLoop wci isotimeString wciProtocol requests state = .ok final)
    (found : state.1.find? name = some entry) (kept : EntryKept sameReftime noDisable old entry)
    (noPlacename : ∀ request ∈ requests, IsFor request.1 name → ¬HasPlacename request.1)
    (isSame : sameReftime → SameReftime wci isotimeString wciProtocol requests state name old)
    (noRequest : noDisable →
      ∀ request ∈ requests, IsFor request.1 name → request.2.disableEnableRequest = false) :
    ∃ last, final.1.find? name = some last ∧ EntryKept sameReftime noDisable old last := by
  induction requests generalizing state entry with
  | nil =>
      cases isFinal
      exact ⟨entry, found, kept⟩
  | cons request rest ih =>
      cases asked : ask wci isotimeString wciProtocol (prepare request state).2.2 request with
      | error what =>
          simp only [updateLoop, updateOne, asked] at isFinal
          cases isFinal
      | ok resRefTimes =>
          simp only [updateLoop, updateOne, asked] at isFinal
          have sameRows : sameReftime →
              (∀ row, resRefTimes.find? name = some row → row.refTime = old.refTime) ∧
                SameReftime wci isotimeString wciProtocol rest
                  (resRefTimes.entries.foldl (updateRow request)
                    ((prepare request state).1, (prepare request state).2.1)) name old := by
            intro same
            obtain ⟨log, isLog, sameLog⟩ := isSame same
            simp only [answers, updateOne, asked, bind, Except.bind, pure, Except.pure] at isLog
            split at isLog
            · cases isLog
            · rename_i others isOthers
              cases isLog
              exact ⟨sameLog _ List.mem_cons_self, others, isOthers,
                fun answer member => sameLog answer (List.mem_cons_of_mem _ member)⟩
          obtain ⟨prepared, foundPrepared, keptPrepared⟩ := prepare_kept found kept
            fun isFor none => noRequest none request List.mem_cons_self isFor
          have foundHere : (((prepare request state).1, (prepare request state).2.1) :
              ProviderRefTimeList × Bool).1.find? name = some prepared := foundPrepared
          obtain ⟨updated, foundUpdated, keptUpdated⟩ := updateRows_kept foundHere
            keptPrepared (fun _ isRow => isFor_of_ask wci isotimeString wciProtocol asked isRow)
            (noPlacename request List.mem_cons_self) (fun same => (sameRows same).1)
            fun isFor none => noRequest none request List.mem_cons_self isFor
          exact ih isFinal foundUpdated keptUpdated
            (fun later member => noPlacename later (List.mem_cons_of_mem _ member))
            (fun same => (sameRows same).2)
            fun none later member => noRequest none later (List.mem_cons_of_mem _ member)

/-- An update that throws or returns false leaves the list unchanged.  An entry whose provider is
asked for without a place name keeps the time of its update, when the database has its reference
time, and its disabled flag, unless a request for it asks to set the flag. -/
theorem updateList_atomic (requestedUpdates refTimes : ProviderRefTimeList) :
    let call := updateList wci isotimeString wciProtocol requestedUpdates refTimes
    (∀ what, call.1 = .error what → call.2 = refTimes) ∧
      (call.1 = .ok false → call.2 = refTimes) ∧
      ∀ name old, refTimes.find? name = some old →
        (∀ request ∈ requestedUpdates.entries, IsFor request.1 name → ¬HasPlacename request.1) →
        ∃ entry, call.2.find? name = some entry ∧
          (SameReftime wci isotimeString wciProtocol requestedUpdates.entries (refTimes, false)
              name old →
            entry.updatedTime = old.updatedTime) ∧
          ((∀ request ∈ requestedUpdates.entries, IsFor request.1 name →
              request.2.disableEnableRequest = false) →
            entry.disabled = old.disabled) := by
  simp only [updateList_eq, refTimesAfter]
  cases isFinal : updateProviderRefTimes wci isotimeString wciProtocol requestedUpdates
      refTimes with
  | error what =>
      refine ⟨fun _ _ => rfl, fun _ => rfl, fun name old found _ => ?_⟩
      exact ⟨old, found, fun _ => rfl, fun _ => rfl⟩
  | ok final =>
      refine ⟨fun what failed => ?_, fun isFalse => ?_, fun name old found noPlacename => ?_⟩
      · cases failed
      · have unchanged : final.2 = false := Except.ok.inj isFalse
        exact congrArg Prod.fst
          (updateLoop_of_unchanged wci isotimeString wciProtocol isFinal unchanged)
      · obtain ⟨entry, foundLast, kept⟩ := updateLoop_kept wci isotimeString wciProtocol isFinal
          found ⟨fun _ => rfl, fun _ => rfl, fun _ => rfl⟩ noPlacename id id
        exact ⟨entry, foundLast, kept.updatedTime, kept.disabled⟩

end UpdateProviderReftimes

end Wdb2ts
