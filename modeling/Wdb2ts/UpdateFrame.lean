import Wdb2ts.UpdateProviderReftimes

/-!
# What an update leaves alone

An answer of the database has rows for all the places of a provider.  A row for a place
that is not the requested one overwrites the entry of that place, so an entry that was not
asked for keeps its values exactly when the last row written over it has the same ones.
-/

namespace Wdb2ts

namespace UpdateProviderReftimes

open ProviderRefTimeList

/-! ## The entries a request asks for -/

/-- The name of an entry is the one of a request, as the program compares names: both are
decoded to the same item, or the name is the one the request is decoded to. -/
def Names (request name : Bytes) : Prop :=
  ProviderList.decodeItem request = ProviderList.decodeItem name ∨
    (ProviderList.decodeItem request).providerWithPlacename = name

instance (request name : Bytes) : Decidable (Names request name) :=
  inferInstanceAs (Decidable (_ ∨ _))

/-- The requested updates have a request for the entry. -/
def IsAskedFor (requestedUpdates : ProviderRefTimeList) (name : Bytes) : Prop :=
  ∃ request ∈ requestedUpdates.keys, Names request name

/-- A request with a place name. -/
def HasPlacename (request : Bytes) : Prop :=
  (ProviderList.decodeItem request).placename.isEmpty = false

instance (request : Bytes) : Decidable (HasPlacename request) :=
  inferInstanceAs (Decidable (_ = _))

/-! ## One request -/

section OneRequest

variable {request : Bytes × ProviderTimes} {name : Bytes}

theorem isRequested_eq_false (placed : HasPlacename request.1)
    (other : ¬Names request.1 name) :
    isRequested (ProviderList.decodeItem request.1) (ProviderList.decodeItem name) = false := by
  have different : ProviderList.decodeItem request.1 ≠ ProviderList.decodeItem name :=
    fun same => other (Or.inl same)
  rw [HasPlacename] at placed
  simp [isRequested, placed, different]

theorem find?_updateFlags (placed : HasPlacename request.1) (other : ¬Names request.1 name)
    (tmpRefTimes : ProviderRefTimeList) :
    (updateFlags request tmpRefTimes).2.find? name = tmpRefTimes.find? name := by
  have unmatched := isRequested_eq_false placed other
  simp only [updateFlags]
  split
  · split
    · rw [find?_updateDataversion _ _ _ unmatched, find?_updateDisableStatus _ _ _ unmatched]
    · exact find?_updateDataversion _ _ _ unmatched
  · split
    · exact find?_updateDisableStatus _ _ _ unmatched
    · rfl

theorem find?_prepare (placed : HasPlacename request.1) (other : ¬Names request.1 name)
    (state : ProviderRefTimeList × Bool) :
    (prepare request state).1.find? name = state.1.find? name := by
  simp only [prepare]
  split
  · rfl
  · exact find?_updateFlags placed other state.1

/-- The row of an entry that the request does not name overwrites it. -/
theorem updateEntry_of_other (placed : HasPlacename request.1) (other : ¬Names request.1 name)
    (row : ProviderTimes) (entry : Option ProviderTimes) :
    (updateEntry request (name, row) entry).1 = overwritten request.2 row := by
  have different : name ≠ (ProviderList.decodeItem request.1).providerWithPlacename :=
    fun same => other (Or.inr same.symm)
  rw [HasPlacename] at placed
  cases entry with
  | none => rfl
  | some old => simp [updateEntry, placed, different]

theorem find?_updateRows (placed : HasPlacename request.1) (other : ¬Names request.1 name)
    (resRefTimes : ProviderRefTimeList) (state : ProviderRefTimeList × Bool) :
    (resRefTimes.entries.foldl (updateRow request) state).1.find? name =
      ((resRefTimes.find? name).map (overwritten request.2)).or (state.1.find? name) := by
  have atName : (resRefTimes.entries.foldl (updateRow request) state).1.find? name =
      (resRefTimes.find? name).elim (state.1.find? name)
        fun row => some (overwritten request.2 row) := by
    apply SortedMap.foldl_entries
      (fun state : ProviderRefTimeList × Bool => state.1.find? name)
      (fun _ row => some (overwritten request.2 row))
    · intro state row different
      exact SortedMap.find?_insert_of_ne state.1 different _
    · intro state row
      simp [updateRow, updateEntry_of_other placed other]
  rw [atName]
  cases resRefTimes.find? name with
  | none => rfl
  | some row => rfl

end OneRequest

/-! ## The whole update -/

/-- What was written over an entry last: the last answer with a row for it, with the flags of
its request. -/
def lastWritten (name : Bytes) :
    List ((Bytes × ProviderTimes) × ProviderRefTimeList) → Option ProviderTimes
  | [] => none
  | (request, resRefTimes) :: rest =>
      (lastWritten name rest).or ((resRefTimes.find? name).map (overwritten request.2))

section Update

variable (wci : Wci) (isotimeString : PTime → Bytes) (wciProtocol : ℤ)

/-- The requests of an update with the answers of the database. -/
def answers : List (Bytes × ProviderTimes) → ProviderRefTimeList × Bool →
    Except Bytes (List ((Bytes × ProviderTimes) × ProviderRefTimeList))
  | [], _ => pure []
  | request :: rest, state => do
      let resRefTimes ← ask wci isotimeString wciProtocol (prepare request state).2.2 request
      let next ← updateOne wci isotimeString wciProtocol state request
      let others ← answers rest next
      pure ((request, resRefTimes) :: others)

/-- After an update an entry that is not named has what was written over it last.  An
update fails when a query does. -/
theorem updateLoop_spec {name : Bytes} (requests : List (Bytes × ProviderTimes))
    (placed : ∀ request ∈ requests, HasPlacename request.1)
    (other : ∀ request ∈ requests, ¬Names request.1 name)
    (state : ProviderRefTimeList × Bool) :
    (∃ final log, updateLoop wci isotimeString wciProtocol requests state = .ok final ∧
        answers wci isotimeString wciProtocol requests state = .ok log ∧
        final.1.find? name = (lastWritten name log).or (state.1.find? name)) ∨
      ∃ text, updateLoop wci isotimeString wciProtocol requests state = .error text ∧
        answers wci isotimeString wciProtocol requests state = .error text := by
  induction requests generalizing state with
  | nil => exact Or.inl ⟨state, [], rfl, rfl, rfl⟩
  | cons request rest ih =>
      have ownPlaced := placed request List.mem_cons_self
      have ownOther := other request List.mem_cons_self
      cases asked : ask wci isotimeString wciProtocol (prepare request state).2.2 request with
      | error text =>
          apply Or.inr
          refine ⟨text, ?_, ?_⟩
          · simp only [updateLoop, updateOne, asked]
            rfl
          · simp only [answers, asked]
            rfl
      | ok resRefTimes =>
          have next := ih (fun later member => placed later (List.mem_cons_of_mem _ member))
            (fun later member => other later (List.mem_cons_of_mem _ member))
            (resRefTimes.entries.foldl (updateRow request)
              ((prepare request state).1, (prepare request state).2.1))
          rw [find?_updateRows ownPlaced ownOther, find?_prepare ownPlaced ownOther] at next
          rcases next with ⟨final, log, isFinal, isLog, found⟩ | ⟨text, failed, failedLog⟩
          · apply Or.inl
            refine ⟨final, (request, resRefTimes) :: log, ?_, ?_, ?_⟩
            · simp only [updateLoop, updateOne, asked]
              exact isFinal
            · simp only [answers, updateOne, asked]
              exact congrArg (Except.map ((request, resRefTimes) :: ·)) isLog
            · rw [found, lastWritten, Option.or_assoc]
          · apply Or.inr
            refine ⟨text, ?_, ?_⟩
            · simp only [updateLoop, updateOne, asked]
              exact failed
            · simp only [answers, updateOne, asked]
              exact congrArg (Except.map ((request, resRefTimes) :: ·)) failedLog

end Update

/-! ## Entries that are not asked for -/

/-- The members of an entry that are kept on disk are the same. -/
structure SameTimes (left right : ProviderTimes) : Prop where
  refTime : left.refTime = right.refTime
  updatedTime : left.updatedTime = right.updatedTime
  disabled : left.disabled = right.disabled
  dataversion : left.dataversion = right.dataversion

section Frame

variable (wci : Wci) (isotimeString : PTime → Bytes) (wciProtocol : ℤ)
  (requestedUpdates refTimes : ProviderRefTimeList)

/-- The entry after the call: an update that fails keeps it. -/
theorem find?_refTimesAfter {name : Bytes}
    (placed : ∀ request ∈ requestedUpdates.keys, HasPlacename request)
    (other : ¬IsAskedFor requestedUpdates name) :
    (∃ log, answers wci isotimeString wciProtocol requestedUpdates.entries (refTimes, false) =
        .ok log ∧
      (refTimesAfter wci isotimeString wciProtocol requestedUpdates refTimes).find? name =
        (lastWritten name log).or (refTimes.find? name)) ∨
      ∃ text, answers wci isotimeString wciProtocol requestedUpdates.entries (refTimes, false) =
        .error text ∧
        refTimesAfter wci isotimeString wciProtocol requestedUpdates refTimes = refTimes := by
  have placedEntries : ∀ request ∈ requestedUpdates.entries, HasPlacename request.1 :=
    fun request member => placed request.1 (List.mem_map_of_mem member)
  have otherEntries : ∀ request ∈ requestedUpdates.entries, ¬Names request.1 name :=
    fun request member names => other ⟨request.1, List.mem_map_of_mem member, names⟩
  have spec := updateLoop_spec wci isotimeString wciProtocol requestedUpdates.entries
    placedEntries otherEntries (refTimes, false)
  rcases spec with ⟨final, log, isFinal, isLog, found⟩ | ⟨text, failed, failedLog⟩
  · refine Or.inl ⟨log, isLog, ?_⟩
    rw [refTimesAfter, updateProviderRefTimes, isFinal]
    exact found
  · refine Or.inr ⟨text, failedLog, ?_⟩
    rw [refTimesAfter, updateProviderRefTimes, failed]

/-- An update keeps the entries that were not asked for. -/
def KeepsOthers : Prop :=
  ∀ name times, refTimes.find? name = some times → ¬IsAskedFor requestedUpdates name →
    ∃ after, (refTimesAfter wci isotimeString wciProtocol requestedUpdates refTimes).find? name =
      some after ∧ SameTimes after times

/-- When every query has an answer, what is written last over an entry that was not asked for
is what the entry has already. -/
def AnswersAgree : Prop :=
  ∀ log, answers wci isotimeString wciProtocol requestedUpdates.entries (refTimes, false) =
      .ok log →
    ∀ name times, refTimes.find? name = some times → ¬IsAskedFor requestedUpdates name →
      ∀ written, lastWritten name log = some written → SameTimes written times

/-- The entries that were not asked for are kept exactly when the answers agree with them. -/
theorem keepsOthers_iff_answersAgree
    (placed : ∀ request ∈ requestedUpdates.keys, HasPlacename request) :
    KeepsOthers wci isotimeString wciProtocol requestedUpdates refTimes ↔
      AnswersAgree wci isotimeString wciProtocol requestedUpdates refTimes := by
  constructor
  · intro keeps log isLog name times found other written isWritten
    rcases find?_refTimesAfter wci isotimeString wciProtocol requestedUpdates refTimes placed
      other with ⟨_, sameLog, after⟩ | ⟨_, failed, _⟩
    · rw [isLog] at sameLog
      cases sameLog
      rcases keeps name times found other with ⟨entry, isEntry, same⟩
      rw [after, isWritten] at isEntry
      cases isEntry
      exact same
    · rw [isLog] at failed
      cases failed
  · intro agree name times found other
    rcases find?_refTimesAfter wci isotimeString wciProtocol requestedUpdates refTimes placed
      other with ⟨log, isLog, after⟩ | ⟨_, _, unchanged⟩
    · rw [after]
      cases isWritten : lastWritten name log with
      | none => exact ⟨times, found, rfl, rfl, rfl, rfl⟩
      | some written => exact ⟨written, rfl, agree log isLog name times found other written isWritten⟩
    · rw [unchanged]
      exact ⟨times, found, rfl, rfl, rfl, rfl⟩

end Frame

/-! ### A place that is not requested -/

section OtherPlace

/-- Two places of one provider, the first one disabled. -/
def twoPlaces : ProviderRefTimeList :=
  ((∅ : ProviderRefTimeList).insert (Bytes.str "arome [north]")
    { ProviderTimes.create (.ticks 0) (.ticks 1) with disabled := true }).insert
    (Bytes.str "arome [south]") (ProviderTimes.create (.ticks 0) (.ticks 1))

/-- A request for the newest reference time of the second place. -/
def requestSouth : ProviderRefTimeList :=
  (∅ : ProviderRefTimeList).insert (Bytes.str "arome [south]")
    { (default : ProviderTimes) with reftimeUpdateRequest := true }

/-- A database with a new reference time for both places. -/
def bothPlaces : Wci := fun _ _ _ _ =>
  .ok [⟨Bytes.str "north", some (.ticks 6), .ticks 7⟩,
    ⟨Bytes.str "south", some (.ticks 6), .ticks 7⟩]

/-- A database with a new reference time for the second place only. -/
def onlySouth : Wci := fun _ _ _ _ => .ok [⟨Bytes.str "south", some (.ticks 6), .ticks 7⟩]

theorem not_isAskedFor_north : ¬IsAskedFor requestSouth (Bytes.str "arome [north]") := by
  rintro ⟨request, member, names⟩
  rw [show requestSouth.keys = [Bytes.str "arome [south]"] from by decide,
    List.mem_singleton] at member
  subst member
  revert names
  decide

/-- Asking for one place enables the other one. -/
theorem not_keepsOthers_bothPlaces :
    ¬KeepsOthers bothPlaces (fun _ => []) 2 requestSouth twoPlaces := by
  intro keeps
  have before : twoPlaces.find? (Bytes.str "arome [north]") =
      some { ProviderTimes.create (.ticks 0) (.ticks 1) with disabled := true } := by decide
  have updated : (refTimesAfter bothPlaces (fun _ => []) 2 requestSouth twoPlaces).find?
      (Bytes.str "arome [north]") = some (ProviderTimes.create (.ticks 6) (.ticks 7)) := by
    decide
  rcases keeps _ _ before not_isAskedFor_north with ⟨after, isAfter, same⟩
  rw [updated] at isAfter
  cases isAfter
  cases same.disabled

theorem keepsOthers_iff_answersAgree_onlySouth :
    KeepsOthers onlySouth (fun _ => []) 2 requestSouth twoPlaces ↔
      AnswersAgree onlySouth (fun _ => []) 2 requestSouth twoPlaces := by
  apply keepsOthers_iff_answersAgree
  decide

end OtherPlace

end UpdateProviderReftimes

end Wdb2ts
