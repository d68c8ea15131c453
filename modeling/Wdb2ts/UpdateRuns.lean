import Wdb2ts.Lib.FilteredMap
import Wdb2ts.NoteProviderReftime
import Wdb2ts.UpdateRequests

/-!
# Runs of update requests

What every update keeps of the list of reference times.  The list that it stores can be read
back from the disk after any run of updates, and a provider that is disabled is left out of the
forecasts.
-/

namespace Wdb2ts

/-- `removeDisabledProviders`. -/
def removeDisabledProviders (providers : ProviderList) (reftimes : ProviderRefTimeList) :
    ProviderList :=
  providers.filter fun item =>
    match reftimes.find? item.providerWithPlacename with
    | none => true
    | some times => !times.disabled

namespace ProviderRefTimeList

/-- A property of every entry of a list. -/
def Every (good : Bytes → ProviderTimes → Prop) (list : ProviderRefTimeList) : Prop :=
  ∀ name times, list.find? name = some times → good name times

variable {good : Bytes → ProviderTimes → Prop} {list : ProviderRefTimeList}

theorem every_empty : Every good ∅ := by
  intro name times found
  cases found

theorem Every.insert (every : Every good list) {name : Bytes} {times : ProviderTimes}
    (isGood : good name times) : Every good (list.insert name times) := by
  intro other otherTimes found
  rw [SortedMap.find?_insert] at found
  split at found
  · rename_i same
    cases found
    rw [same]
    exact isGood
  · exact every other otherTimes found

theorem Every.restrict (every : Every good list) (keep : Bytes → Bool) :
    Every good (list.restrict keep) := by
  intro name times found
  rw [SortedMap.find?_restrict] at found
  split at found
  · exact every name times found
  · cases found

theorem Every.updateMember {α : Type} [DecidableEq α] (every : Every good list)
    {provider : Bytes} {member : ProviderTimes → α} {set : ProviderTimes → α → ProviderTimes}
    {value : α} (isSet : ∀ name times, good name times → good name (set times value)) :
    Every good (list.updateMember provider member set value).2 := by
  intro name times found
  simp only [ProviderRefTimeList.updateMember] at found
  rw [SortedMap.find?_mapEntries, Option.map_eq_some_iff] at found
  rcases found with ⟨old, isOld, rfl⟩
  split
  · exact isSet name old (every name old isOld)
  · exact every name old isOld

end ProviderRefTimeList

namespace UpdateProviderReftimes

open ProviderRefTimeList

/-! ## What the loop over the requests keeps -/

section Loop

variable {wci : Wci} {isotimeString : PTime → Bytes} {wciProtocol : ℤ}
  {good : Bytes → ProviderTimes → Prop}

/-- The flags of a request keep a property of the entries. -/
structure FlagsKeep (good : Bytes → ProviderTimes → Prop) (request : ProviderTimes) : Prop where
  disabled : ∀ name times, request.disableEnableRequest = true → good name times →
    good name { times with disabled := request.disabled }
  dataversion : ∀ name times, request.dataversionRequest = true → good name times →
    good name { times with dataversion := request.dataversion }

theorem FlagsKeep.updateFlags {request : Bytes × ProviderTimes} (keeps : FlagsKeep good request.2)
    {list : ProviderRefTimeList} (every : Every good list) :
    Every good (updateFlags request list).2 := by
  have afterDisable : Every good (if request.2.disableEnableRequest then
      list.updateDisableStatus request.1 request.2.disabled else (0, list)).2 := by
    split
    · rename_i asked
      apply every.updateMember
      intro name times isGood
      exact keeps.disabled name times asked isGood
    · exact every
  simp only [UpdateProviderReftimes.updateFlags]
  split
  · rename_i asked
    apply afterDisable.updateMember
    intro name times isGood
    exact keeps.dataversion name times asked isGood
  · exact afterDisable

theorem FlagsKeep.prepare {request : Bytes × ProviderTimes} (keeps : FlagsKeep good request.2)
    {state : ProviderRefTimeList × Bool} (every : Every good state.1) :
    Every good (prepare request state).1 := by
  simp only [UpdateProviderReftimes.prepare]
  split
  · exact every
  · exact keeps.updateFlags every

theorem FlagsKeep.withFlags {request : ProviderTimes} (keeps : FlagsKeep good request)
    {name : Bytes} {old : ProviderTimes} (isGood : good name old) :
    good name (withFlags request old) := by
  have versioned : good name (if request.dataversionRequest then
      { old with dataversion := request.dataversion } else old) := by
    split
    · rename_i asked
      exact keeps.dataversion name old asked isGood
    · exact isGood
  simp only [UpdateProviderReftimes.withFlags]
  split
  · rename_i asked
    exact keeps.disabled name _ asked versioned
  · exact versioned

/-- The entries that the rows of an answer make have a property when every row, with the flags
of the request or of the old entry, has it. -/
theorem every_updateRows {request : Bytes × ProviderTimes} {resRefTimes : ProviderRefTimeList}
    (rows : ∀ name times, resRefTimes.find? name = some times →
      ∀ entry : Option ProviderTimes, (∀ old, entry = some old → good name old) →
        good name (updateEntry request (name, times) entry).1)
    {state : ProviderRefTimeList × Bool} (every : Every good state.1) :
    Every good (resRefTimes.entries.foldl (updateRow request) state).1 := by
  have each : ∀ row ∈ resRefTimes.entries, resRefTimes.find? row.1 = some row.2 :=
    fun row member => SortedMap.mem_entries_iff.mp member
  generalize resRefTimes.entries = entries at each
  induction entries generalizing state with
  | nil => exact every
  | cons row rest ih =>
      rw [List.foldl_cons]
      apply ih
      · simp only [updateRow]
        apply every.insert
        apply rows row.1 row.2 (each row List.mem_cons_self)
        exact fun old isOld => every row.1 old isOld
      · exact fun other member => each other (List.mem_cons_of_mem row member)

/-- What one request keeps of every entry, the whole update keeps. -/
theorem every_updateLoop {requests : List (Bytes × ProviderTimes)}
    (keeps : ∀ request ∈ requests, ∀ state next,
      updateOne wci isotimeString wciProtocol state request = .ok next →
        Every good state.1 → Every good next.1)
    {state final : ProviderRefTimeList × Bool}
    (isFinal : updateLoop wci isotimeString wciProtocol requests state = .ok final)
    (every : Every good state.1) : Every good final.1 := by
  induction requests generalizing state with
  | nil =>
      cases isFinal
      exact every
  | cons request rest ih =>
      simp only [updateLoop] at isFinal
      cases isNext : updateOne wci isotimeString wciProtocol state request with
      | error what =>
          rw [isNext] at isFinal
          cases isFinal
      | ok next =>
          rw [isNext] at isFinal
          apply ih _ isFinal
          · exact keeps request List.mem_cons_self state next isNext every
          · exact fun other member => keeps other (List.mem_cons_of_mem request member)

/-- A request is its flags and then the rows of its answer. -/
theorem updateOne_eq_ok {request : Bytes × ProviderTimes}
    {state next : ProviderRefTimeList × Bool}
    (isNext : updateOne wci isotimeString wciProtocol state request = .ok next) :
    ∃ resRefTimes, ask wci isotimeString wciProtocol (prepare request state).2.2 request =
        .ok resRefTimes ∧
      next = resRefTimes.entries.foldl (updateRow request)
        ((prepare request state).1, (prepare request state).2.1) := by
  simp only [updateOne] at isNext
  cases isAnswer : ask wci isotimeString wciProtocol (prepare request state).2.2 request with
  | error what =>
      rw [isAnswer] at isNext
      cases isNext
  | ok resRefTimes =>
      rw [isAnswer] at isNext
      cases isNext
      exact ⟨resRefTimes, rfl, rfl⟩

/-- The answer to a request is made from rows of the database. -/
theorem every_ask {isAsked : Bool} {request : Bytes × ProviderTimes}
    {resRefTimes : ProviderRefTimeList}
    (isAnswer : ask wci isotimeString wciProtocol isAsked request = .ok resRefTimes)
    (rows : ∀ reftimespec dataversion found, wci request.1
      (ProviderList.decodeItem request.1).provider reftimespec dataversion = .ok found →
        ∀ row ∈ found, ∀ refTime, row.referencetimeto = some refTime →
          good (ProviderItem.providerWithPlacename
            ⟨(ProviderList.decodeItem request.1).provider, row.placename⟩)
            (ProviderTimes.create refTime row.universal_time)) : Every good resRefTimes := by
  simp only [ask] at isAnswer
  cases isAsked with
  | false =>
      cases isAnswer
      exact every_empty
  | true =>
      simp only [Bool.not_true, Bool.false_eq_true, if_false, getProviderReftimes] at isAnswer
      cases isFound : wci request.1 (ProviderList.decodeItem request.1).provider
          (reftimeSpec isotimeString wciProtocol request.2.refTime) request.2.dataversion with
      | error what =>
          rw [isFound] at isAnswer
          cases isAnswer
      | ok found =>
          rw [isFound] at isAnswer
          have goodRows := rows _ _ found isFound
          have result : Every good
              (ProviderRefTime.result (ProviderList.decodeItem request.1).provider found) := by
            simp only [ProviderRefTime.result]
            have start : Every good (∅ : ProviderRefTimeList) := every_empty
            generalize (∅ : ProviderRefTimeList) = list at start ⊢
            clear isFound isAnswer
            induction found generalizing list with
            | nil => exact start
            | cons row rest ih =>
                rw [List.foldl_cons]
                apply ih (fun other member => goodRows other (List.mem_cons_of_mem row member))
                cases isTime : row.referencetimeto with
                | none => exact start
                | some refTime =>
                    exact start.insert (goodRows row List.mem_cons_self refTime isTime)
          simp only [bind, Except.bind, pure, Except.pure] at isAnswer
          split at isAnswer
          · cases isAnswer
          · cases isAnswer
            exact result

end Loop

end UpdateProviderReftimes

namespace LocationForecastUpdateHandler

open ProviderRefTimeList UpdateProviderReftimes

/-! ## The requests of an update -/

/-- A value of the type `int`. -/
def InRange (number : ℤ) : Prop := -2147483648 ≤ number ∧ number ≤ 2147483647

theorem inRange_lexicalCastInt {text : Bytes} {number : ℤ}
    (isNumber : lexicalCastInt text = some number) : InRange number := by
  simp only [lexicalCastInt, Option.ite_none_left_eq_some, Option.some.injEq] at isNumber
  rcases isNumber with ⟨_, bounds, rfl⟩
  rw [not_or, not_lt, not_lt] at bounds
  exact bounds

/-- What `decodeQueryValue` asks for: a version in the range of its type, and no reference time
together with a flag. -/
structure Requests (times : ProviderTimes) : Prop where
  dataversion : InRange times.dataversion
  flagAlone : times.disableEnableRequest = true → times.reftimeUpdateRequest = false

theorem requests_default : Requests default :=
  { dataversion := ⟨by decide, by decide⟩
    flagAlone := nofun }

theorem requests_decodeProviderTimes (universalTime : ℤ) (val : Bytes) :
    Requests (decodeProviderTimes universalTime val).1 := by
  have unchanged := requests_default
  simp only [decodeProviderTimes]
  split
  · exact ⟨unchanged.dataversion, nofun⟩
  · split
    · exact ⟨unchanged.dataversion, fun _ => rfl⟩
    · split
      · rename_i zero version _
        cases isVersion : lexicalCastInt version with
        | none => exact unchanged
        | some dataversion => exact ⟨inRange_lexicalCastInt isVersion, nofun⟩
      · split
        · exact unchanged
        · rename_i version _
          have versioned : ∀ times, withDataversion default version = some times →
              InRange times.dataversion ∧ times.disableEnableRequest = false := by
            intro times isVersioned
            simp only [withDataversion] at isVersioned
            split at isVersioned
            · cases isVersioned
              exact ⟨unchanged.dataversion, rfl⟩
            · rw [Option.map_eq_some_iff] at isVersioned
              rcases isVersioned with ⟨dataversion, isVersion, rfl⟩
              exact ⟨inRange_lexicalCastInt isVersion, rfl⟩
          cases isVersioned : withDataversion default version with
          | none => exact unchanged
          | some times =>
              rcases versioned times isVersioned with ⟨inRange, noFlag⟩
              simp only [withRefTime]
              split
              · exact ⟨inRange, fun asked => absurd asked (by simp [noFlag])⟩
              · exact ⟨inRange, fun asked => absurd asked (by simp [noFlag])⟩

theorem every_decodeKeys (universalTime : ℤ) (params : SortedMap Bytes Bytes)
    (keys : List Bytes) {newRefTime : ProviderRefTimeList}
    (every : Every (fun _ => Requests) newRefTime) :
    Every (fun _ => Requests) (decodeKeys universalTime params keys newRefTime).1 := by
  induction keys generalizing newRefTime with
  | nil => exact every
  | cons iKey rest ih =>
      simp only [decodeKeys]
      split
      · exact every
      · have decoded : Every (fun _ => Requests) (decodeQueryValue universalTime
            (ProviderList.decodeItem (trim iKey)).providerWithPlacename
            (trim ((params.find? iKey).getD [])) newRefTime).1 := by
          simp only [decodeQueryValue]
          split
          · exact every
          · exact every.insert (requests_decodeProviderTimes universalTime _)
        split
        · exact ih decoded
        · exact decoded

theorem every_decodeQuery (universalTime : ℤ) (query : Bytes) :
    Every (fun _ => Requests) (decodeQuery universalTime query).newRefTime := by
  simp only [decodeQuery]
  split
  · exact every_empty
  · split
    · exact every_empty
    · split
      · exact every_empty
      · exact every_decodeKeys universalTime _ _ every_empty

theorem requests_requestAll {oldRefTime : ProviderRefTimeList}
    (every : Every (fun _ times => InRange times.dataversion) oldRefTime) (provider : Bytes) :
    Requests (requestAll oldRefTime provider) where
  dataversion := by
    simp only [requestAll, ProviderRefTimeList.dataversion]
    cases found : oldRefTime.entries.find? fun entry =>
        isRequested (ProviderList.decodeItem provider) (ProviderList.decodeItem entry.1) with
    | none => exact ⟨by decide, by decide⟩
    | some entry =>
        exact every entry.1 entry.2 (SortedMap.mem_entries_iff.mp (List.mem_of_find?_eq_some found))
  flagAlone := nofun

/-- The requests that pass the check are those of the query, or one for every provider. -/
theorem every_checkProviders {providerList : ProviderList}
    {oldRefTime requestedUpdate requested : ProviderRefTimeList}
    (isRequested : checkProviders providerList oldRefTime requestedUpdate = (true, requested))
    (everyOld : Every (fun _ times => InRange times.dataversion) oldRefTime)
    (every : Every (fun _ => Requests) requestedUpdate) : Every (fun _ => Requests) requested := by
  simp only [checkProviders] at isRequested
  split at isRequested
  · split at isRequested
    · cases isRequested
      have start : Every (fun _ => Requests) (∅ : ProviderRefTimeList) := every_empty
      generalize (∅ : ProviderRefTimeList) = list at start ⊢
      induction ProviderList.providerWithoutPlacename providerList generalizing list with
      | nil => exact start
      | cons provider rest ih =>
          rw [List.foldl_cons]
          exact ih _ (start.insert (requests_requestAll everyOld provider))
    · cases isRequested
      exact every
  · cases isRequested

/-! ## What is stored can be read back -/

/-- An entry of the note: it can be saved, its times are defined, and it carries no request. -/
structure Stored (name : Bytes) (times : ProviderTimes) : Prop where
  savable : NoteProviderReftimes.Savable (name, times)
  defined : NoteProviderReftimes.Defined (name, times)
  plain : NoteProviderReftimes.saved times = times

theorem Stored.inRange {name : Bytes} {times : ProviderTimes} (stored : Stored name times) :
    InRange times.dataversion :=
  ⟨stored.savable.dataversion_ge, stored.savable.dataversion_le⟩

theorem Stored.set {name : Bytes} {times : ProviderTimes} (stored : Stored name times)
    (disabled : Bool) {dataversion : ℤ} (inRange : InRange dataversion) :
    Stored name { times with disabled := disabled, dataversion := dataversion } where
  savable :=
    { stored.savable with
      dataversion_ge := inRange.1
      dataversion_le := inRange.2 }
  defined := stored.defined
  plain := by
    have plain := stored.plain
    cases times
    simp only [NoteProviderReftimes.saved, ProviderTimes.create, ProviderTimes.mk.injEq,
      true_and, and_true] at plain ⊢
    exact plain

theorem Requests.flagsKeep {request : ProviderTimes} (requests : Requests request) :
    FlagsKeep Stored request where
  disabled _ _ _ stored := stored.set request.disabled stored.inRange
  dataversion _ times _ stored := stored.set times.disabled requests.dataversion

theorem stored_updateEntry {request : Bytes × ProviderTimes} (requests : Requests request.2)
    {name : Bytes} {times : ProviderTimes} (row : Stored name times)
    {entry : Option ProviderTimes} (stored : ∀ old, entry = some old → Stored name old) :
    Stored name (updateEntry request (name, times) entry).1 := by
  have isOverwritten : Stored name (overwritten request.2 times) :=
    row.set request.2.disabled requests.dataversion
  cases entry with
  | none => exact isOverwritten
  | some old =>
      simp only [updateEntry]
      split
      · split
        · exact requests.flagsKeep.withFlags (stored old rfl)
        · exact requests.flagsKeep.withFlags (row.set old.disabled row.inRange)
      · exact isOverwritten

/-- The names and times that a database answers can be saved. -/
def SavableAnswers (wci : Wci) : Prop :=
  ∀ request provider reftimespec dataversion found,
    wci request provider reftimespec dataversion = .ok found →
      ∀ row ∈ found, ∀ refTime, row.referencetimeto = some refTime →
        NoteProviderReftimes.Savable
            (ProviderItem.providerWithPlacename ⟨provider, row.placename⟩,
              ProviderTimes.create refTime row.universal_time) ∧
          NoteProviderReftimes.Defined
            (ProviderItem.providerWithPlacename ⟨provider, row.placename⟩,
              ProviderTimes.create refTime row.universal_time)

theorem stored_updateOne {wci : Wci} (answers : SavableAnswers wci)
    {isotimeString : PTime → Bytes} {wciProtocol : ℤ} {request : Bytes × ProviderTimes}
    (requests : Requests request.2) {state next : ProviderRefTimeList × Bool}
    (isNext : updateOne wci isotimeString wciProtocol state request = .ok next)
    (every : Every Stored state.1) : Every Stored next.1 := by
  rcases updateOne_eq_ok isNext with ⟨resRefTimes, isAnswer, rfl⟩
  have rows : Every Stored resRefTimes := by
    refine every_ask isAnswer ?_
    intro reftimespec dataversion found isFound row member refTime isTime
    have answered := answers request.1 _ reftimespec dataversion found isFound row member refTime
      isTime
    exact
      { savable := answered.1
        defined := answered.2
        plain := rfl }
  apply every_updateRows
  · intro name times found entry stored
    exact stored_updateEntry requests (rows name times found) stored
  · exact requests.flagsKeep.prepare every

/-- An update stores a list that can be saved. -/
theorem stored_get {environment : Environment} (answers : SavableAnswers environment.wci)
    (urlPath urlQuery : Bytes) {state : HandlerState} (every : Every Stored state.refTimes) :
    Every Stored (get environment urlPath urlQuery state).2.refTimes := by
  have outcome := get_outcome environment urlPath urlQuery state
  generalize get environment urlPath urlQuery state = result at outcome
  cases outcome with
  | threw after sameNote => simpa only [HandlerState.refTimes, sameNote] using every
  | failed response after sameNote isError =>
      simpa only [HandlerState.refTimes, sameNote] using every
  | debugged isDebug after sameNote =>
      simpa only [HandlerState.refTimes, sameNote, Option.getD_some] using every
  | noData noDebug protocol providers exitingProviders after sameNote isPriority isExisting =>
      simpa only [HandlerState.refTimes, sameNote] using every
  | updated noDebug protocol providers requested exitingProviders newRefTime changed after
      isRequested isExisting isUpdated isNote =>
      have requests := every_checkProviders isRequested
        (fun name times found => (every name times found).inRange)
        (every_decodeQuery environment.universalTime urlQuery)
      have updated : Every Stored newRefTime := by
        apply every_updateLoop _ isUpdated every
        intro request member state next isNext everyOld
        apply stored_updateOne answers _ isNext everyOld
        exact requests request.1 request.2 (SortedMap.mem_entries_iff.mp member)
      simp only [HandlerState.refTimes, isNote, Option.getD_some]
      exact updated.restrict _

/-- A request with what it meets. -/
structure Request where
  environment : Environment
  urlPath : Bytes
  urlQuery : Bytes

/-- The handler after some requests. -/
def after (state : HandlerState) (requests : List Request) : HandlerState :=
  Runs.run
    (fun state request => (get request.environment request.urlPath request.urlQuery state).2)
    state requests

/-- After any run of updates, the list of the note is read back from the disk as it is. -/
theorem saves_after (universalTime : ℤ) (updateid : Bytes) (requests : List Request)
    (answers : ∀ request ∈ requests, SavableAnswers request.environment.wci) :
    (NoteProviderReftimes.streams universalTime).Saves
      (after ⟨updateid, -1, none⟩ requests).refTimes := by
  have start : Every Stored (⟨updateid, -1, none⟩ : HandlerState).refTimes := every_empty
  have every : Every Stored (after ⟨updateid, -1, none⟩ requests).refTimes := by
    generalize (⟨updateid, -1, none⟩ : HandlerState) = state at start ⊢
    induction requests generalizing state with
    | nil => exact start
    | cons request rest ih =>
        apply ih (fun other member => answers other (List.mem_cons_of_mem request member))
        exact stored_get (answers request List.mem_cons_self) _ _ start
  have eachEntry : ∀ entry ∈ (after ⟨updateid, -1, none⟩ requests).refTimes.entries,
      Stored entry.1 entry.2 := fun entry member =>
    every entry.1 entry.2 (SortedMap.mem_entries_iff.mp member)
  apply NoteProviderReftimes.streams_saves universalTime
  · exact fun entry member => (eachEntry entry member).savable
  · exact fun entry member => (eachEntry entry member).defined
  · apply SortedMap.ext_find?
    intro name
    rw [SortedMap.find?_mapValues]
    cases found : (after ⟨updateid, -1, none⟩ requests).refTimes.find? name with
    | none => rfl
    | some times => exact congrArg some (every name times found).plain

/-! ## Providers that are disabled -/

/-- The entries of a provider have a flag. -/
def Flagged (provider : Bytes) (flag : Bool) (name : Bytes) (times : ProviderTimes) : Prop :=
  (ProviderList.decodeItem name).provider = provider → times.disabled = flag

/-- A request that names a provider without a place. -/
def NamesProvider (name : Bytes) : Prop := ProviderList.decodeItem name = ⟨name, []⟩

instance (name : Bytes) : Decidable (NamesProvider name) :=
  inferInstanceAs (Decidable (ProviderList.decodeItem name = ⟨name, []⟩))

/-- The rows that a database answers are of the provider that is asked for. -/
def NamedAnswers (wci : Wci) : Prop :=
  ∀ request provider reftimespec dataversion found,
    wci request provider reftimespec dataversion = .ok found →
      ∀ row ∈ found, row.referencetimeto ≠ none →
        (ProviderList.decodeItem
          (ProviderItem.providerWithPlacename ⟨provider, row.placename⟩)).provider = provider

theorem isRequested_eq {request : Bytes} (names : NamesProvider request) (name : Bytes) :
    isRequested (ProviderList.decodeItem request) (ProviderList.decodeItem name) =
      decide (request = (ProviderList.decodeItem name).provider) := by
  simp only [NamesProvider] at names
  simp [isRequested, names]

/-- The flag of a request is set in all the entries of its provider. -/
theorem flagged_prepare {request : Bytes × ProviderTimes} (names : NamesProvider request.1)
    (asked : request.2.disableEnableRequest = true)
    (flagAlone : request.2.reftimeUpdateRequest = false) (state : ProviderRefTimeList × Bool) :
    Every (Flagged request.1 request.2.disabled) (prepare request state).1 := by
  have disabled : Every (Flagged request.1 request.2.disabled)
      (state.1.updateDisableStatus request.1 request.2.disabled).2 := by
    intro name times found ofProvider
    simp only [updateDisableStatus, ProviderRefTimeList.updateMember] at found
    rw [SortedMap.find?_mapEntries, Option.map_eq_some_iff] at found
    rcases found with ⟨old, _, rfl⟩
    have requested := isRequested_eq names name
    rw [ofProvider, decide_eq_true rfl] at requested
    split
    · rfl
    · rename_i notUpdated
      simp only [isUpdated, requested, Bool.true_and, decide_eq_true_eq, not_not] at notUpdated
      exact notUpdated
  simp only [prepare, flagAlone, updateFlags, asked, if_true]
  split
  · rename_i impossible
    cases impossible
  · simp only
    split
    · exact disabled.updateMember fun name times flagged ofProvider => flagged ofProvider
    · exact disabled

theorem disabled_updateEntry {request : Bytes × ProviderTimes} (names : NamesProvider request.1)
    (asked : request.2.disableEnableRequest = true) (row : Bytes × ProviderTimes)
    (entry : Option ProviderTimes) :
    (updateEntry request row entry).1.disabled = request.2.disabled := by
  simp only [NamesProvider] at names
  cases entry with
  | none => rfl
  | some old =>
      simp only [updateEntry, names, List.isEmpty_nil, true_or, if_true]
      split <;> simp [withFlags, asked]

theorem flagged_updateOne {wci : Wci} {isotimeString : PTime → Bytes} {wciProtocol : ℤ}
    {request : Bytes × ProviderTimes} (names : NamesProvider request.1)
    (asked : request.2.disableEnableRequest = true)
    (flagAlone : request.2.reftimeUpdateRequest = false)
    {state next : ProviderRefTimeList × Bool}
    (isNext : updateOne wci isotimeString wciProtocol state request = .ok next) :
    Every (Flagged request.1 request.2.disabled) next.1 := by
  rcases updateOne_eq_ok isNext with ⟨resRefTimes, _, rfl⟩
  apply every_updateRows
  · intro name times _ entry _ _
    exact disabled_updateEntry names asked (name, times) entry
  · exact flagged_prepare names asked flagAlone state

/-- A request leaves the entries of other providers and places alone before it asks the
database. -/
theorem find?_prepare_of_unmatched {request : Bytes × ProviderTimes} {name : Bytes}
    (unmatched : isRequested (ProviderList.decodeItem request.1) (ProviderList.decodeItem name) =
      false) (state : ProviderRefTimeList × Bool) :
    (prepare request state).1.find? name = state.1.find? name := by
  have disabled : (if request.2.disableEnableRequest then
      state.1.updateDisableStatus request.1 request.2.disabled else (0, state.1)).2.find? name =
        state.1.find? name := by
    split
    · exact find?_updateDisableStatus _ _ _ unmatched
    · rfl
  simp only [prepare]
  split
  · rfl
  · simp only [updateFlags]
    split
    · rw [find?_updateDataversion _ _ _ unmatched, disabled]
    · exact disabled

/-- A request for another provider keeps the flags. -/
theorem flagged_of_other {wci : Wci} (answers : NamedAnswers wci)
    {isotimeString : PTime → Bytes} {wciProtocol : ℤ} {request : Bytes × ProviderTimes}
    (names : NamesProvider request.1) {provider : Bytes} {flag : Bool}
    (other : request.1 ≠ provider) {state next : ProviderRefTimeList × Bool}
    (isNext : updateOne wci isotimeString wciProtocol state request = .ok next)
    (every : Every (Flagged provider flag) state.1) : Every (Flagged provider flag) next.1 := by
  have isProvider : (ProviderList.decodeItem request.1).provider = request.1 :=
    congrArg ProviderItem.provider names
  rcases updateOne_eq_ok isNext with ⟨resRefTimes, isAnswer, rfl⟩
  have ofRequest : Every (fun name _ => (ProviderList.decodeItem name).provider = request.1)
      resRefTimes := by
    refine every_ask isAnswer ?_
    intro reftimespec dataversion found isFound row member refTime isTime
    rw [isProvider] at isFound ⊢
    exact answers request.1 request.1 reftimespec dataversion found isFound row member
      (by simp [isTime])
  apply every_updateRows
  · intro name times found _ _ ofProvider
    rw [ofRequest name times found] at ofProvider
    exact absurd ofProvider other
  · intro name times found ofProvider
    have unmatched : isRequested (ProviderList.decodeItem request.1)
        (ProviderList.decodeItem name) = false := by
      rw [isRequested_eq names, ofProvider]
      exact decide_eq_false other
    apply every name times _ ofProvider
    rw [← found]
    exact (find?_prepare_of_unmatched unmatched state).symm

/-- The flag that an update asks for is in all the entries of the provider. -/
theorem flagged_updateLoop {wci : Wci} (answers : NamedAnswers wci)
    {isotimeString : PTime → Bytes} {wciProtocol : ℤ} {requests : List (Bytes × ProviderTimes)}
    (names : ∀ request ∈ requests, NamesProvider request.1)
    (distinct : (requests.map Prod.fst).Nodup) {request : Bytes × ProviderTimes}
    (member : request ∈ requests) (asked : request.2.disableEnableRequest = true)
    (flagAlone : request.2.reftimeUpdateRequest = false)
    {state final : ProviderRefTimeList × Bool}
    (isFinal : updateLoop wci isotimeString wciProtocol requests state = .ok final) :
    Every (Flagged request.1 request.2.disabled) final.1 := by
  induction requests generalizing state with
  | nil => cases member
  | cons first rest ih =>
      rw [List.map_cons, List.nodup_cons] at distinct
      have restNames : ∀ other ∈ rest, NamesProvider other.1 :=
        fun other isOther => names other (List.mem_cons_of_mem first isOther)
      simp only [updateLoop] at isFinal
      cases isNext : updateOne wci isotimeString wciProtocol state first with
      | error what =>
          rw [isNext] at isFinal
          cases isFinal
      | ok next =>
          rw [isNext] at isFinal
          rcases List.mem_cons.mp member with rfl | inRest
          · have flagged := flagged_updateOne (names request List.mem_cons_self) asked flagAlone
              isNext
            refine every_updateLoop ?_ isFinal flagged
            intro other isOther before behind isBehind
            apply flagged_of_other answers (restNames other isOther) _ isBehind
            rintro same
            exact distinct.1 (same ▸ List.mem_map_of_mem isOther)
          · exact ih restNames distinct.2 inRest isFinal

/-- The search for the providers does not come out empty. -/
def Environment.HasData (environment : Environment) : Prop :=
  ∀ protocol providers, environment.providerPriority = some providers → ∀ refTimes,
    existingRefTimes environment.search environment.isotimeString protocol
      environment.universalTime providers ≠ .ok (false, refTimes)

theorem nodup_keys (list : ProviderRefTimeList) : (list.entries.map Prod.fst).Nodup := by
  rw [List.Nodup, List.pairwise_map]
  exact list.sorted.imp fun less => ne_of_lt less

theorem find?_of_debug {universalTime : ℤ} {query provider : Bytes}
    (isDebug : (decodeQuery universalTime query).debug = true) :
    (decodeQuery universalTime query).newRefTime.find? provider = none := by
  revert isDebug
  simp only [decodeQuery]
  split
  · exact nofun
  · split
    · exact nofun
    · split
      · exact fun _ => rfl
      · exact nofun

/-- A request that passes the check and is not empty is the one of the query. -/
theorem requested_eq {providerList : ProviderList}
    {oldRefTime requestedUpdate requested : ProviderRefTimeList} {name : Bytes}
    {times : ProviderTimes} (found : requestedUpdate.find? name = some times)
    (isRequested : checkProviders providerList oldRefTime requestedUpdate = (true, requested)) :
    requested = requestedUpdate := by
  simp only [checkProviders] at isRequested
  split at isRequested
  · split at isRequested
    · rename_i isEmpty
      rw [SortedMap.find?_of_isEmpty isEmpty] at found
      cases found
    · cases isRequested
      rfl
  · cases isRequested

/-- After an update that is not answered with an error, the flag that it asks for is in all the
entries of the provider. -/
theorem flagged_get {environment : Environment} (answers : NamedAnswers environment.wci)
    (hasData : environment.HasData) {urlPath urlQuery : Bytes} {state : HandlerState}
    {response : Response}
    (responds : (get environment urlPath urlQuery state).1 = some response)
    (isOk : response.status = .noError)
    (names : ∀ name ∈ (decodeQuery environment.universalTime urlQuery).newRefTime.keys,
      NamesProvider name) {provider : Bytes} {times : ProviderTimes}
    (isAsked : (decodeQuery environment.universalTime urlQuery).newRefTime.find? provider =
      some times) (asked : times.disableEnableRequest = true) :
    Every (Flagged provider times.disabled) (get environment urlPath urlQuery state).2.refTimes := by
  have outcome := get_outcome environment urlPath urlQuery state
  generalize get environment urlPath urlQuery state = result at outcome responds
  cases outcome with
  | threw after sameNote => cases responds
  | failed other after sameNote isError =>
      cases responds
      exact absurd isOk isError
  | debugged isDebug after sameNote =>
      rw [find?_of_debug isDebug] at isAsked
      cases isAsked
  | noData noDebug protocol providers exitingProviders after sameNote isPriority isExisting =>
      exact absurd isExisting (hasData protocol providers isPriority exitingProviders)
  | updated noDebug protocol providers requested exitingProviders newRefTime changed after
      isRequested isExisting isUpdated isNote =>
      have same := requested_eq isAsked isRequested
      subst same
      have flagAlone := (every_decodeQuery environment.universalTime urlQuery provider times
        isAsked).flagAlone asked
      have member := SortedMap.mem_entries_iff.mpr isAsked
      have flagged := flagged_updateLoop answers
        (fun request isRequest => names request.1 (List.mem_map_of_mem isRequest))
        (nodup_keys _) member asked flagAlone isUpdated
      simp only [HandlerState.refTimes, isNote, Option.getD_some]
      exact flagged.restrict _

/-- An update that disables a provider takes all its served places out of the forecasts, and one
that enables it brings them back. -/
theorem mem_removeDisabledProviders_get {environment : Environment}
    (answers : NamedAnswers environment.wci) (hasData : environment.HasData)
    {urlPath urlQuery : Bytes} {state : HandlerState} {response : Response}
    (responds : (get environment urlPath urlQuery state).1 = some response)
    (isOk : response.status = .noError)
    (names : ∀ name ∈ (decodeQuery environment.universalTime urlQuery).newRefTime.keys,
      NamesProvider name) {provider : Bytes} {times : ProviderTimes}
    (isAsked : (decodeQuery environment.universalTime urlQuery).newRefTime.find? provider =
      some times) (asked : times.disableEnableRequest = true) (providers : ProviderList)
    {item : ProviderItem} (member : item ∈ providers)
    (ofProvider : (ProviderList.decodeItem item.providerWithPlacename).provider = provider)
    (isServed : (get environment urlPath urlQuery state).2.refTimes.contains
      item.providerWithPlacename = true) :
    item ∈ removeDisabledProviders providers (get environment urlPath urlQuery state).2.refTimes ↔
      times.disabled = false := by
  have flagged := flagged_get answers hasData responds isOk names isAsked asked
  generalize (get environment urlPath urlQuery state).2.refTimes = refTimes at flagged isServed ⊢
  rw [SortedMap.contains, Option.isSome_iff_exists] at isServed
  rcases isServed with ⟨served, found⟩
  rw [removeDisabledProviders, List.mem_filter, found]
  simp [member, flagged _ served found ofProvider]

/-! ## A provider that is disabled -/

/-- A database with the reference time 2008-10-18T12:00:00 of the provider `arome`. -/
def aromeOnly : Wci := fun _ provider _ _ =>
  .ok (if provider = Bytes.str "arome" then
    [⟨[], some (.ticks 1224331200000000), .ticks 1224352800000000⟩] else [])

/-- A forecast from `arome` alone, on this database. -/
def fromArome : Environment :=
  { oneProvider with
    search := aromeOnly
    wci := aromeOnly }

theorem savableAnswers_aromeOnly : SavableAnswers aromeOnly := by
  intro request provider reftimespec dataversion found isFound row member refTime isTime
  cases isFound
  split at member
  · rename_i isArome
    subst isArome
    rw [List.mem_singleton] at member
    subst member
    cases isTime
    have isWritten : NoteProviderReftimes.IsWritten (.ticks 1224331200000000) :=
      Or.inr ⟨by decide, ⟨2008, 10, 18⟩, by decide⟩
    have savable := NoteProviderReftimes.savable_oneProvider isWritten _ List.mem_cons_self
    constructor
    · exact
        { savable with
          dataversion_ge := by decide
          dataversion_le := by decide }
    · exact ⟨nofun, nofun⟩
  · cases member

theorem namedAnswers_aromeOnly : NamedAnswers aromeOnly := by
  intro request provider reftimespec dataversion found isFound row member _
  cases isFound
  split at member
  · rename_i isArome
    subst isArome
    rw [List.mem_singleton] at member
    subst member
    decide
  · cases member

theorem hasData_fromArome : fromArome.HasData := by
  intro protocol providers isProviders refTimes isEmpty
  cases isProviders
  have names : ProviderList.providerWithoutPlacename [⟨Bytes.str "arome", []⟩] =
      [Bytes.str "arome"] := by decide +kernel
  have decoded : (ProviderList.decodeItem (Bytes.str "arome")).provider = Bytes.str "arome" := by
    decide
  have found : (ProviderRefTime.result (Bytes.str "arome")
      [⟨[], some (.ticks 1224331200000000), .ticks 1224352800000000⟩]).entries.isEmpty =
        false := by decide
  have searched : ∀ spec, searchProvider aromeOnly spec (Bytes.str "arome") =
      .ok (ProviderRefTime.result (Bytes.str "arome")
        [⟨[], some (.ticks 1224331200000000), .ticks 1224352800000000⟩]) := by
    intro spec
    simp only [searchProvider, getProviderReftimes, decoded, aromeOnly, if_true, bind,
      Except.bind, pure, Except.pure, found, Bool.false_eq_true, if_false]
  simp only [existingRefTimes, fromArome, List.isEmpty_cons, Bool.false_eq_true, if_false, names,
    searchProviders, searched, bind, Except.bind, pure, Except.pure, Except.ok.injEq,
    Prod.mk.injEq] at isEmpty
  exact absurd isEmpty.1 (by decide)

/-- An update of all providers, and a request to disable `arome`. -/
def updateAndDisable : List Request :=
  [⟨fromArome, [], []⟩, ⟨fromArome, [], Bytes.str "arome=disable"⟩]

theorem saves_updateAndDisable :
    (NoteProviderReftimes.streams 0).Saves
      (after ⟨Bytes.str "forecast", -1, none⟩ updateAndDisable).refTimes :=
  saves_after 0 (Bytes.str "forecast") updateAndDisable fun request member => by
    simp only [updateAndDisable, List.mem_cons, List.not_mem_nil, or_false] at member
    rcases member with rfl | rfl
    · exact savableAnswers_aromeOnly
    · exact savableAnswers_aromeOnly

/-- The handler that serves `arome`. -/
def servesArome : HandlerState := (get fromArome [] [] neverUpdated).2

theorem notMem_removeDisabledProviders_arome :
    ⟨Bytes.str "arome", []⟩ ∈ removeDisabledProviders [⟨Bytes.str "arome", []⟩]
        (get fromArome [] (Bytes.str "arome=disable") servesArome).2.refTimes ↔
      true = false := by
  have isAsked : (decodeQuery 0 (Bytes.str "arome=disable")).newRefTime.find?
      (Bytes.str "arome") =
        some { (default : ProviderTimes) with disableEnableRequest := true, disabled := true } := by
    decide +kernel
  have responds : (get fromArome [] (Bytes.str "arome=disable") servesArome).1 =
      some (answered (Bytes.str "Updated")) := by decide +kernel
  exact mem_removeDisabledProviders_get namedAnswers_aromeOnly hasData_fromArome responds rfl
    (by decide +kernel) isAsked rfl [⟨Bytes.str "arome", []⟩] List.mem_cons_self (by decide)
    (by decide +kernel)

end LocationForecastUpdateHandler

end Wdb2ts
