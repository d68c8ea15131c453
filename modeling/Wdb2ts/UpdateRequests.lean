import Wdb2ts.ProviderNames
import Wdb2ts.UpdateHandler
import Wdb2ts.UpdateProviderReftimes

/-!
# Update requests

A request to the update handler of the forecast reads the list of reference times from its
note, asks the database, and stores a new list.  The handler lets one request in at a time.
-/

namespace Wdb2ts

/-- `ProviderRefTimeList::dataversion`. -/
def ProviderRefTimeList.dataversion (list : ProviderRefTimeList) (provider : Bytes) :
    Option ℤ :=
  (list.entries.find? fun entry =>
    isRequested (ProviderList.decodeItem provider)
      (ProviderList.decodeItem entry.1)).map fun entry => entry.2.dataversion

namespace UpdateProviderReftimes

/-- The period of two days back and one day ahead as a query specification. -/
def insideSpec (isotimeString : PTime → Bytes) (wciProtocol now : ℤ) : Bytes :=
  let back := isotimeString (.ticks (now - 48 * 3600 * 1000000))
  let endTime := isotimeString (.ticks (now + 24 * 3600 * 1000000))
  if wciProtocol = 1 then
    Bytes.str "('" ++ back ++ Bytes.str "','" ++ endTime ++ Bytes.str "','inside')"
  else Bytes.str "'inside " ++ back ++ Bytes.str " TO " ++ endTime ++ Bytes.str "'"

/-- The reference times of a provider in the period, or in the entire database when it has none
there. -/
def searchProvider (wci : Wci) (reftimeSpec provider : Bytes) :
    Except Bytes ProviderRefTimeList := do
  let tmpRefTimes ← getProviderReftimes wci provider reftimeSpec (-1)
  if tmpRefTimes.entries.isEmpty then getProviderReftimes wci provider (Bytes.str "NULL") (-1)
  else pure tmpRefTimes

/-- The loop of `updateProviderRefTimes` over the providers. -/
def searchProviders (wci : Wci) (reftimeSpec : Bytes) :
    List Bytes → ProviderRefTimeList → Except Bytes ProviderRefTimeList
  | [], refTimes => pure refTimes
  | provider :: rest, refTimes => do
      let tmpRefTimes ← searchProvider wci reftimeSpec provider
      searchProviders wci reftimeSpec rest
        (tmpRefTimes.entries.foldl (fun refTimes entry => refTimes.insert entry.1 entry.2) refTimes)

/-- `updateProviderRefTimes` for a provider list: what is returned, and the reference times in
the database. -/
def existingRefTimes (wci : Wci) (isotimeString : PTime → Bytes) (wciProtocol now : ℤ)
    (providers : ProviderList) : Except Bytes (Bool × ProviderRefTimeList) :=
  if providers.isEmpty then pure (true, ∅)
  else do
    let refTimes ← searchProviders wci (insideSpec isotimeString wciProtocol now)
      (ProviderList.providerWithoutPlacename providers) ∅
    pure (!refTimes.entries.isEmpty, refTimes)

end UpdateProviderReftimes

namespace LocationForecastUpdateHandler

open ProviderRefTimeList UpdateProviderReftimes

/-! ## The query -/

/-- The loop of `decodeQuery` over the keys.  Nothing is returned when `lexical_cast` throws. -/
def decodeKeys (universalTime : ℤ) (params : SortedMap Bytes Bytes) :
    List Bytes → ProviderRefTimeList → ProviderRefTimeList × Option Bool
  | [], newRefTime => (newRefTime, some true)
  | iKey :: rest, newRefTime =>
      let key := trim iKey
      let val := trim ((params.find? iKey).getD [])
      if key.isEmpty then (newRefTime, some false)
      else
        let decoded := decodeQueryValue universalTime
          (ProviderList.decodeItem key).providerWithPlacename val newRefTime
        match decoded.2 with
        | some true => decodeKeys universalTime params rest decoded.1
        | other => (decoded.1, other)

/-- What `decodeQuery` returns. -/
structure DecodedQuery where
  newRefTime : ProviderRefTimeList
  debug : Bool
  returned : Option Bool

/-- `decodeQuery`. -/
def decodeQuery (universalTime : ℤ) (query : Bytes) : DecodedQuery :=
  if query.isEmpty then ⟨∅, false, some true⟩
  else
    match UrlQuery.new.decode query false with
    | (some _, _) => ⟨∅, false, some false⟩
    | (none, urlQuery) =>
        if urlQuery.params.keys.contains (Bytes.str "debug") then ⟨∅, true, some true⟩
        else
          let decoded := decodeKeys universalTime urlQuery.params urlQuery.params.keys ∅
          ⟨decoded.1, false, decoded.2⟩

/-! ## The lists -/

/-- The request for one provider that `checkProviders` makes up. -/
def requestAll (oldRefTime : ProviderRefTimeList) (provider : Bytes) : ProviderTimes :=
  { (default : ProviderTimes) with
    disabled := (oldRefTime.disabled provider).getD false
    dataversion := (oldRefTime.dataversion provider).getD (-1)
    reftimeUpdateRequest := true }

/-- A provider of the priority list. -/
def isDefined (providerList : ProviderList) (name : Bytes) : Bool :=
  decide (ProviderList.findProviderWithoutPlacename providerList name < providerList.length)

/-- `checkProviders`: what it returns, and the request. -/
def checkProviders (providerList : ProviderList) (oldRefTime requestedUpdate :
    ProviderRefTimeList) : Bool × ProviderRefTimeList :=
  if requestedUpdate.keys.all fun name => isDefined providerList name then
    if requestedUpdate.entries.isEmpty then
      (true, (ProviderList.providerWithoutPlacename providerList).foldl
        (fun requested provider => requested.insert provider (requestAll oldRefTime provider)) ∅)
    else (true, requestedUpdate)
  else
    (false, requestedUpdate.mapEntries fun name times =>
      if isDefined providerList name then times
      else { times with dataversion := 2147483647 })

/-- `checkAgainstExistingProviders`. -/
def checkAgainstExistingProviders (exitingProviders newRefTime : ProviderRefTimeList) :
    ProviderRefTimeList :=
  newRefTime.restrict fun name => exitingProviders.contains name

/-- Has an entry another reference time, version or flag? -/
def differs (old new : ProviderTimes) : Bool :=
  decide (old.refTime ≠ new.refTime) || decide (old.dataversion ≠ new.dataversion) ||
    decide (old.disabled ≠ new.disabled)

/-- `updateStatus`. -/
def updateStatus (oldRefTime newRefTime : ProviderRefTimeList) : Bytes :=
  if (oldRefTime.entries.any fun entry =>
    match newRefTime.find? entry.1 with
    | none => true
    | some new => differs entry.2 new) then Bytes.str "Updated"
  else if newRefTime.entries.any fun entry => !oldRefTime.contains entry.1 then
    Bytes.str "Updated"
  else Bytes.str "NoNewDataRefTime"

/-! ## The request -/

/-- The codes of `Response::Status` that an update sets. -/
inductive Status where
  | noError
  | invalidQuery
  | internalError
  | noData
  deriving DecidableEq

/-- The response to an update. -/
structure Response where
  status : Status
  errorDoc : Bytes
  out : Bytes
  deriving DecidableEq

/-- What a request meets: the clock, the provider priority list of its note, the protocol of the
application, whether there is a database connection, and the answers of the database to the
search for providers and to the update. -/
structure Environment where
  universalTime : ℤ
  providerPriority : Option ProviderList
  appProtocol : ℤ
  connects : Bool
  search : Wci
  wci : Wci
  isotimeString : PTime → Bytes

/-- The members of the handler and the note of the reference times. -/
structure HandlerState where
  updateid : Bytes
  wciProtocol : ℤ
  note : Option ProviderRefTimeList

namespace HandlerState

/-- `getProviderReftimes` of the handler. -/
def refTimes (state : HandlerState) : ProviderRefTimeList := state.note.getD ∅

end HandlerState

/-- A document with a status. -/
def statusXml (status : Bytes) : Bytes :=
  Bytes.str "<?xml version=\"1.0\" ?>\n<status>" ++ status ++ Bytes.str "</status>\n"

/-- A response with an error document. -/
def failed (status : Status) (doc : Bytes) : Response := ⟨status, doc, []⟩

/-- A response with a status document. -/
def answered (status : Bytes) : Response := ⟨.noError, [], statusXml status⟩

/-- The description of a request in the log and in an error document. -/
def describe (urlPath urlQuery updateid : Bytes) : Bytes :=
  Bytes.str "\nURL:   " ++ urlPath ++ Bytes.str "\nQuery: " ++ urlQuery ++
    Bytes.str "\nUpdateid: " ++ updateid ++ Bytes.str "\n"

/-- The choice of the protocol: the one that is used, and the member. -/
def chooseProtocol (appProtocol member : ℤ) : ℤ × ℤ :=
  if member < 0 then
    if appProtocol ≤ 0 then (1, member) else (appProtocol, appProtocol)
  else (member, member)

/-- The part of `get` with a database connection. -/
def update (environment : Environment) (protocol : ℤ) (providers : ProviderList)
    (requested : ProviderRefTimeList) (state : HandlerState) : Response × HandlerState :=
  let oldRefTime := state.refTimes
  match existingRefTimes environment.search environment.isotimeString protocol
      environment.universalTime providers with
  | .error what => (failed .internalError what, state)
  | .ok (false, _) => (answered (updateStatus oldRefTime oldRefTime), state)
  | .ok (true, exitingProviders) =>
      match updateProviderRefTimes environment.wci environment.isotimeString protocol requested
          oldRefTime with
      | .error what => (failed .noData what, state)
      | .ok updated =>
          let newRefTime := checkAgainstExistingProviders exitingProviders updated.1
          (answered (updateStatus oldRefTime newRefTime), { state with note := some newRefTime })

/-- `get`.  There is no response when an exception leaves it. -/
def get (environment : Environment) (urlPath urlQuery : Bytes) (state : HandlerState) :
    Option Response × HandlerState :=
  let decoded := decodeQuery environment.universalTime urlQuery
  match decoded.returned with
  | none => (none, state)
  | some false =>
      (some (failed .invalidQuery (describe urlPath urlQuery state.updateid)), state)
  | some true =>
      if state.updateid.isEmpty then
        (some (failed .internalError (statusXml (Bytes.str "Error: missing updateid!"))), state)
      else if decoded.debug then
        (some (answered (Bytes.str "Updated")), { state with note := some state.refTimes })
      else
        match environment.providerPriority with
        | none =>
            (some (failed .internalError
              (statusXml (Bytes.str "Error: Missing provider priority list!"))), state)
        | some providers =>
            match checkProviders providers state.refTimes decoded.newRefTime with
            | (false, _) => (some (failed .invalidQuery []), state)
            | (true, requested) =>
                let protocol := chooseProtocol environment.appProtocol state.wciProtocol
                let state := { state with wciProtocol := protocol.2 }
                if environment.connects then
                  let updated := update environment protocol.1 providers requested state
                  (some updated.1, updated.2)
                else
                  (some (failed .internalError (statusXml (Bytes.str "Error: Db error!"))), state)

/-! ## What a request changes -/

/-- The members of a list that `updateStatus` compares.  It leaves out `updatedTime`. -/
def compared (list : ProviderRefTimeList) : SortedMap Bytes (PTime × ℤ × Bool) :=
  list.mapValues fun times => (times.refTime, times.dataversion, times.disabled)

theorem differs_eq_false {old new : ProviderTimes} :
    differs old new = false ↔
      (old.refTime, old.dataversion, old.disabled) =
        (new.refTime, new.dataversion, new.disabled) := by
  simp [differs, and_assoc]

theorem find?_compared (list : ProviderRefTimeList) (name : Bytes) :
    (compared list).find? name =
      (list.find? name).map fun times => (times.refTime, times.dataversion, times.disabled) :=
  SortedMap.find?_mapValues list _ name

/-- The status says whether a compared member has changed. -/
theorem updateStatus_eq (oldRefTime newRefTime : ProviderRefTimeList) :
    updateStatus oldRefTime newRefTime =
      if compared oldRefTime = compared newRefTime then Bytes.str "NoNewDataRefTime"
      else Bytes.str "Updated" := by
  by_cases same : compared oldRefTime = compared newRefTime
  · have sameEntry : ∀ name, (oldRefTime.find? name).map
        (fun times => (times.refTime, times.dataversion, times.disabled)) =
          (newRefTime.find? name).map
            fun times => (times.refTime, times.dataversion, times.disabled) := by
      intro name
      rw [← find?_compared, ← find?_compared, same]
    have noOld : (oldRefTime.entries.any fun entry =>
        match newRefTime.find? entry.1 with
        | none => true
        | some new => differs entry.2 new) = false := by
      rw [List.any_eq_false]
      rintro ⟨name, old⟩ member
      have found := sameEntry name
      rw [SortedMap.mem_entries_iff.mp member] at found
      cases isNew : newRefTime.find? name with
      | none =>
          rw [isNew] at found
          cases found
      | some new =>
          rw [isNew] at found
          simp [differs_eq_false.mpr (Option.some.inj found)]
    have noNew : (newRefTime.entries.any fun entry => !oldRefTime.contains entry.1) = false := by
      rw [List.any_eq_false]
      rintro ⟨name, new⟩ member
      have found := sameEntry name
      rw [SortedMap.mem_entries_iff.mp member] at found
      cases isOld : oldRefTime.find? name with
      | none =>
          rw [isOld] at found
          cases found
      | some old => simp [SortedMap.contains, isOld]
    simp [updateStatus, noOld, noNew, same]
  · rw [if_neg same, updateStatus]
    split
    · rfl
    · rename_i noOld
      rw [Bool.not_eq_true, List.any_eq_false] at noOld
      rw [if_pos]
      by_contra noNew
      rw [Bool.not_eq_true, List.any_eq_false] at noNew
      apply same
      apply SortedMap.ext_find?
      intro name
      rw [find?_compared, find?_compared]
      cases isOld : oldRefTime.find? name with
      | none =>
          cases isNew : newRefTime.find? name with
          | none => rfl
          | some new =>
              have absent := noNew _ (SortedMap.mem_entries_iff.mpr isNew)
              simp [SortedMap.contains, isOld] at absent
      | some old =>
          have kept := noOld _ (SortedMap.mem_entries_iff.mpr isOld)
          cases isNew : newRefTime.find? name with
          | none => simp [isNew] at kept
          | some new =>
              simp only [isNew, Bool.not_eq_true] at kept
              exact congrArg some (differs_eq_false.mp kept)

/-- What a request does to the note: an error leaves it, a request for debugging stores its own
list, a database without data leaves it, and an update stores the new list without the providers
that the database has no data for. -/
inductive Outcome (environment : Environment) (urlQuery : Bytes) (state : HandlerState) :
    Option Response × HandlerState → Prop
  | threw (after : HandlerState) (sameNote : after.note = state.note) :
      Outcome environment urlQuery state (none, after)
  | failed (response : Response) (after : HandlerState) (sameNote : after.note = state.note)
      (isError : response.status ≠ .noError) :
      Outcome environment urlQuery state (some response, after)
  | debugged (isDebug : (decodeQuery environment.universalTime urlQuery).debug = true)
      (after : HandlerState) (sameNote : after.note = some state.refTimes) :
      Outcome environment urlQuery state (some (answered (Bytes.str "Updated")), after)
  | noData (noDebug : (decodeQuery environment.universalTime urlQuery).debug = false)
      (protocol : ℤ) (providers : ProviderList) (exitingProviders : ProviderRefTimeList)
      (after : HandlerState) (sameNote : after.note = state.note)
      (isPriority : environment.providerPriority = some providers)
      (isExisting : existingRefTimes environment.search environment.isotimeString protocol
        environment.universalTime providers = .ok (false, exitingProviders)) :
      Outcome environment urlQuery state
        (some (answered (updateStatus state.refTimes state.refTimes)), after)
  | updated (noDebug : (decodeQuery environment.universalTime urlQuery).debug = false)
      (protocol : ℤ) (providers : ProviderList)
      (requested exitingProviders newRefTime : ProviderRefTimeList) (changed : Bool)
      (after : HandlerState)
      (isRequested : checkProviders providers state.refTimes
        (decodeQuery environment.universalTime urlQuery).newRefTime = (true, requested))
      (isExisting : existingRefTimes environment.search environment.isotimeString protocol
        environment.universalTime providers = .ok (true, exitingProviders))
      (isUpdated : updateProviderRefTimes environment.wci environment.isotimeString protocol
        requested state.refTimes = .ok (newRefTime, changed))
      (isNote : after.note =
        some (checkAgainstExistingProviders exitingProviders newRefTime)) :
      Outcome environment urlQuery state
        (some (answered (updateStatus state.refTimes
          (checkAgainstExistingProviders exitingProviders newRefTime))), after)

theorem update_outcome {environment : Environment} {urlQuery : Bytes} {state : HandlerState}
    {providers : ProviderList} {requested : ProviderRefTimeList}
    (isPriority : environment.providerPriority = some providers)
    (noDebug : (decodeQuery environment.universalTime urlQuery).debug = false)
    (isRequested : checkProviders providers state.refTimes
      (decodeQuery environment.universalTime urlQuery).newRefTime = (true, requested))
    (protocol member : ℤ) :
    Outcome environment urlQuery state
      (some (update environment protocol providers requested
          { state with wciProtocol := member }).1,
        (update environment protocol providers requested
          { state with wciProtocol := member }).2) := by
  have sameList : ({ state with wciProtocol := member } : HandlerState).refTimes =
      state.refTimes := rfl
  simp only [update, sameList]
  cases isExisting : existingRefTimes environment.search environment.isotimeString protocol
      environment.universalTime providers with
  | error what => exact .failed _ _ rfl nofun
  | ok found =>
      rcases found with ⟨hasData, exitingProviders⟩
      cases hasData with
      | false => exact .noData noDebug protocol providers exitingProviders _ rfl isPriority isExisting
      | true =>
          simp only
          cases isUpdated : updateProviderRefTimes environment.wci environment.isotimeString
              protocol requested state.refTimes with
          | error what => exact .failed _ _ rfl nofun
          | ok updated =>
              exact .updated noDebug protocol providers requested exitingProviders updated.1
                updated.2 _ isRequested isExisting isUpdated rfl

theorem get_outcome (environment : Environment) (urlPath urlQuery : Bytes)
    (state : HandlerState) :
    Outcome environment urlQuery state (get environment urlPath urlQuery state) := by
  simp only [get]
  cases isReturned : (decodeQuery environment.universalTime urlQuery).returned with
  | none => exact .threw state rfl
  | some isDecoded =>
      cases isDecoded with
      | false => exact .failed _ state rfl nofun
      | true =>
          simp only
          split
          · exact .failed _ state rfl nofun
          · split
            · rename_i isDebug
              exact .debugged isDebug _ rfl
            · rename_i notDebug
              have noDebug := Bool.not_eq_true _ ▸ notDebug
              cases isPriority : environment.providerPriority with
              | none => exact .failed _ state rfl nofun
              | some providers =>
                  simp only
                  cases isRequested : checkProviders providers state.refTimes
                      (decodeQuery environment.universalTime urlQuery).newRefTime with
                  | mk isChecked requested =>
                      cases isChecked with
                      | false => exact .failed _ state rfl nofun
                      | true =>
                          simp only
                          split
                          · exact update_outcome isPriority noDebug isRequested _ _
                          · exact .failed _ _ rfl nofun

/-- A request that is answered with an error leaves the note as it is.  Any other one, unless it
is for debugging, is answered with the status that says whether a reference time, a version or a
flag of the list has changed. -/
theorem reports_change (environment : Environment) (urlPath urlQuery : Bytes)
    (state : HandlerState) (response : Response)
    (responds : (get environment urlPath urlQuery state).1 = some response) :
    (response.status ≠ .noError →
      (get environment urlPath urlQuery state).2.note = state.note) ∧
    (response.status = .noError →
      (decodeQuery environment.universalTime urlQuery).debug = false →
        response.out = statusXml
          (if compared (get environment urlPath urlQuery state).2.refTimes =
              compared state.refTimes then Bytes.str "NoNewDataRefTime"
            else Bytes.str "Updated")) := by
  have outcome := get_outcome environment urlPath urlQuery state
  generalize get environment urlPath urlQuery state = result at outcome responds ⊢
  cases outcome with
  | threw after sameNote => cases responds
  | failed other after sameNote isError =>
      cases responds
      exact ⟨fun _ => sameNote, fun isOk => absurd isOk isError⟩
  | debugged isDebug after sameNote =>
      cases responds
      constructor
      · exact fun isError => absurd rfl isError
      · intro _ noDebug
        rw [isDebug] at noDebug
        cases noDebug
  | noData noDebug protocol providers exitingProviders after sameNote isPriority isExisting =>
      cases responds
      refine ⟨fun _ => sameNote, fun _ _ => ?_⟩
      have sameList : after.refTimes = state.refTimes := by
        simp only [HandlerState.refTimes, sameNote]
      simp [answered, updateStatus_eq, sameList]
  | updated noDebug protocol providers requested exitingProviders newRefTime changed after
      isRequested isExisting isUpdated isNote =>
      cases responds
      constructor
      · exact fun isError => absurd rfl isError
      · intro _ _
        have newList : after.refTimes =
            checkAgainstExistingProviders exitingProviders newRefTime := by
          simp only [HandlerState.refTimes, isNote, Option.getD_some]
        simp only [answered, updateStatus_eq, newList]
        by_cases same : compared state.refTimes =
            compared (checkAgainstExistingProviders exitingProviders newRefTime)
        · rw [if_pos same, if_pos same.symm]
        · rw [if_neg same, if_neg fun equal => same equal.symm]

/-- A database with one reference time of the provider `arome`. -/
def oneReftime : Wci := fun _ _ _ _ => .ok [⟨[], some (.ticks 0), .ticks 1⟩]

/-- A forecast from `arome` alone. -/
def oneProvider : Environment :=
  { universalTime := 0
    providerPriority := some [⟨Bytes.str "arome", []⟩]
    appProtocol := 1
    connects := true
    search := oneReftime
    wci := oneReftime
    isotimeString := fun _ => [] }

/-- A handler that has served nothing yet. -/
def neverUpdated : HandlerState := ⟨Bytes.str "forecast", -1, none⟩

theorem reports_change_oneProvider :
    (get oneProvider [] [] neverUpdated).1 = some (answered (Bytes.str "Updated")) ∧
      (answered (Bytes.str "Updated")).out = statusXml
        (if compared (get oneProvider [] [] neverUpdated).2.refTimes =
            compared neverUpdated.refTimes then Bytes.str "NoNewDataRefTime"
          else Bytes.str "Updated") := by
  have responds : (get oneProvider [] [] neverUpdated).1 =
      some (answered (Bytes.str "Updated")) := by decide +kernel
  refine ⟨responds, ?_⟩
  exact (reports_change oneProvider [] [] neverUpdated (answered (Bytes.str "Updated"))
    responds).2 rfl (by decide)

end LocationForecastUpdateHandler

end Wdb2ts
