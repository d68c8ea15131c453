import Wdb2ts.ProviderReftimes

/-!
# Updating the reference times

An update asks the database, for every request, which reference times a provider has.
The query names the provider without the place, so its answer has a row for every place
of the provider.
-/

namespace Wdb2ts

/-- A row of `wci.browse`, with the time at which the row is read. -/
structure BrowseRow where
  placename : Bytes
  referencetimeto : Option PTime
  universal_time : PTime

/-- The answers of the database: what a query for one request returns, or the text of the
exception. -/
abbrev Wci := (request provider reftimespec : Bytes) → (dataversion : ℤ) →
  Except Bytes (List BrowseRow)

/-- `ProviderRefTime::operator()`: the list made from the rows. -/
def ProviderRefTime.result (provider : Bytes) (rows : List BrowseRow) : ProviderRefTimeList :=
  rows.foldl
    (fun refTimesResult row =>
      match row.referencetimeto with
      | none => refTimesResult
      | some refTime =>
          refTimesResult.insert (ProviderItem.providerWithPlacename ⟨provider, row.placename⟩)
            (ProviderTimes.create refTime row.universal_time))
    ∅

namespace UpdateProviderReftimes

open ProviderRefTimeList

variable (wci : Wci) (isotimeString : PTime → Bytes) (wciProtocol : ℤ)

/-- `getProviderReftimes`. -/
def getProviderReftimes (provider reftimespec : Bytes) (dataversion : ℤ) :
    Except Bytes ProviderRefTimeList := do
  let pi := ProviderList.decodeItem provider
  let rows ← wci provider pi.provider reftimespec dataversion
  pure (ProviderRefTime.result pi.provider rows)

/-- The reference time of a request as a query specification. -/
def reftimeSpec (refTime : PTime) : Bytes :=
  let time := isotimeString refTime
  if refTime.isSpecial then Bytes.str "NULL"
  else if wciProtocol = 1 then
    Bytes.str "('" ++ time ++ Bytes.str "','" ++ time ++ Bytes.str "','exact')"
  else Bytes.str "'exact " ++ time ++ Bytes.str "'"

/-- The text of the exception for an empty answer. -/
def missingData (provider : Bytes) (times : ProviderTimes) : Bytes :=
  Bytes.str "Missing data for: " ++ provider ++ Bytes.str " at " ++
    (if times.refTime.isSpecial then Bytes.str "'latest'"
      else Bytes.str "'" ++ isotimeString times.refTime ++ Bytes.str "'") ++
    Bytes.str " with dataversion " ++
    (if times.dataversion < 0 then Bytes.str "'latest'"
      else Bytes.str (toString times.dataversion)) ++
    Bytes.str "."

/-- The update of the flags alone.  Returns whether an entry is changed. -/
def updateFlags (request : Bytes × ProviderTimes) (tmpRefTimes : ProviderRefTimeList) :
    Bool × ProviderRefTimeList :=
  let disable :=
    if request.2.disableEnableRequest then
      tmpRefTimes.updateDisableStatus request.1 request.2.disabled
    else (0, tmpRefTimes)
  let dataversion :=
    if request.2.dataversionRequest then
      disable.2.updateDataversion request.1 request.2.dataversion
    else (0, disable.2)
  (decide (0 < disable.1) || decide (0 < dataversion.1), dataversion.2)

/-- The flags of a request, set in an entry. -/
def withFlags (request old : ProviderTimes) : ProviderTimes :=
  let versioned :=
    if request.dataversionRequest then { old with dataversion := request.dataversion } else old
  if request.disableEnableRequest then { versioned with disabled := request.disabled }
  else versioned

/-- An entry that is written without looking at the old one. -/
def overwritten (request row : ProviderTimes) : ProviderTimes :=
  { row with dataversion := request.dataversion, disabled := request.disabled }

/-- The body of the loop over the rows of an answer, for the entry with the name of the row.
The result is the new entry and whether it counts as a change. -/
def updateEntry (request : Bytes × ProviderTimes) (row : Bytes × ProviderTimes)
    (entry : Option ProviderTimes) : ProviderTimes × Bool :=
  let pi := ProviderList.decodeItem request.1
  match entry with
  | none => (overwritten request.2 row.2, true)
  | some old =>
      if pi.placename.isEmpty ∨ row.1 = pi.providerWithPlacename then
        if old.refTime = row.2.refTime then
          (withFlags request.2 old, decide (withFlags request.2 old ≠ old))
        else (withFlags request.2 { row.2 with disabled := old.disabled }, true)
      else (overwritten request.2 row.2, true)

/-- The body of the loop over the rows of an answer. -/
def updateRow (request : Bytes × ProviderTimes) (state : ProviderRefTimeList × Bool)
    (row : Bytes × ProviderTimes) : ProviderRefTimeList × Bool :=
  let updated := updateEntry request row (state.1.find? row.1)
  (state.1.insert row.1 updated.1, state.2 || updated.2)

/-- The part of the loop over the requests before the query: the list with the new flags,
whether it is changed, and whether the database is asked. -/
def prepare (request : Bytes × ProviderTimes) (state : ProviderRefTimeList × Bool) :
    ProviderRefTimeList × Bool × Bool :=
  if request.2.reftimeUpdateRequest then (state.1, state.2, true)
  else
    let updated := updateFlags request state.1
    (updated.2, state.2 || updated.1,
      updated.1 && !decide (updated.2.disabled request.1 = some true))

/-- The answer to the query of a request.  It is empty when the database is not asked, and an
empty answer of the database is an error. -/
def ask (isAsked : Bool) (request : Bytes × ProviderTimes) : Except Bytes ProviderRefTimeList :=
  if !isAsked then pure ∅
  else do
    let resRefTimes ← getProviderReftimes wci request.1
      (reftimeSpec isotimeString wciProtocol request.2.refTime) request.2.dataversion
    if resRefTimes.entries.isEmpty then throw (missingData isotimeString request.1 request.2)
    else pure resRefTimes

/-- The body of the loop over the requests. -/
def updateOne (state : ProviderRefTimeList × Bool) (request : Bytes × ProviderTimes) :
    Except Bytes (ProviderRefTimeList × Bool) := do
  let prepared := prepare request state
  let resRefTimes ← ask wci isotimeString wciProtocol prepared.2.2 request
  pure (resRefTimes.entries.foldl (updateRow request) (prepared.1, prepared.2.1))

/-- The loop over the requests. -/
def updateLoop : List (Bytes × ProviderTimes) → ProviderRefTimeList × Bool →
    Except Bytes (ProviderRefTimeList × Bool)
  | [], state => pure state
  | request :: rest, state => do
      let next ← updateOne wci isotimeString wciProtocol state request
      updateLoop rest next

/-- `updateProviderRefTimes` for an update request.  Returns the new list and whether it is
changed. -/
def updateProviderRefTimes (requestedUpdates refTimes : ProviderRefTimeList) :
    Except Bytes (ProviderRefTimeList × Bool) :=
  updateLoop wci isotimeString wciProtocol requestedUpdates.entries (refTimes, false)

/-- The argument `refTimes` after the call, which an exception leaves as it was. -/
def refTimesAfter (requestedUpdates refTimes : ProviderRefTimeList) : ProviderRefTimeList :=
  match updateProviderRefTimes wci isotimeString wciProtocol requestedUpdates refTimes with
  | .error _ => refTimes
  | .ok updated => updated.1

end UpdateProviderReftimes

end Wdb2ts
