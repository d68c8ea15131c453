import Wdb2ts.QueryMaker
import Wdb2ts.WciWebQuery

/-!
# The queries of a request

A `WdbQueryHelper` runs through the configured queries of a request and through the providers
of each of them.  An iterator is the list from its position to the end.
-/

namespace Wdb2ts

/-- `Config::QueryElement`. -/
structure QueryElement where
  query : Bytes
  probe : Bool
  stopIfData : Bool
  wdbdb : Bytes
  prognosisLengthSeconds : ℤ

/-- The members of a `WdbQueryHelper`. -/
structure WdbQueryHelper (F : Type) where
  urlQuerys : List QueryElement
  itNext : List QueryElement
  position : Bytes
  reftimes : ProviderRefTimeList
  providerPriority : ProviderList
  itCurProviderPriority : ProviderList
  curProviderPriority : ProviderList
  first : Bool
  reftimeProvider : Bytes
  webQuery : WciWebQuery F
  queryMustHaveData : Bool
  stopIfQueryHasData : Bool
  prognosisLengthSeconds : ℤ
  refTimeFrom_IsEqualTo_ReftTimeTo : Bool
  validTime : Bytes
  wdbid_ : Bytes

namespace ProviderRefTimeList

/-- The entries that a provider asks for, in the order of the list. -/
def requested (reftimes : ProviderRefTimeList) (provider : Bytes) :
    List (Bytes × ProviderTimes) :=
  reftimes.entries.filter fun entry =>
    isRequested (ProviderList.decodeItem provider) (ProviderList.decodeItem entry.1)

/-- Widen an interval of reference times, unless it is still undefined. -/
def widen (refTime : PTime) (times : PTime × PTime) : PTime × PTime :=
  if times.1.isSpecial then (refTime, refTime)
  else if times.2 < refTime then (times.1, refTime)
  else if refTime < times.1 then (refTime, times.2)
  else times

/-- The loop of `WdbQueryHelper::doGetProviderReftime`. -/
def doGetProviderReftimeFrom (pvItemIn : ProviderItem) :
    List (Bytes × ProviderTimes) → PTime × PTime → PTime × PTime
  | [], times => times
  | entry :: rest, times =>
      if entry.2.disabled then doGetProviderReftimeFrom pvItemIn rest times
      else if isRequested pvItemIn (ProviderList.decodeItem entry.1) then
        if pvItemIn.placename.isEmpty then
          doGetProviderReftimeFrom pvItemIn rest (widen entry.2.refTime times)
        else widen entry.2.refTime times
      else doGetProviderReftimeFrom pvItemIn rest times

/-- `WdbQueryHelper::doGetProviderReftime`. -/
def doGetProviderReftime (reftimes : ProviderRefTimeList) (provider : Bytes)
    (times : PTime × PTime) : PTime × PTime :=
  doGetProviderReftimeFrom (ProviderList.decodeItem provider) reftimes.entries times

/-- `WdbQueryHelper::getProviderReftime` for a list of providers. -/
def getProviderListReftime (reftimes : ProviderRefTimeList) (providerList : List Bytes) :
    Option (PTime × PTime) :=
  let times := providerList.foldl
    (fun times provider => reftimes.doGetProviderReftime provider times) default
  if times.1.isSpecial then none else some times

/-- `WdbQueryHelper::getProviderReftime`. -/
def getProviderReftime (reftimes : ProviderRefTimeList) (provider : Bytes) :
    Option (PTime × PTime) :=
  reftimes.getProviderListReftime [provider]

/-- The data versions of one provider of `WdbQueryHelper::getDataversionString`. -/
def dataversions (reftimes : ProviderRefTimeList) (provider : Bytes) : List ℤ :=
  let entries :=
    if (ProviderList.decodeItem provider).placename.isEmpty then reftimes.requested provider
    else (reftimes.requested provider).take 1
  entries.map fun entry => entry.2.dataversion

/-- `WdbQueryHelper::getDataversionString`. -/
def getDataversionString (reftimes : ProviderRefTimeList) (dataproviderList : List Bytes) :
    Bytes :=
  let dvSet : SortedMap ℤ Unit :=
    .ofList ((dataproviderList.flatMap reftimes.dataversions).map fun version => (version, ()))
  match dvSet.keys with
  | [] => Bytes.str "-1"
  | version :: rest =>
      printInt version ++ rest.flatMap fun version => Bytes.chr ',' :: printInt version

/-- The loops of `WdbQueryHelper::hasNext` over the listed providers, which leave out the
disabled ones. -/
def enabledProviders (reftimes : ProviderRefTimeList) (valueList : List Bytes) : ProviderList :=
  (valueList.filter fun provider => reftimes.disabled provider ≠ some true).map
    fun provider => ⟨provider, []⟩

end ProviderRefTimeList

namespace WdbQueryHelper

variable {F : Type} [TextFunctions F] (isotimeString : PTime → Bytes)

/-- How a query ends: with an exception, with data to ask for or with none. -/
inductive RoundResult where
  | threw (what : Bytes)
  | found
  | skipped
  deriving DecidableEq, Repr

/-- Go on after a decoder, unless it has thrown. -/
def andThen (decoded : Option Bytes × WciWebQuery F) (helper : WdbQueryHelper F)
    (next : WdbQueryHelper F → RoundResult × WdbQueryHelper F) :
    RoundResult × WdbQueryHelper F :=
  match decoded.1 with
  | some what => (.threw what, { helper with webQuery := decoded.2 })
  | none => next { helper with webQuery := decoded.2 }

/-- Decode the data versions and the valid times of a query. -/
def finish (helper : WdbQueryHelper F) : RoundResult × WdbQueryHelper F :=
  andThen
    (helper.webQuery.runDecoder .dataversion
      (helper.reftimes.getDataversionString helper.webQuery.dataprovider.valueList))
    helper fun helper =>
  if !helper.validTime.isEmpty && !helper.webQuery.validtime.isDecoded then
    andThen (helper.webQuery.runDecoder .validtime helper.validTime) helper fun helper =>
      (.found, helper)
  else (.found, helper)

/-- Decode the reference times that are found. -/
def finishWith (helper : WdbQueryHelper F) (times : PTime × PTime) :
    RoundResult × WdbQueryHelper F :=
  andThen
    (helper.webQuery.runDecoder .reftime
      (isotimeString times.1 ++ Bytes.str "," ++ isotimeString times.2))
    { helper with refTimeFrom_IsEqualTo_ReftTimeTo := decide (times.2 = times.1) } finish

/-- The first provider with a reference time, with the providers from it on. -/
def seekReftime (reftimes : ProviderRefTimeList) (name : ProviderItem → Bytes) :
    ProviderList → Option (ProviderItem × (PTime × PTime)) × ProviderList
  | [] => (none, [])
  | item :: rest =>
      match reftimes.getProviderReftime (name item) with
      | none => seekReftime reftimes name rest
      | some times => (some (item, times), item :: rest)

/-- Ask for the data of one provider. -/
def askProvider (helper : WdbQueryHelper F) (provider : ProviderItem) (times : PTime × PTime) :
    RoundResult × WdbQueryHelper F :=
  andThen (helper.webQuery.runDecoder .dataprovider provider.provider) helper fun helper =>
    helper.finishWith isotimeString times

/-- Does a query ask for the reference times of its providers, one after the other? -/
def asksReftime (helper : WdbQueryHelper F) : Bool :=
  helper.webQuery.reftime.fromTime.isSpecial && !helper.webQuery.reftime.isDecoded

/-- The exception of a query without providers. -/
def missingProvider : Bytes := Bytes.str "EXCEPTION: missing provider in the query."

/-- Decode a configured query. -/
def startQuery (helper : WdbQueryHelper F) (query : QueryElement) :
    Except Bytes Bytes × WdbQueryHelper F :=
  let decoded := helper.webQuery.decode (helper.position ++ query.query)
  let helper :=
    { helper with
      reftimeProvider := []
      queryMustHaveData := query.probe
      stopIfQueryHasData := query.stopIfData
      prognosisLengthSeconds := query.prognosisLengthSeconds
      wdbid_ := query.wdbdb
      webQuery := decoded.2 }
  match decoded.1 with
  | .error what => (.error what, helper)
  | .ok text =>
      (.ok text, { helper with curProviderPriority := [], itCurProviderPriority := [] })

/-- Select the providers of a query, from its own list or from the list of the request. -/
def selectProviders (helper : WdbQueryHelper F) : Except Bytes (Option (WdbQueryHelper F)) :=
  let valueList := helper.webQuery.dataprovider.valueList
  if helper.asksReftime then
    if valueList.isEmpty then
      if helper.providerPriority.isEmpty then .error missingProvider
      else .ok (some { helper with curProviderPriority := helper.providerPriority })
    else
      .ok (some
        { helper with curProviderPriority := helper.reftimes.enabledProviders valueList })
  else if valueList.isEmpty then
    if helper.providerPriority.isEmpty then .error missingProvider
    else .ok (some (setProviders helper.providerPriority helper))
  else
    let tmpList := helper.reftimes.enabledProviders valueList
    if tmpList.isEmpty then .ok none else .ok (some (setProviders tmpList helper))
where
  /-- `webQuery.dataprovider.setValueList( list.providerWithoutPlacename() )`. -/
  setProviders (list : ProviderList) (helper : WdbQueryHelper F) : WdbQueryHelper F :=
    { helper with
      webQuery :=
        { helper.webQuery with
          dataprovider :=
            helper.webQuery.dataprovider.setValueList list.providerWithoutPlacename } }

/-- Find the reference times of a query with its providers. -/
def chooseReftime (helper : WdbQueryHelper F) : RoundResult × WdbQueryHelper F :=
  if helper.asksReftime then
    let sought :=
      seekReftime helper.reftimes ProviderItem.provider helper.curProviderPriority
    let helper := { helper with itCurProviderPriority := sought.2 }
    match sought.1 with
    | none => (.skipped, helper)
    | some (provider, times) => helper.askProvider isotimeString provider times
  else
    let helper :=
      { helper with reftimeProvider := helper.webQuery.reftime.sameTimespecAsProvider }
    if !helper.reftimeProvider.isEmpty then
      match helper.reftimes.getProviderReftime helper.reftimeProvider with
      | none => (.skipped, helper)
      | some times => helper.finishWith isotimeString times
    else if helper.webQuery.reftime.useProviderList_ then
      match helper.reftimes.getProviderListReftime helper.webQuery.dataprovider.valueList with
      | none => (.skipped, helper)
      | some times => helper.finishWith isotimeString times
    else helper.finish

/-- The body of the loop of `hasNext` for one configured query. -/
def tryQuery (helper : WdbQueryHelper F) (query : QueryElement) :
    RoundResult × WdbQueryHelper F :=
  match helper.startQuery query with
  | (.error what, helper) => (.threw what, helper)
  | (.ok _, helper) =>
      match helper.selectProviders with
      | .error what => (.threw what, helper)
      | .ok none => (.skipped, helper)
      | .ok (some helper) => helper.chooseReftime isotimeString

/-- The helper that comes to a query. -/
def at_ (helper : WdbQueryHelper F) (querys : List QueryElement) : WdbQueryHelper F :=
  { helper with itNext := querys, first := false }

/-- The loop of `hasNext` over the configured queries. -/
def tryQuerys : List QueryElement → WdbQueryHelper F → Except Bytes Bool × WdbQueryHelper F
  | [], helper => (.ok false, { helper with itNext := [] })
  | query :: rest, helper =>
      match (helper.at_ (query :: rest)).tryQuery isotimeString query with
      | (.threw what, helper) => (.error what, helper)
      | (.found, helper) => (.ok true, helper)
      | (.skipped, helper) => tryQuerys rest helper

/-- The helper of a call of `hasNext` that comes to the loop over the queries: the next
provider of the query before has no reference time. -/
def nextProvider (helper : WdbQueryHelper F) :
    Option (ProviderItem × (PTime × PTime)) × WdbQueryHelper F :=
  let helper := { helper with itNext := if helper.first then helper.urlQuerys else helper.itNext }
  match helper.itCurProviderPriority with
  | [] => (none, helper)
  | _ :: rest =>
      let sought := seekReftime helper.reftimes
        (fun item =>
          if helper.reftimeProvider.isEmpty then item.provider else helper.reftimeProvider) rest
      (sought.1, { helper with itCurProviderPriority := sought.2 })

/-- The configured queries that a call of `hasNext` has before it. -/
def nextQuerys (helper : WdbQueryHelper F) : List QueryElement :=
  if helper.first then helper.itNext else helper.itNext.tail

/-- `WdbQueryHelper::hasNext`. -/
def hasNext (helper : WdbQueryHelper F) : Except Bytes Bool × WdbQueryHelper F :=
  match helper.nextProvider with
  | (some (provider, times), helper) =>
      match helper.askProvider isotimeString provider times with
      | (.threw what, helper) => (.error what, helper)
      | (_, helper) => (.ok true, helper)
  | (none, helper) => tryQuerys isotimeString helper.nextQuerys helper

/-- `WdbQueryHelper::next`, without the flags that it copies. -/
def next (helper : WdbQueryHelper F) : Except Bytes Bytes := do
  let text ← helper.webQuery.wciReadQuery
  pure (if helper.refTimeFrom_IsEqualTo_ReftTimeTo then text
    else text ++ Bytes.str " ORDER BY referencetime")

end WdbQueryHelper

end Wdb2ts
