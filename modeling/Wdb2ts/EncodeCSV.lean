import Wdb2ts.Lib.WhileLoop
import Wdb2ts.PtimeUtil
import Wdb2ts.WciWebQuery

/-!
# The CSV export

The handler of a location decodes the query of a client and exports the data of its interval.  The
export reads the interval in pieces of a day.  It writes the ends of a piece as text, and the time
specification of the query decodes them again.
-/

namespace Wdb2ts

namespace PTime

/-- `ptime + days( 1 )`, which throws when the time has no date. -/
def addDay : PTime → Except Bytes PTime
  | .ticks microseconds => (date microseconds).map fun _ => .ticks (microseconds + dayLength)
  | special => .ok special

/-- `seconds`. -/
def seconds (count : ℤ) : ℤ := count * 1000000

end PTime

variable {F : Type} [TextFunctions F]

namespace LocationHandler

/-- The queries that `LocationHandler::get` accepts, or the text of the error document. -/
def accept (wciProtocol : ℤ) (queryIn : Bytes) : Except Bytes (WciWebQuery F) :=
  match (WciWebQuery.new wciProtocol (Bytes.str "*")).decode queryIn with
  | (.error what, _) =>
      .error (Bytes.str "Exception, decode query: " ++ what ++ Bytes.str ": Query: " ++ queryIn)
  | (.ok _, webQuery) =>
      if webQuery.reftime.fromTime.isSpecial && webQuery.validtime.fromTime.isSpecial then
        .error (Bytes.str
          "Invalid qurey, reftime or validtime must be different from 'NULL'. Query: " ++ queryIn)
      else .ok webQuery

end LocationHandler

namespace EncodeCSV

/-- The columns of the export. -/
def header : Bytes :=
  Bytes.str "#referencetime,dataprovidername,placename,latitude,longitude,confidencecode,"
    ++ Bytes.str "dataversion,validfrom,validto,levelparametername,levelfrom,levelto,"
    ++ Bytes.str "levelunitname,valueparametername,value,valueparameterunit\n"

/-- A read of the database: the text it writes for a query, or its exception. -/
abbrev Perform := Bytes → Except Bytes Bytes

/-- The members and variables of `encode` at the start of a round, with the intervals that have been
read. -/
structure LoopState (F : Type) where
  webQuery_ : WciWebQuery F
  from_ : PTime
  nextTo : PTime
  reads : List (PTime × PTime)
  out : Bytes

/-- How `encode` ends: the intervals that have been read, the output and the exception. -/
structure Outcome where
  reads : List (PTime × PTime)
  out : Bytes
  thrown : Option Bytes

/-- `encode` ends with an exception. -/
def LoopState.throw (state : LoopState F) (what : Bytes) : Outcome :=
  ⟨state.reads, state.out, some what⟩

/-- The time specification that `encode` rewrites. -/
def timeSpec (hasReftime : Bool) (webQuery : WciWebQuery F) : UrlParamTimeSpec :=
  if hasReftime then webQuery.reftime else webQuery.validtime

/-- `decode` of the time specification that `encode` rewrites. -/
def decodeTimes (hasReftime : Bool) (text : Bytes) (webQuery : WciWebQuery F) :
    Option Bytes × WciWebQuery F :=
  let decoded := (timeSpec hasReftime webQuery).decode F text
  (decoded.1,
    if hasReftime then { webQuery with reftime := decoded.2 }
    else { webQuery with validtime := decoded.2 })

/-- The part of a round behind the text of its interval. -/
def readInterval (perform : Perform) (hasReftime : Bool) (to_ : PTime) (text : Bytes)
    (from_ nextTo : PTime) (state : LoopState F) : LoopState F ⊕ Outcome :=
  match decodeTimes hasReftime text state.webQuery_ with
  | (some what, _) => .inr (state.throw what)
  | (none, webQuery) =>
      match webQuery.wciReadQuery with
      | .error what => .inr (state.throw what)
      | .ok query =>
          let spec := timeSpec hasReftime webQuery
          let reads := state.reads ++ [(spec.fromTime, spec.toTime)]
          match perform (query ++ Bytes.str " order by validto;") with
          | .error what => .inr ⟨reads, state.out, some what⟩
          | .ok rows =>
              if from_ ≤ to_ then .inl ⟨webQuery, from_, nextTo, reads, state.out ++ rows⟩
              else .inr ⟨reads, state.out ++ rows, none⟩

/-- The text of an interval. -/
def intervalText (from_ nextTo : PTime) : Except Bytes Bytes := do
  let fromText ← miutil.isotimeString from_ true true
  let toText ← miutil.isotimeString nextTo true true
  return fromText ++ Bytes.str "," ++ toText ++ Bytes.str "," ++
    if from_ = nextTo then Bytes.str "exact" else Bytes.str "inside"

/-- One round of the loop of `encode`. -/
def round (perform : Perform) (hasReftime : Bool) (to_ : PTime) (state : LoopState F) :
    LoopState F ⊕ Outcome :=
  let nextTo := if state.nextTo > to_ then to_ else state.nextTo
  match intervalText state.from_ nextTo with
  | .error what => .inr (state.throw what)
  | .ok text =>
      match nextTo.addDay with
      | .error what => .inr (state.throw what)
      | .ok next =>
          readInterval perform hasReftime to_ text (nextTo.add (PTime.seconds 1)) next state

/-- The interval of a query: whether it is that of `reftime`, and its ends. -/
def interval (webQuery : WciWebQuery F) : Option (Bool × PTime × PTime) :=
  if !webQuery.reftime.fromTime.isSpecial then
    some (true, webQuery.reftime.fromTime, webQuery.reftime.toTime)
  else if !webQuery.validtime.fromTime.isSpecial then
    some (false, webQuery.validtime.fromTime, webQuery.validtime.toTime)
  else none

/-- `EncodeCSV::encode`, if it ends within the given number of rounds. -/
def encode (perform : Perform) (fuel : ℕ) (webQuery_ : WciWebQuery F) : Option Outcome :=
  match interval webQuery_ with
  | none =>
      some ⟨[], [], some
        (Bytes.str "Invalid qurey, reftime or validtime must be different from 'NULL'.")⟩
  | some (hasReftime, from_, to_) =>
      match from_.addDay with
      | .error what => some ⟨[], header, some what⟩
      | .ok nextTo =>
          WhileLoop.runUntil (round perform hasReftime to_) fuel
            ⟨webQuery_, from_, nextTo, [], header⟩

end EncodeCSV

end Wdb2ts
