import Wdb2ts.LocationData
import Wdb2ts.Lib.WhileLoop

/-!
# The moment elements of a location forecast

`encodeMoment` walks through the times of a location and writes the moment element of each
time one round late.  When the forecast provider changes it moves the start of the output
to the time of the change and goes back by the look-back of the weather symbols.
-/

namespace Wdb2ts

namespace EncodeLocationForecast4

variable {F : Type}

/-- The local variables of `encodeMoment`.  The pending element is the one of the current
time, and `written` has the times of the elements that are in the output. -/
structure MomentState (F : Type) where
  locationData : LocationData F
  currentTime : PTime
  currentFrom : PTime
  hasMomentData : Bool
  prevForecastprovider : Bytes
  countProviderChange : ℕ
  written : List PTime

namespace MomentState

/-- Write the pending element, unless its time is before the output. -/
def flush (state : MomentState F) : MomentState F :=
  if state.currentFrom ≤ state.currentTime ∧ state.hasMomentData = true then
    { state with written := state.written ++ [state.currentTime], hasMomentData := false }
  else state

/-- The element of the next round. -/
def nextLocation (state : MomentState F) : LocationElem F :=
  state.locationData.next.locationElem

/-- The state once the next element is fetched. -/
def advance (state : MomentState F) : MomentState F :=
  { state.flush with
    locationData := state.locationData.next
    currentTime := state.nextLocation.time
    hasMomentData := false }

/-- Do the moment tags of another provider make `encodeMoment` go back? -/
def isProviderChange (state : MomentState F) (provider : Bytes) : Bool :=
  !state.prevForecastprovider.isEmpty && state.prevForecastprovider != provider &&
    decide (state.countProviderChange < 10)

/-- Go back by the look-back and start the output at the current time. -/
def changeProvider (maxHours : ℤ) (provider : Bytes) (state : MomentState F) :
    MomentState F :=
  { state with
    locationData :=
      (state.locationData.init (state.currentTime.sub (PTime.hours maxHours)) provider 0).2
    currentFrom := state.currentTime
    prevForecastprovider := provider
    countProviderChange := state.countProviderChange + 1 }

/-- The body of the loop.  The moment tags of an element are those of a provider, or there
are none. -/
def round (moment : LocationElem F → Option Bytes) (maxHours : ℤ) (state : MomentState F) :
    MomentState F :=
  match moment state.nextLocation with
  | none => state.advance
  | some provider =>
      if state.isProviderChange provider then state.advance.changeProvider maxHours provider
      else if state.prevForecastprovider.isEmpty then
        { state.advance with prevForecastprovider := provider, hasMomentData := true }
      else { state.advance with hasMomentData := true }

/-- The test of the loop. -/
def hasNext (state : MomentState F) : Bool := state.locationData.hasNext

end MomentState

/-- The state before the first round. -/
def startMoment (data : LocationData F) (fromTime dataFrom : PTime) : MomentState F :=
  { locationData := (data.init dataFrom [] 0).2
    currentTime := dataFrom
    currentFrom := fromTime
    hasMomentData := false
    prevForecastprovider := []
    countProviderChange := 0
    written := [] }

/-- The number of tests that is enough for a time series of the given length. -/
def momentFuel (length : ℕ) : ℕ := 11 * (length + 1) + 1

/-- `EncodeLocationForecast4::encodeMoment`: the times of the moment elements in the output,
or `none` if the loop does not end within the tests of `momentFuel`. -/
def encodeMoment (moment : LocationElem F → Option Bytes) (maxHours : ℤ)
    (data : LocationData F) (fromTime : PTime) : Option (List PTime) :=
  let dataFrom := fromTime.sub (PTime.hours maxHours)
  if (data.init dataFrom [] 0).1 then
    (WhileLoop.run MomentState.hasNext (MomentState.round moment maxHours)
      (momentFuel data.timeSerie.length) (startMoment data fromTime dataFrom)).map
        fun final => final.flush.written
  else some []

end EncodeLocationForecast4

end Wdb2ts
