import Wdb2ts.MomentOrder
import Wdb2ts.BreakTimeRecords
import Wdb2ts.MetaModelConf
import Wdb2ts.ProviderReftimes
import Wdb2ts.Lib.Fallible
import Wdb2ts.Lib.Hulls

/-!
# The meta section of a location forecast

While `encodeMoment` writes the moments, it records the times at which their provider changes,
and `encodeMeta` tells of each provider when it was run and for which times its moments are.
So the meta section is to cover all moments of the output.
-/

namespace Wdb2ts

namespace EncodeLocationForecast4

open MomentState

variable {F : Type}

/-- The loop of `encodeMoment` with the forecast provider of the current element, the calls of
`updateBreakTimes` so far and the moments in the output, both with their providers. -/
structure Recording (F : Type) where
  state : MomentState F
  provider : Bytes
  calls : List BreakTimeCall
  moments : List BreakTimeCall

namespace Recording

/-- The pending element, if it is to be written. -/
def pending (recording : Recording F) : List BreakTimeCall :=
  if recording.state.currentFrom ≤ recording.state.currentTime ∧
      recording.state.hasMomentData = true then
    [⟨recording.provider, recording.state.currentTime⟩]
  else []

/-- The call of `updateBreakTimes` in a round. -/
def recorded (moment : LocationElem F → Option Bytes) (state : MomentState F) :
    List BreakTimeCall :=
  match moment state.nextLocation with
  | none => []
  | some provider =>
      if state.currentFrom ≤ state.nextLocation.time then [⟨provider, state.nextLocation.time⟩]
      else []

/-- The body of the loop. -/
def round (moment : LocationElem F → Option Bytes) (maxHours : ℤ) (recording : Recording F) :
    Recording F :=
  { state := recording.state.round moment maxHours
    provider := (moment recording.state.nextLocation).getD []
    calls := recording.calls ++ recorded moment recording.state
    moments := recording.moments ++ recording.pending }

/-- The test of the loop. -/
def hasNext (recording : Recording F) : Bool := recording.state.hasNext

/-- Before the first round. -/
def start (data : LocationData F) (fromTime dataFrom : PTime) : Recording F :=
  { state := startMoment data fromTime dataFrom
    provider := []
    calls := []
    moments := [] }

/-- Behind the loop: the last element is written. -/
def finish (recording : Recording F) : Recording F :=
  { recording with
    state := recording.state.flush
    moments := recording.moments ++ recording.pending }

end Recording

/-- An entry of the meta configuration. -/
structure MetaModel where
  name : Bytes
  conf : MetaModelConf

/-- A model element.  The attributes `termin`, `runended` and `nextrun` are left out of the text
when their time is special. -/
structure ModelElement where
  name : Bytes
  termin : PTime
  runended : PTime
  nextrun : PTime
  from_ : PTime
  to_ : PTime

section EncodeMeta

variable (now : ℤ) (refTimes : ProviderRefTimeList) (metaConf : SortedMap Bytes MetaModel)

/-- The reference time of a provider. -/
def terminOf (provider : Bytes) : PTime :=
  match refTimes.find? provider with
  | some times => times.refTime
  | none => .notADateTime

/-- The time at which a provider was updated. -/
def runEndedOf (provider : Bytes) : PTime :=
  match refTimes.find? provider with
  | some times => times.updatedTime
  | none => .notADateTime

/-- The entry of a provider, or else the one of its name. -/
def itMeta (provider : Bytes) : Option MetaModel :=
  match metaConf.find? provider with
  | some model => some model
  | none => metaConf.find? (ProviderList.decodeItem provider).provider

end EncodeMeta

/-! ## What is recorded -/

namespace Recording

variable {moment : LocationElem F → Option Bytes} {maxHours : ℤ} {recording : Recording F}

/-- The calls ascend, and every moment of the output is among them. -/
structure Recorded (recording : Recording F) : Prop where
  sorted : recording.calls.Pairwise fun earlier later => earlier.time ≤ later.time
  ahead : ∀ call ∈ recording.calls, ∀ entry ∈ recording.state.locationData.remaining,
    recording.state.currentFrom ≤ entry.1 → call.time ≤ entry.1
  moments : ∀ call ∈ recording.moments ++ recording.pending, call ∈ recording.calls
  written : recording.moments.map BreakTimeCall.time = recording.state.written

theorem map_time_pending (recording : Recording F) :
    (recording.moments ++ recording.pending).map BreakTimeCall.time =
      recording.moments.map BreakTimeCall.time ++
        if recording.state.currentFrom ≤ recording.state.currentTime ∧
            recording.state.hasMomentData = true then [recording.state.currentTime]
        else [] := by
  rw [List.map_append, pending]
  split
  · rfl
  · rfl

theorem Recorded.written_flush (recorded : Recorded recording) :
    (recording.moments ++ recording.pending).map BreakTimeCall.time =
      recording.state.flush.written := by
  rw [map_time_pending, recorded.written, flush_written]
  split
  · rfl
  · exact List.append_nil _

theorem round_written (moment : LocationElem F → Option Bytes) (maxHours : ℤ)
    (state : MomentState F) : (state.round moment maxHours).written = state.flush.written := by
  rcases round_cases moment maxHours state with ⟨_, equal⟩ | ⟨provider, _, _, equal⟩ |
    ⟨provider, equal⟩
  · rw [equal, advance_written]
  · rw [equal]
    exact advance_written state
  · rw [equal]
    exact advance_written state

/-- A call of a round is made at the time of the next element, which is in the output. -/
theorem mem_recorded {state : MomentState F} {call : BreakTimeCall} :
    call ∈ recorded moment state ↔
      moment state.nextLocation = some call.provider ∧ call.time = state.nextLocation.time ∧
        state.currentFrom ≤ state.nextLocation.time := by
  rcases call with ⟨provider, time⟩
  simp only [recorded]
  cases moment state.nextLocation with
  | none => simp
  | some other =>
      simp only [Option.some.injEq]
      split
      · rename_i within
        simp [within, eq_comm]
      · rename_i before
        simp [before]

/-- What is pending behind a round was recorded in it. -/
theorem mem_recorded_of_pending {call : BreakTimeCall}
    (member : call ∈ (recording.round moment maxHours).pending) :
    call ∈ recorded moment recording.state := by
  cases isMoment : moment recording.state.nextLocation with
  | none =>
      have notPending : (recording.round moment maxHours).state.hasMomentData = false := by
        simp [round, MomentState.round, isMoment]
      simp [pending, notPending] at member
  | some provider =>
      have shape := round_cases moment maxHours recording.state
      rw [isMoment] at shape
      rcases shape with ⟨isNone, _⟩ | ⟨_, _, _, equal⟩ | ⟨_, equal⟩
      · cases isNone
      · have notPending : (recording.round moment maxHours).state.hasMomentData = false := by
          simp [round, equal, changeProvider]
        simp [pending, notPending] at member
      · have isPending : call = ⟨provider, recording.state.nextLocation.time⟩ ∧
            recording.state.currentFrom ≤ recording.state.nextLocation.time := by
          simp only [pending, round, equal, isMoment] at member
          split at member
          · rename_i inOutput
            exact ⟨List.mem_singleton.mp member,
              (advance_currentFrom recording.state) ▸ inOutput.1⟩
          · cases member
        rw [mem_recorded, isPending.1]
        exact ⟨isMoment, rfl, isPending.2⟩

section NextElement

variable {entry : PTime × FromTimeSerie F} {rest : List (PTime × FromTimeSerie F)}

/-- The calls so far are not after the next element of the output. -/
theorem Recorded.le_next (isRecorded : Recorded recording)
    (moment : LocationElem F → Option Bytes)
    (remaining : recording.state.locationData.remaining = entry :: rest)
    (isTime : recording.state.nextLocation.time = entry.1)
    (notBefore : recording.state.currentFrom ≤ entry.1) :
    ∀ call ∈ recording.calls ++ recorded moment recording.state, call.time ≤ entry.1 := by
  intro call member
  rcases List.mem_append.mp member with earlier | isNew
  · apply isRecorded.ahead call earlier entry _ notBefore
    rw [remaining]
    exact List.mem_cons_self
  · rw [(mem_recorded.mp isNew).2.1]
    exact isTime.le

/-- Nor are they after the elements behind the next one. -/
theorem Recorded.le_later (isRecorded : Recorded recording)
    (remaining : recording.state.locationData.remaining = entry :: rest)
    (isTime : recording.state.nextLocation.time = entry.1)
    (ascending : ∀ later ∈ rest, entry.1 < later.1) :
    ∀ call ∈ recording.calls ++ recorded moment recording.state, ∀ later ∈ rest,
      recording.state.currentFrom ≤ later.1 → call.time ≤ later.1 := by
  intro call member later isLater notBefore
  rcases List.mem_append.mp member with earlier | isNew
  · apply isRecorded.ahead call earlier later _ notBefore
    rw [remaining]
    exact List.mem_cons_of_mem _ isLater
  · rw [(mem_recorded.mp isNew).2.1]
    calc recording.state.nextLocation.time = entry.1 := isTime
      _ ≤ later.1 := (ascending later isLater).le

end NextElement

theorem pairwise_recorded (state : MomentState F) :
    (recorded moment state).Pairwise fun earlier later => earlier.time ≤ later.time := by
  simp only [recorded]
  split
  · exact List.Pairwise.nil
  · split
    · exact List.pairwise_singleton _ _
    · exact List.Pairwise.nil

/-- A round that does not go back to a change before the output keeps the calls in order. -/
theorem Recorded.round (isRecorded : Recorded recording)
    {entries : List (PTime × FromTimeSerie F)} (walks : WalksThrough entries recording.state)
    (sorted : entries.Pairwise fun earlier later => earlier.1 < later.1)
    (more : recording.hasNext = true) (forward : recording.state.goesForward moment = true) :
    Recorded (recording.round moment maxHours) := by
  obtain ⟨entry, remaining, atEntry⟩ := walks.inRange.remaining_eq more
  have isTime : recording.state.nextLocation.time = entry.1 := atEntry
  have ascending : recording.state.locationData.remaining.Pairwise
      fun earlier later => earlier.1 < later.1 := by
    apply List.Pairwise.drop
    rw [walks.timeSerie]
    exact sorted
  rw [remaining, List.pairwise_cons] at ascending
  constructor
  · simp only [Recording.round]
    rw [List.pairwise_append]
    refine ⟨isRecorded.sorted, pairwise_recorded _, ?_⟩
    intro earlier isEarlier later isLater
    obtain ⟨_, isNext, notBefore⟩ := mem_recorded.mp isLater
    rw [isNext, isTime]
    apply isRecorded.le_next moment remaining isTime (isTime ▸ notBefore)
    exact List.mem_append_left _ isEarlier
  · intro call member later isLater notBefore
    simp only [Recording.round] at member isLater notBefore
    rcases round_cases moment maxHours recording.state with ⟨_, equal⟩ |
      ⟨provider, isMoment, isChange, equal⟩ | ⟨provider, equal⟩
    · rw [equal] at isLater notBefore
      rw [advance_currentFrom] at notBefore
      exact isRecorded.le_later remaining isTime ascending.1 call member later isLater notBefore
    · rw [equal] at notBefore
      have goesOn := currentFrom_le_of_goesForward forward isMoment isChange
      rw [isTime] at goesOn
      calc call.time ≤ entry.1 := isRecorded.le_next moment remaining isTime goesOn call member
        _ = recording.state.nextLocation.time := isTime.symm
        _ ≤ later.1 := notBefore
    · rw [equal] at isLater notBefore
      exact isRecorded.le_later remaining isTime ascending.1 call member later isLater
        (advance_currentFrom recording.state ▸ notBefore)
  · intro call member
    simp only [Recording.round]
    rcases List.mem_append.mp member with isWritten | isPending
    · exact List.mem_append_left _ (isRecorded.moments call isWritten)
    · exact List.mem_append_right _ (mem_recorded_of_pending isPending)
  · rw [Recording.round, round_written]
    exact isRecorded.written_flush

end Recording

section Run

variable {data : LocationData F} {fromTime dataFrom : PTime}

end Run

/-! ## What the meta section covers -/

/-- Every time of the output is in an interval, which is one of its provider, and every interval
begins with a call, whose provider it has. -/
structure Covers (calls : List BreakTimeCall) (intervals : List BreakTimes)
    (moments : List BreakTimeCall) : Prop where
  ordered : Hulls.Ordered BreakTimes.from_ BreakTimes.to_ intervals
  begins : ∀ interval ∈ intervals, ∃ first ∈ calls,
    first.time = interval.from_ ∧ first.provider = interval.provider
  covered : ∀ moment ∈ moments, ∃ interval ∈ intervals,
    interval.from_ ≤ moment.time ∧ moment.time ≤ interval.to_ ∧
      (moment.provider ≠ [] →
        interval.name = (ProviderList.decodeItem moment.provider).provider)

section Elements

variable {now : ℤ} {refTimes : ProviderRefTimeList} {metaConf : SortedMap Bytes MetaModel}

/-- A model element has the configured name of the provider, or the provider as its name, and it
tells the times of the provider. -/
structure TellsOf (refTimes : ProviderRefTimeList) (metaConf : SortedMap Bytes MetaModel)
    (provider : Bytes) (element : ModelElement) : Prop where
  configured : ∀ model ∈ itMeta metaConf provider, model.name ≠ [] → element.name = model.name
  own : (∀ model ∈ itMeta metaConf provider, model.name = []) → element.name = provider
  termin : element.termin = terminOf refTimes provider
  runended : element.runended = runEndedOf refTimes provider

/-- A model element tells of its break times. -/
structure Tells (refTimes : ProviderRefTimeList) (metaConf : SortedMap Bytes MetaModel)
    (breakTimes : BreakTimes) (element : ModelElement) : Prop where
  from_eq : element.from_ = breakTimes.from_
  to_eq : element.to_ = breakTimes.to_
  tells : TellsOf refTimes metaConf breakTimes.provider element

end Elements

/-! ## The meta section covers the moments -/

section Create

variable [FloatLimits F] [DecidableEq F]

end Create

end EncodeLocationForecast4

end Wdb2ts
